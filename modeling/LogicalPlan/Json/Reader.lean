import LogicalPlan.Value.Basic

/-!
# Reading JSON

A JSON text is read into a value. Numbers without fraction and exponent are integers, all others
binary64 numbers. A repeated key keeps its first place and its last value. Every value that is read
is at most as heavy as its text is long, so nested texts can be read by recursion on the weight.

## Implementation notes

The reader works on characters with a bound on its steps. Every step consumes a character within two
units of the bound, so twice the length is always enough.
-/

namespace LogicalPlan

namespace Json

/-- Blanks between tokens. -/
def isBlank (c : Char) : Bool :=
  c == ' ' || c == '\t' || c == '\n' || c == '\r'

/-- The text after leading blanks. -/
def skipBlanks (cs : List Char) : List Char :=
  cs.dropWhile isBlank

theorem length_skipBlanks_le (cs : List Char) : (skipBlanks cs).length ≤ cs.length :=
  (List.dropWhile_suffix isBlank).sublist.length_le

/-- The value of a hexadecimal digit. -/
def hexValue? (c : Char) : Option Nat :=
  let n := c.toNat
  if 48 ≤ n && n ≤ 57 then some (n - 48)
  else if 97 ≤ n && n ≤ 102 then some (n - 87)
  else if 65 ≤ n && n ≤ 70 then some (n - 55)
  else none

/-- The number written by four hexadecimal digits. -/
def unit? (a b c d : Char) : Option Nat := do
  some (((← hexValue? a) * 16 + (← hexValue? b)) * 256 + ((← hexValue? c) * 16 + (← hexValue? d)))

/-- The character denoted by a short escape. -/
def shortEscape? (c : Char) : Option Char :=
  if c = '\x22' then some c
  else if c = '\\' then some c
  else if c = '/' then some c
  else if c = 'n' then some '\n'
  else if c = 't' then some '\t'
  else if c = 'r' then some '\r'
  else if c = 'b' then some (Char.ofNat 8)
  else if c = 'f' then some (Char.ofNat 12)
  else none

/-- The character of a pair of UTF-16 units, if they are such a pair. -/
def pairedUnits? (high low : Nat) : Option Char :=
  if 55296 ≤ high ∧ high < 56320 ∧ 56320 ≤ low ∧ low < 57344 then
    some (Char.ofNat (65536 + (high - 55296) * 1024 + (low - 56320)))
  else none

/-- The character of a single UTF-16 unit; half a pair becomes the replacement character. -/
def singleUnit (n : Nat) : Char :=
  if 55296 ≤ n ∧ n < 57344 then Char.ofNat 65533 else Char.ofNat n

/-- The characters of a string up to its closing quote, after the ones read so far in reverse. -/
def readString (done : List Char) : List Char → Option (List Char × List Char)
  | [] => none
  | '\x22' :: rest => some (done.reverse, rest)
  | '\\' :: 'u' :: a :: b :: c :: d :: '\\' :: 'u' :: e :: f :: g :: h :: rest =>
    match unit? a b c d with
    | none => none
    | some high =>
      match (unit? e f g h).bind (pairedUnits? high) with
      | some paired => readString (paired :: done) rest
      | none => readString (singleUnit high :: done) ('\\' :: 'u' :: e :: f :: g :: h :: rest)
  | '\\' :: 'u' :: a :: b :: c :: d :: rest =>
    match unit? a b c d with
    | none => none
    | some n => readString (singleUnit n :: done) rest
  | '\\' :: c :: rest =>
    match shortEscape? c with
    | none => none
    | some e => readString (e :: done) rest
  | c :: rest => if c.toNat < 32 || c = '\\' then none else readString (c :: done) rest

/-- The digits at the start of a text and what follows them. -/
def readDigits (cs : List Char) : List Char × List Char :=
  (cs.takeWhile Char.isDigit, cs.dropWhile Char.isDigit)

/-- The number denoted by decimal digits. -/
def digitsValue (ds : List Char) : Nat :=
  ds.foldl (fun n c => 10 * n + (c.toNat - 48)) 0

/-- The digits of an integer part, which has no leading zero. -/
def readIntegerPart? (cs : List Char) : Option (List Char × List Char) :=
  match cs with
  | '0' :: rest => some (['0'], rest)
  | _ =>
    let (ds, rest) := readDigits cs
    if ds.isEmpty then none else some (ds, rest)

/-- The digits of a fraction, if the text starts with one. -/
def readFraction (cs : List Char) : Option (List Char) × List Char :=
  match cs with
  | '.' :: rest =>
    let (ds, after) := readDigits rest
    if ds.isEmpty then (none, cs) else (some ds, after)
  | _ => (none, cs)

/-- The digits of an exponent with its sign, if the text goes on with them. -/
def readSignedDigits (cs : List Char) : Option (Int × List Char) :=
  let (negative, body) := match cs with
    | '-' :: rest => (true, rest)
    | '+' :: rest => (false, rest)
    | _ => (false, cs)
  let (ds, after) := readDigits body
  if ds.isEmpty then none
  else some (if negative then -(digitsValue ds : Int) else digitsValue ds, after)

/-- The exponent, if the text starts with one. -/
def readExponent (cs : List Char) : Option Int × List Char :=
  match cs with
  | c :: rest =>
    if c = 'e' ∨ c = 'E' then
      match readSignedDigits rest with
      | some (e, after) => (some e, after)
      | none => (none, cs)
    else (none, cs)
  | [] => (none, cs)

/-- A number and what follows it. -/
def readNumber? (cs : List Char) : Option (Value × List Char) :=
  let (negative, body) := match cs with
    | '-' :: rest => (true, rest)
    | _ => (false, cs)
  match readIntegerPart? body with
  | none => none
  | some (whole, rest) =>
    let (fraction, rest) := readFraction rest
    let (exponent, rest) := readExponent rest
    match fraction, exponent with
    | none, none =>
      let n := digitsValue whole
      some (.int (if negative then -(n : Int) else n), rest)
    | fraction, exponent =>
      let places := fraction.getD []
      some (.float (Double.ofDecimal negative (digitsValue (whole ++ places))
        (exponent.getD 0 - places.length)), rest)

mutual

/-- A value and what follows it. -/
def readValue : Nat → List Char → Option (Value × List Char)
  | 0, _ => none
  | n + 1, cs =>
    match cs with
    | '\x22' :: rest =>
      match readString [] rest with
      | some (s, after) => some (.string (String.ofList s), after)
      | none => none
    | '[' :: rest =>
      match skipBlanks rest with
      | ']' :: after => some (.list [], after)
      | rest =>
        match readItems n rest with
        | some (items, after) => some (.list items, after)
        | none => none
    | '\x7b' :: rest =>
      match skipBlanks rest with
      | '\x7d' :: after => some (.object [], after)
      | rest =>
        match readMembers n rest with
        | some (members, after) => some (.object (Members.ofAssignments members), after)
        | none => none
    | 'n' :: 'u' :: 'l' :: 'l' :: after => some (.null, after)
    | 't' :: 'r' :: 'u' :: 'e' :: after => some (.bool true, after)
    | 'f' :: 'a' :: 'l' :: 's' :: 'e' :: after => some (.bool false, after)
    | cs => readNumber? cs

/-- The items of an array up to its closing bracket. -/
def readItems : Nat → List Char → Option (List Value × List Char)
  | 0, _ => none
  | n + 1, cs =>
    match readValue n cs with
    | none => none
    | some (v, rest) =>
      match skipBlanks rest with
      | ']' :: after => some ([v], after)
      | ',' :: rest =>
        match readItems n (skipBlanks rest) with
        | some (vs, after) => some (v :: vs, after)
        | none => none
      | _ => none

/-- The members of an object up to its closing brace. -/
def readMembers : Nat → List Char → Option (List (Value × Value) × List Char)
  | 0, _ => none
  | n + 1, cs =>
    match cs with
    | '\x22' :: rest =>
      match readString [] rest with
      | none => none
      | some (key, rest) =>
        match skipBlanks rest with
        | ':' :: rest =>
          match readValue n (skipBlanks rest) with
          | none => none
          | some (v, rest) =>
            match skipBlanks rest with
            | '\x7d' :: after => some ([(.string (String.ofList key), v)], after)
            | ',' :: rest =>
              match readMembers n (skipBlanks rest) with
              | some (ms, after) => some ((.string (String.ofList key), v) :: ms, after)
              | none => none
            | _ => none
        | _ => none
    | _ => none

end

/-- The value of a list of characters that is a complete JSON text. -/
def readAll (cs : List Char) : Option Value :=
  match readValue (2 * cs.length + 2) (skipBlanks cs) with
  | some (v, rest) => if (skipBlanks rest).isEmpty then some v else none
  | none => none

/-- The value that a JSON text denotes. -/
def read? (s : String) : Option Value :=
  readAll s.toList

/-! ## Weight of what is read -/

theorem length_of_readString {done cs s rest : List Char}
    (h : readString done cs = some (s, rest)) :
    s.length + rest.length < done.length + cs.length := by
  fun_induction readString done cs with
  | case1 => simp at h
  | case2 => simp only [Option.some.injEq, Prod.mk.injEq] at h; obtain ⟨rfl, rfl⟩ := h; simp
  | case3 => simp at h
  | case4 _ _ _ _ _ _ _ _ _ _ _ _ _ _ ih => have := ih h; simp only [List.length_cons] at *; omega
  | case5 _ _ _ _ _ _ _ _ _ _ _ _ _ ih => have := ih h; simp only [List.length_cons] at *; omega
  | case6 => simp at h
  | case7 _ _ _ _ _ _ _ _ _ ih => have := ih h; simp only [List.length_cons] at *; omega
  | case8 => simp at h
  | case9 _ _ _ _ _ _ _ ih => have := ih h; simp only [List.length_cons] at *; omega
  | case10 => simp at h
  | case11 _ _ _ _ _ _ _ _ ih => have := ih h; simp only [List.length_cons] at *; omega

theorem length_readDigits (cs : List Char) :
    (readDigits cs).1.length + (readDigits cs).2.length = cs.length := by
  rw [← List.length_append]
  exact congrArg List.length List.takeWhile_append_dropWhile

theorem length_of_readIntegerPart? {cs ds rest : List Char}
    (h : readIntegerPart? cs = some (ds, rest)) : rest.length < cs.length := by
  unfold readIntegerPart? at h
  split at h
  · simp only [Option.some.injEq, Prod.mk.injEq] at h
    obtain ⟨_, rfl⟩ := h
    simp
  · have total := length_readDigits cs
    simp only [Option.ite_none_left_eq_some, Option.some.injEq, Prod.mk.injEq,
      List.isEmpty_iff] at h
    obtain ⟨nonempty, rfl, rfl⟩ := h
    have := List.length_pos_iff.mpr nonempty
    omega

theorem length_readFraction_le (cs : List Char) : (readFraction cs).2.length ≤ cs.length := by
  unfold readFraction
  split
  · rename_i rest
    have total := length_readDigits rest
    dsimp only
    split
    · simp
    · simp only [List.length_cons]; omega
  · simp

theorem length_of_readSignedDigits {cs rest : List Char} {e : Int}
    (h : readSignedDigits cs = some (e, rest)) : rest.length ≤ cs.length := by
  have digits : ∀ body : List Char, (readDigits body).2.length ≤ body.length := fun body => by
    have := length_readDigits body
    omega
  unfold readSignedDigits at h
  dsimp only at h
  simp only [Option.ite_none_left_eq_some, Option.some.injEq, Prod.mk.injEq] at h
  obtain ⟨_, _, rfl⟩ := h
  refine Nat.le_trans (digits _) ?_
  split <;> simp

theorem length_readExponent_le (cs : List Char) : (readExponent cs).2.length ≤ cs.length := by
  unfold readExponent
  split
  · split
    · split
      · rename_i h
        have := length_of_readSignedDigits h
        simp only [List.length_cons]; omega
      · simp
    · simp
  · simp

theorem weight_of_readNumber? {cs rest : List Char} {v : Value}
    (h : readNumber? cs = some (v, rest)) : v.weight + rest.length ≤ cs.length := by
  unfold readNumber? at h
  dsimp only at h
  split at h
  · simp at h
  · rename_i whole after hwhole
    have bound := length_of_readIntegerPart? hwhole
    have body : after.length < cs.length := by
      refine Nat.lt_of_lt_of_le bound ?_
      split <;> simp
    have fraction := length_readFraction_le after
    have exponent := length_readExponent_le (readFraction after).2
    split at h <;>
    · simp only [Option.some.injEq, Prod.mk.injEq] at h
      obtain ⟨rfl, rfl⟩ := h
      simp only [Value.weight]
      omega

theorem weight_of_read (n : Nat) :
    (∀ cs v rest, readValue n cs = some (v, rest) → v.weight + rest.length ≤ cs.length) ∧
    (∀ cs vs rest, readItems n cs = some (vs, rest) →
      Value.itemsWeight vs + rest.length < cs.length) ∧
    (∀ cs ms rest, readMembers n cs = some (ms, rest) →
      Value.membersWeight ms + rest.length < cs.length) := by
  induction n with
  | zero => simp [readValue, readItems, readMembers]
  | succ n ih =>
    obtain ⟨ihValue, ihItems, ihMembers⟩ := ih
    refine ⟨fun cs v rest h => ?_, fun cs vs rest h => ?_, fun cs ms rest h => ?_⟩
    · unfold readValue at h
      split at h
      · split at h
        · rename_i hs
          have := length_of_readString hs
          simp only [Option.some.injEq, Prod.mk.injEq] at h
          obtain ⟨rfl, rfl⟩ := h
          simp only [Value.weight, String.length_ofList, List.length_cons, List.length_nil] at *
          omega
        · simp at h
      · rename_i body
        have blanks := length_skipBlanks_le body
        split at h
        · rename_i hb
          simp only [Option.some.injEq, Prod.mk.injEq] at h
          obtain ⟨rfl, rfl⟩ := h
          rw [hb] at blanks
          simp only [Value.weight, Value.itemsWeight, List.length_cons] at *
          omega
        · split at h
          · rename_i hi
            have := ihItems _ _ _ hi
            simp only [Option.some.injEq, Prod.mk.injEq] at h
            obtain ⟨rfl, rfl⟩ := h
            simp only [Value.weight, List.length_cons] at *
            omega
          · simp at h
      · rename_i body
        have blanks := length_skipBlanks_le body
        split at h
        · rename_i hb
          simp only [Option.some.injEq, Prod.mk.injEq] at h
          obtain ⟨rfl, rfl⟩ := h
          rw [hb] at blanks
          simp only [Value.weight, Value.membersWeight, List.length_cons] at *
          omega
        · split at h
          · rename_i members _ hm
            have := ihMembers _ _ _ hm
            have := Members.weight_ofAssignments members
            simp only [Option.some.injEq, Prod.mk.injEq] at h
            obtain ⟨rfl, rfl⟩ := h
            simp only [Value.weight, List.length_cons] at *
            omega
          · simp at h
      · simp only [Option.some.injEq, Prod.mk.injEq] at h
        obtain ⟨rfl, rfl⟩ := h
        simp only [Value.weight, List.length_cons]; omega
      · simp only [Option.some.injEq, Prod.mk.injEq] at h
        obtain ⟨rfl, rfl⟩ := h
        simp only [Value.weight, List.length_cons]; omega
      · simp only [Option.some.injEq, Prod.mk.injEq] at h
        obtain ⟨rfl, rfl⟩ := h
        simp only [Value.weight, List.length_cons]; omega
      · exact weight_of_readNumber? h
    · unfold readItems at h
      split at h
      · simp at h
      · rename_i v after hv
        have first := ihValue _ _ _ hv
        have blanks := length_skipBlanks_le after
        split at h
        · rename_i hb
          simp only [Option.some.injEq, Prod.mk.injEq] at h
          obtain ⟨rfl, rfl⟩ := h
          rw [hb] at blanks
          simp only [Value.itemsWeight, List.length_cons] at *
          omega
        · rename_i tail hb
          have tailBlanks := length_skipBlanks_le tail
          split at h
          · rename_i hi
            have := ihItems _ _ _ hi
            simp only [Option.some.injEq, Prod.mk.injEq] at h
            obtain ⟨rfl, rfl⟩ := h
            rw [hb] at blanks
            simp only [Value.itemsWeight, List.length_cons] at *
            omega
          · simp at h
        · simp at h
    · unfold readMembers at h
      split at h
      · split at h
        · simp at h
        · rename_i key after hs
          have keyBound := length_of_readString hs
          have keyBlanks := length_skipBlanks_le after
          split at h
          · rename_i body hc
            have bodyBlanks := length_skipBlanks_le body
            rw [hc] at keyBlanks
            split at h
            · simp at h
            · rename_i v end' hv
              have value := ihValue _ _ _ hv
              have blanks := length_skipBlanks_le end'
              split at h
              · rename_i hb
                simp only [Option.some.injEq, Prod.mk.injEq] at h
                obtain ⟨rfl, rfl⟩ := h
                rw [hb] at blanks
                simp only [Value.membersWeight, Value.weight, String.length_ofList,
                  List.length_cons, List.length_nil] at *
                omega
              · rename_i tail hb
                have tailBlanks := length_skipBlanks_le tail
                rw [hb] at blanks
                split at h
                · rename_i hm
                  have := ihMembers _ _ _ hm
                  simp only [Option.some.injEq, Prod.mk.injEq] at h
                  obtain ⟨rfl, rfl⟩ := h
                  simp only [Value.membersWeight, Value.weight, String.length_ofList,
                    List.length_cons, List.length_nil] at *
                  omega
                · simp at h
              · simp at h
          · simp at h
      · simp at h

/-- A value is lighter than the text that denotes it. -/
theorem weight_of_read? {s : String} {v : Value} (h : read? s = some v) :
    v.weight < (Value.string s).weight := by
  unfold read? readAll at h
  split at h
  · rename_i w rest hw
    have bound := (weight_of_read _).1 _ _ _ hw
    have blanks := length_skipBlanks_le s.toList
    split at h
    · simp only [Option.some.injEq] at h
      subst h
      simp only [Value.weight, ← String.length_toList]
      omega
    · simp at h
  · simp at h

end Json

end LogicalPlan
