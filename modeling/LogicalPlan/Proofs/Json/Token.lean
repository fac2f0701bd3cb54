import LogicalPlan.Json.Reader
import LogicalPlan.Json.Writer
import LogicalPlan.Proofs.Text.Shortest

/-!
# Texts of strings and numbers

A written string is read back up to its closing quote, so it is told apart from every other one
whatever follows it. The text of a number ends where the characters of numbers end.
-/

namespace LogicalPlan

namespace Json

/-! ### Strings -/

theorem hexValue?_hexDigit {n : ℕ} (h : n < 16) : hexValue? (Quoted.hexDigit n) = some n := by
  decide +revert

/-- A unit is read from its escape. -/
theorem exists_unitEscape {n : ℕ} (h : n < 65536) :
    ∃ a b c d, unitEscape n = ['\\', 'u', a, b, c, d] ∧ unit? a b c d = some n := by
  refine ⟨_, _, _, _, rfl, ?_⟩
  simp only [unit?, hexValue?_hexDigit (Nat.mod_lt _ (by norm_num : 0 < 16)), Option.bind_eq_bind,
    Option.bind_some, Option.some.injEq]
  omega

/-- A unit that is no first half of a pair stands for itself, whatever follows. -/
theorem readString_unit {n : ℕ} {a b c d : Char} (hunit : unit? a b c d = some n)
    (hn : n < 55296 ∨ 56320 ≤ n) (done rest : List Char) :
    readString done ('\\' :: 'u' :: a :: b :: c :: d :: rest) =
      readString (singleUnit n :: done) rest := by
  have unpaired (low : ℕ) : pairedUnits? n low = none := by
    unfold pairedUnits?
    rw [if_neg (by omega)]
  by_cases hrest : ∃ e f g h tail, rest = '\\' :: 'u' :: e :: f :: g :: h :: tail
  · obtain ⟨e, f, g, h, tail, rfl⟩ := hrest
    have none : (unit? e f g h).bind (pairedUnits? n) = Option.none := by
      cases unit? e f g h with
      | none => rfl
      | some low => exact unpaired low
    rw [readString]
    simp only [hunit, none]
  · rw [readString]
    · simp only [hunit]
    · intro e f g h tail heq
      exact hrest ⟨e, f, g, h, tail, heq⟩

/-- A pair of units stands for its character. -/
theorem readString_pair {high low : ℕ} {a b c d e f g h : Char}
    (hhigh : unit? a b c d = some high) (hlow : unit? e f g h = some low) {paired : Char}
    (hpaired : pairedUnits? high low = some paired) (done rest : List Char) :
    readString done
        ('\\' :: 'u' :: a :: b :: c :: d :: '\\' :: 'u' :: e :: f :: g :: h :: rest) =
      readString (paired :: done) rest := by
  rw [readString]
  simp only [hhigh, hlow, Option.bind_some, hpaired]

theorem isValidChar_toNat (c : Char) :
    c.toNat < 55296 ∨ 57343 < c.toNat ∧ c.toNat < 1114112 := c.valid

/-- The escape of a code point is read as its character. -/
theorem readString_codePointEscape (c : Char) (done rest : List Char) :
    readString done (codePointEscape c.toNat ++ rest) = readString (c :: done) rest := by
  have valid := isValidChar_toNat c
  unfold codePointEscape
  split
  case isTrue h =>
    obtain ⟨_, _, _, _, hescape, hunit⟩ := exists_unitEscape h
    have single : singleUnit c.toNat = c := by
      unfold singleUnit
      rw [if_neg (by omega), Char.ofNat_toNat]
    rw [hescape]
    simp only [List.cons_append, List.nil_append]
    rw [readString_unit hunit (by omega), single]
  case isFalse h =>
    obtain ⟨_, _, _, _, hfirst, hhigh⟩ :=
      exists_unitEscape (n := 55296 + (c.toNat - 65536) / 1024) (by omega)
    obtain ⟨_, _, _, _, hsecond, hlow⟩ :=
      exists_unitEscape (n := 56320 + (c.toNat - 65536) % 1024) (by omega)
    have paired : pairedUnits? (55296 + (c.toNat - 65536) / 1024)
        (56320 + (c.toNat - 65536) % 1024) = some c := by
      unfold pairedUnits?
      rw [if_pos (by omega)]
      have joined : 65536 + (55296 + (c.toNat - 65536) / 1024 - 55296) * 1024 +
          (56320 + (c.toNat - 65536) % 1024 - 56320) = c.toNat := by omega
      rw [joined, Char.ofNat_toNat]
    rw [hfirst, hsecond]
    simp only [List.cons_append, List.nil_append]
    exact readString_pair hhigh hlow paired done rest

/-- A written character is read as itself. -/
theorem readString_escape (asciiOnly : Bool) (c : Char) (done rest : List Char) :
    readString done (escape asciiOnly c ++ rest) = readString (c :: done) rest := by
  unfold escape
  split_ifs with hslash hquote hline hreturn htab hback hfeed hcode
  · subst hslash
    simp [readString, shortEscape?]
  · subst hquote
    simp [readString, shortEscape?, Quoted.doubleQuote]
  · subst hline
    simp [readString, shortEscape?]
  · subst hreturn
    simp [readString, shortEscape?]
  · subst htab
    simp [readString, shortEscape?]
  · have : c = Char.ofNat 8 := by rw [← hback, Char.ofNat_toNat]
    subst this
    simp [readString, shortEscape?]
  · have : c = Char.ofNat 12 := by rw [← hfeed, Char.ofNat_toNat]
    subst this
    simp [readString, shortEscape?]
  · exact readString_codePointEscape c done rest
  · have printable : (decide (c.toNat < 32) || decide (c = '\\')) = false := by
      simp only [Bool.or_eq_true, Bool.and_eq_true, decide_eq_true_eq, not_or] at hcode
      simp [hslash, hcode.1]
    rw [List.singleton_append, readString]
    · rw [printable]
      rfl
    all_goals simp_all [Quoted.doubleQuote]

/-- A written text is read up to its closing quote. -/
theorem readString_written (asciiOnly : Bool) (rest : List Char) : ∀ (cs done : List Char),
    readString done (cs.flatMap (escape asciiOnly) ++ Quoted.doubleQuote :: rest) =
      some (done.reverse ++ cs, rest)
  | [], done => by simp [readString, Quoted.doubleQuote]
  | c :: cs, done => by
      rw [List.flatMap_cons, List.append_assoc, readString_escape,
        readString_written asciiOnly rest cs (c :: done)]
      simp

/-- The text of a string tells the string, whatever follows. -/
theorem quote_unambiguous {asciiOnly : Bool} {s t : String} {r r' : List Char}
    (h : (quote asciiOnly s).toList ++ r = (quote asciiOnly t).toList ++ r') : s = t ∧ r = r' := by
  simp only [quote, String.toList_ofList, List.cons_append, List.append_assoc, List.cons.injEq,
    true_and, List.nil_append] at h
  have hread := readString_written asciiOnly r s.toList []
  rw [h, readString_written] at hread
  simp only [List.reverse_nil, List.nil_append, Option.some.injEq, Prod.mk.injEq] at hread
  exact ⟨String.toList_inj.mp hread.1.symm, hread.2.symm⟩

/-! ### Numbers -/

/-- What follows a text does not go on with the characters of a number. -/
def Stops (cs : List Char) : Prop :=
  ∀ c ∈ cs.head?, Decimal.isNumberChar c = false

/-- Texts of numbers end where the characters of numbers end. -/
theorem eq_of_numberChars {cs ds r s : List Char} (hc : ∀ c ∈ cs, Decimal.isNumberChar c = true)
    (hd : ∀ d ∈ ds, Decimal.isNumberChar d = true) (hr : Stops r) (hs : Stops s)
    (h : cs ++ r = ds ++ s) : cs = ds ∧ r = s := by
  have none {t : List Char} (ht : Stops t) : t.takeWhile Decimal.isNumberChar = [] := by
    cases t with
    | nil => rfl
    | cons c t => rw [List.takeWhile_cons_of_neg (by simp [ht c rfl])]
  have first := congrArg (List.takeWhile Decimal.isNumberChar) h
  rw [List.takeWhile_append_of_pos hc, List.takeWhile_append_of_pos hd, none hr, none hs,
    List.append_nil, List.append_nil] at first
  subst first
  exact ⟨rfl, List.append_cancel_left h⟩

theorem toList_toString_int (i : ℤ) :
    (toString i).toList = (if i < 0 then ['-'] else []) ++ (toString i.natAbs).toList := by
  rw [Int.toString_eq_repr, Int.repr_eq_if]
  split
  case isTrue h =>
    rw [if_neg (by omega), List.nil_append, show i.natAbs = i.toNat by omega]
    rfl
  case isFalse h =>
    rw [if_pos (by omega), String.toList_append, show i.natAbs = (-i).toNat by omega]
    rfl

/-- The text of an integer has no point and no exponent. -/
theorem char_toString_int (i : ℤ) :
    ∀ c ∈ (toString i).toList, Decimal.isNumberChar c = true ∧ c ≠ '.' ∧ c ≠ 'e' := by
  have digits := Double.areDigits_toString i.natAbs
  rw [toList_toString_int]
  refine List.forall_mem_append.mpr ⟨?_, ?_⟩
  · split <;> simp [Decimal.isNumberChar]
  · intro c hc
    have point := digits.ne (d := '.') rfl c hc
    have mark := digits.ne (d := 'e') rfl c hc
    exact ⟨digits.areNumberChars c hc, bne_iff_ne.mp point, bne_iff_ne.mp mark⟩

theorem toString_int_injective {i j : ℤ} (h : toString i = toString j) : i = j := by
  have numeral (n : ℕ) (cs : List Char) : (toString n).toList ≠ '-' :: cs := by
    intro heq
    have := Double.areDigits_toString n '-' (by rw [heq]; exact List.mem_cons_self)
    cases this
  have value {m n : ℕ} (heq : (toString m).toList = (toString n).toList) : m = n := by
    have := congrArg (Nat.ofDigitChars 10 · 0) heq
    simpa using this
  have chars := congrArg String.toList h
  rw [toList_toString_int, toList_toString_int] at chars
  split_ifs at chars with hi hj hj
  · have := value (List.cons.inj chars).2
    omega
  · exact absurd chars.symm (numeral _ _)
  · exact absurd chars (numeral _ _)
  · have := value chars
    omega

/-- The text of a number with a fraction has a point or an exponent. -/
theorem char_toText (x : Double) :
    (∀ c ∈ x.toText.toList, Decimal.isNumberChar c = true) ∧
      ∃ c ∈ x.toText.toList, c = '.' ∨ c = 'e' := by
  obtain ⟨whole, mark, rest, htext, hwhole, -, hmark, hrest⟩ := x.exists_unsignedText
  have sign : ∀ c ∈ (if x.isNegative then "-" else "").toList, Decimal.isNumberChar c = true := by
    split <;> simp [Decimal.isNumberChar]
  have point : Decimal.isNumberChar mark = true := by
    rcases hmark with rfl | rfl <;> rfl
  rw [Double.toText_eq, String.toList_append, htext]
  constructor
  · refine List.forall_mem_append.mpr ⟨sign, List.forall_mem_append.mpr ⟨?_, ?_⟩⟩
    · exact hwhole.areNumberChars
    · exact List.forall_mem_cons.mpr ⟨point, hrest⟩
  · exact ⟨mark, by simp, hmark⟩

end Json

end LogicalPlan
