import Mathlib.Data.List.TakeWhile
import LogicalPlan.Expr.Text
import LogicalPlan.Proofs.Json.Token

/-!
# Reading the texts of expressions

A reader takes the text of an expression apart again: words, quoted texts, calls, operations and
parentheses. The laws tell for each of them what is read from its text, whatever follows it.

## Implementation notes

The reader is bounded by fuel, and every text is read with all fuel above some bound. An operand
ends at a blank, an expression does not; otherwise both end where a parenthesis or a list goes on. A
text in quotes ends at the first quote that is not doubled, so that delimiters inside do not matter.
-/

namespace LogicalPlan

namespace Expr

/-! ### The reader -/

/-- The characters that end a word. -/
def delimiters : List Char :=
  [' ', '(', ')', ',', '\x27']

/-- The character can be part of a word. -/
def isWordChar (c : Char) : Bool :=
  !delimiters.contains c

/-- The word at the front of a text, and what follows it. -/
def word (cs : List Char) : List Char × List Char :=
  (cs.takeWhile isWordChar, cs.dropWhile isWordChar)

/-- The expression that denotes a literal. -/
def constant (v : Value) : Expr :=
  .apply {} .null constantName [.literal v]

/-- The expression that applies a function to expressions. -/
def call (f : List Char) (args : List Expr) : Expr :=
  .apply {} .null (.string (String.ofList f)) (args.map .nested)

/-- The expression in parentheses. -/
def inParentheses : Expr → Expr
  | .column _ c => .column { parenthesized := true } c
  | .apply _ datatype func args => .apply { parenthesized := true } datatype func args

/-- The integer that is written in decimal notation. -/
def readInt : List Char → Int
  | '-' :: cs => -Nat.ofDigitChars 10 cs 0
  | cs => Nat.ofDigitChars 10 cs 0

/-- The name or, in brackets, the position of a column. -/
def readName : List Char → Value
  | '[' :: cs => .int (readInt cs.dropLast)
  | cs => .string (String.ofList cs)

/-- The column that a word references; an alias ends at a point. -/
def readColumn (cs : List Char) : Column :=
  match cs.dropWhile (· != '.') with
  | [] => ⟨readName cs, .null⟩
  | _ :: name => ⟨readName name, .string (String.ofList (cs.takeWhile (· != '.')))⟩

/-- The word starts as a number does. -/
def startsNumber (cs : List Char) : Bool :=
  cs.head?.any fun c => c.isDigit || c == '-'

/-- The literal or the column that a word stands for. -/
def readWord (cs : List Char) : Expr :=
  if cs = "null".toList then constant .null
  else if cs = "true".toList then constant (.bool true)
  else if cs = "false".toList then constant (.bool false)
  else if startsNumber cs then constant (.int (readInt cs))
  else .column {} (readColumn cs)

/-- The text up to the first quote that is not doubled, and what follows the quote. -/
def readQuoted (done : List Char) : List Char → Option (List Char × List Char)
  | '\x27' :: '\x27' :: rest => readQuoted ('\x27' :: done) rest
  | '\x27' :: rest => some (done.reverse, rest)
  | c :: rest => readQuoted (c :: done) rest
  | [] => none

mutual

/-- An expression at the front of a text, and what follows it. -/
def readExpr : Nat → List Char → Option (Expr × List Char)
  | 0, _ => none
  | n + 1, cs =>
    if (word cs).1 = "not".toList then
      match (word cs).2 with
      | ' ' :: rest =>
        match readOperand n rest with
        | some (e, rest) => some (call "not".toList [e], rest)
        | none => none
      | _ => none
    else
      match readOperand n cs with
      | some (left, ' ' :: rest) =>
        match word rest with
        | (op, ' ' :: rest) =>
          match readOperand n rest with
          | some (right, rest) => some (call op [left, right], rest)
          | none => none
        | _ => none
      | read => read

/-- An operand at the front of a text, and what follows it. -/
def readOperand : Nat → List Char → Option (Expr × List Char)
  | 0, _ => none
  | n + 1, cs =>
    match cs with
    | '(' :: rest =>
      match readExpr n rest with
      | some (e, ')' :: rest) => some (e.inParentheses, rest)
      | _ => none
    | '\x27' :: rest =>
      match readQuoted [] rest with
      | some (s, rest) => some (constant (.string (String.ofList s)), rest)
      | none => none
    | cs =>
      match word cs with
      | ([], _) => none
      | (w, rest) =>
        match rest with
        | '(' :: ')' :: rest => some (call w [], rest)
        | '(' :: rest =>
          match readArguments n rest with
          | some (args, rest) => some (call w args, rest)
          | none => none
        | rest => some (readWord w, rest)

/-- The arguments of a call up to its closing parenthesis, and what follows it. -/
def readArguments : Nat → List Char → Option (List Expr × List Char)
  | 0, _ => none
  | n + 1, cs =>
    match readExpr n cs with
    | some (e, ')' :: rest) => some ([e], rest)
    | some (e, ',' :: ' ' :: rest) =>
      match readArguments n rest with
      | some (es, rest) => some (e :: es, rest)
      | none => none
    | _ => none

end

/-! ### Words -/

/-- What follows an operand: a blank, or what follows an expression. -/
def EndsOperand (rest : List Char) : Prop :=
  ∀ c ∈ rest.head?, c = ')' ∨ c = ',' ∨ c = ' '

/-- What follows an expression: the end of a text, of parentheses or of an argument. -/
def EndsExpr (rest : List Char) : Prop :=
  ∀ c ∈ rest.head?, c = ')' ∨ c = ','

theorem EndsExpr.endsOperand {rest : List Char} (h : EndsExpr rest) : EndsOperand rest := by
  intro c hc
  rcases h c hc with rfl | rfl
  · exact .inl rfl
  · exact .inr (.inl rfl)

/-- All characters are characters of words. -/
def IsWord (cs : List Char) : Prop :=
  ∀ c ∈ cs, isWordChar c = true

instance (cs : List Char) : Decidable (IsWord cs) :=
  List.decidableBAll _ cs

/-- A word ends at the first character that can be in no word. -/
theorem word_append {cs rest : List Char} (hcs : IsWord cs)
    (hrest : ∀ c ∈ rest.head?, isWordChar c = false) : word (cs ++ rest) = (cs, rest) := by
  unfold word
  rw [List.takeWhile_append_of_pos hcs, List.dropWhile_append_of_pos hcs]
  cases rest with
  | nil => simp
  | cons c rest =>
      have hc := hrest c rfl
      simp [hc]

theorem word_append_cons {cs : List Char} (hcs : IsWord cs) {c : Char} (hc : isWordChar c = false)
    (rest : List Char) : word (cs ++ c :: rest) = (cs, c :: rest) := by
  refine word_append hcs ?_
  simpa using hc

/-- There is no word in front of a delimiter. -/
theorem word_delimiter {c : Char} (hc : isWordChar c = false) (cs : List Char) :
    word (c :: cs) = ([], c :: cs) := by
  simp [word, hc]

/-- What starts with a delimiter does not look like a negation. -/
theorem word_delimiter_ne_not {c : Char} (hc : isWordChar c = false) (cs : List Char) :
    (word (c :: cs)).1 ≠ "not".toList := by
  rw [word_delimiter hc]
  exact (List.cons_ne_nil _ _).symm

theorem EndsOperand.isWordChar {rest : List Char} (h : EndsOperand rest) :
    ∀ c ∈ rest.head?, isWordChar c = false := by
  intro c hc
  rcases h c hc with rfl | rfl | rfl <;> rfl

/-! ### Numbers -/

theorem readInt_toString (i : Int) : readInt (toString i).toList = i := by
  have hvalue (n : Nat) : Nat.ofDigitChars 10 (toString n).toList 0 = n := by simp
  have hdigits := Double.areDigits_toString i.natAbs
  rw [Json.toList_toString_int]
  split
  case isTrue hneg =>
    rw [List.singleton_append, readInt, hvalue]
    omega
  case isFalse hnonneg =>
    rw [List.nil_append]
    unfold readInt
    split
    case h_1 cs hcs => cases hdigits '-' (hcs ▸ List.mem_cons_self)
    case h_2 =>
      rw [hvalue]
      omega

theorem isWord_toString (i : Int) : IsWord (toString i).toList := by
  intro c hc
  obtain ⟨hnumber, -⟩ := Json.char_toString_int i c hc
  refine Decidable.byContradiction fun hend => ?_
  simp only [isWordChar, delimiters, Bool.not_eq_true, Bool.not_eq_false', List.contains_eq_mem,
    List.mem_cons, List.not_mem_nil, or_false, decide_eq_true_eq] at hend
  rcases hend with rfl | rfl | rfl | rfl | rfl <;> cases hnumber

/-- The text of an integer starts with a digit or a sign. -/
theorem startsNumber_toString (i : Int) : startsNumber (toString i).toList = true := by
  have hdigits := Double.areDigits_toString i.natAbs
  unfold startsNumber
  rw [Json.toList_toString_int]
  split
  case isTrue => rfl
  case isFalse =>
    rw [List.nil_append]
    cases hcs : (toString i.natAbs).toList with
    | nil => exact absurd hcs (Double.toList_toString_ne_nil _)
    | cons c cs =>
        rw [hcs] at hdigits
        simp [hdigits c List.mem_cons_self]

/-! ### Names -/

/-- The words that stand for literals and for negation. -/
def keywords : List String :=
  ["not", "null", "true", "false"]

theorem isWord_of_mem_keywords : ∀ k ∈ keywords, IsWord k.toList := by
  decide

/-- The text is a word that can be a name: it is no operator and no keyword, it is not qualified,
and it does not start like a number or a position. -/
def isIdentifier (s : String) : Bool :=
  !(infixOperators ++ keywords).contains s &&
    s.toList.all (fun c => isWordChar c && c != '.') &&
    s.toList.head?.any fun c => !(c.isDigit || c == '-' || c == '[')

/-- The value is the name of a column or its position. -/
def isColumnName : Value → Bool
  | .string s => isIdentifier s
  | .int _ => true
  | _ => false

/-- The value is the alias of a relation, or there is none. -/
def isQualifier : Value → Bool
  | .string s => isIdentifier s
  | .null => true
  | _ => false

/-- The word is neither a keyword nor a number. -/
structure IsName (cs : List Char) : Prop where
  isWord : IsWord cs
  ne_nil : cs ≠ []
  free : ∀ k ∈ keywords, cs ≠ k.toList
  number : startsNumber cs = false

section Identifier

variable {s : String} (h : isIdentifier s = true)
include h

theorem not_mem_of_isIdentifier : s ∉ infixOperators ++ keywords := by
  simp only [isIdentifier, Bool.and_eq_true, Bool.not_eq_true', List.contains_eq_mem,
    decide_eq_false_iff_not] at h
  exact h.1.1

theorem char_of_isIdentifier : ∀ c ∈ s.toList, isWordChar c = true ∧ (c != '.') = true := by
  simp only [isIdentifier, Bool.and_eq_true, List.all_eq_true] at h
  exact h.1.2

theorem exists_cons_of_isIdentifier :
    ∃ c cs, s.toList = c :: cs ∧ startsNumber (c :: cs) = false ∧ c ≠ '[' := by
  simp only [isIdentifier, Bool.and_eq_true] at h
  cases hs : s.toList with
  | nil => simp [hs] at h
  | cons c cs =>
      have hfirst := h.2
      rw [hs] at hfirst
      simp only [List.head?_cons, Option.any_some, Bool.not_eq_true', Bool.or_eq_false_iff,
        beq_eq_false_iff_ne] at hfirst
      refine ⟨c, cs, rfl, ?_, hfirst.2⟩
      simp [startsNumber, hfirst.1]

theorem isName_of_isIdentifier : IsName s.toList := by
  obtain ⟨c, cs, hs, hnumber, -⟩ := exists_cons_of_isIdentifier h
  constructor
  · exact fun c hc => (char_of_isIdentifier h c hc).1
  · rw [hs]
    exact List.cons_ne_nil _ _
  · intro k hk heq
    rw [String.toList_inj] at heq
    exact not_mem_of_isIdentifier h (heq ▸ List.mem_append_right _ hk)
  · rw [hs]
    exact hnumber

theorem readName_of_isIdentifier : readName s.toList = .string s := by
  obtain ⟨c, cs, hs, -, hbracket⟩ := exists_cons_of_isIdentifier h
  unfold readName
  split
  case h_1 heq =>
    rw [hs] at heq
    exact absurd (List.cons.inj heq).1 hbracket
  case h_2 => rw [String.ofList_toList]

end Identifier

/-- The characters of a position in brackets. -/
theorem isName_position (i : Int) : IsName ('[' :: ((toString i).toList ++ [']'])) := by
  constructor
  · intro c hc
    simp only [List.mem_cons, List.mem_append, List.not_mem_nil, or_false] at hc
    rcases hc with rfl | hc | rfl
    · rfl
    · exact isWord_toString i c hc
    · rfl
  · exact List.cons_ne_nil _ _
  · intro k hk heq
    simp only [keywords, List.mem_cons, List.not_mem_nil, or_false] at hk
    rcases hk with rfl | rfl | rfl | rfl <;> cases heq
  · rfl

/-- A qualified name is a name. -/
theorem IsName.qualified {cs ds : List Char} (hcs : IsName cs) (hds : IsName ds) :
    IsName (cs ++ '.' :: ds) := by
  obtain ⟨c, rest, rfl⟩ := List.exists_cons_of_ne_nil hcs.ne_nil
  constructor
  · exact List.forall_mem_append.mpr ⟨hcs.isWord, List.forall_mem_cons.mpr ⟨rfl, hds.isWord⟩⟩
  · exact List.cons_ne_nil _ _
  · intro k hk heq
    have hpoint : '.' ∈ k.toList := by
      rw [← heq]
      exact List.mem_append_right _ List.mem_cons_self
    simp only [keywords, List.mem_cons, List.not_mem_nil, or_false] at hk
    rcases hk with rfl | rfl | rfl | rfl <;> revert hpoint <;> decide
  · exact hcs.number

/-- What the name or the position of a column looks like. -/
def nameText (name : Value) : String :=
  if name.toInt?.isSome then "[" ++ name.text ++ "]" else name.text

theorem readName_nameText {name : Value} (h : isColumnName name = true) :
    IsName (nameText name).toList ∧ readName (nameText name).toList = name ∧
      ∀ c ∈ (nameText name).toList, (c != '.') = true := by
  cases name with
  | string s =>
      exact ⟨isName_of_isIdentifier h, readName_of_isIdentifier h,
        fun c hc => (char_of_isIdentifier h c hc).2⟩
  | int i =>
      have hchars : (nameText (.int i)).toList = '[' :: ((toString i).toList ++ [']']) := by
        simp [nameText, Value.toInt?, Value.text, Value.literal]
      rw [hchars]
      refine ⟨isName_position i, ?_, ?_⟩
      · rw [readName, List.dropLast_concat, readInt_toString]
      · intro c hc
        simp only [List.mem_cons, List.mem_append, List.not_mem_nil, or_false] at hc
        rcases hc with rfl | hc | rfl
        · rfl
        · exact bne_iff_ne.mpr (Json.char_toString_int i c hc).2.1
        · rfl
  | _ => cases h

/-- A qualified column reference has a point between alias and name. -/
theorem toList_text_qualified {label : String} (hlabel : label ≠ "") (name : Value) :
    (Column.text ⟨name, .string label⟩).toList = label.toList ++ '.' :: (nameText name).toList := by
  have htext : Column.text ⟨name, .string label⟩ =
      if (Value.string label).isTruthy then label ++ "." ++ nameText name else nameText name := rfl
  have htruthy : (Value.string label).isTruthy = true := by simpa [Value.isTruthy] using hlabel
  rw [htext, if_pos htruthy]
  simp

/-- A column reference is read off its text. -/
theorem readColumn_text {name relAlias : Value} (hname : isColumnName name = true)
    (halias : isQualifier relAlias = true) :
    IsName (Column.text ⟨name, relAlias⟩).toList ∧
      readColumn (Column.text ⟨name, relAlias⟩).toList = ⟨name, relAlias⟩ := by
  obtain ⟨hword, hread, hpoint⟩ := readName_nameText hname
  cases relAlias with
  | null =>
      have htext : Column.text ⟨name, .null⟩ = nameText name := rfl
      rw [htext]
      refine ⟨hword, ?_⟩
      unfold readColumn
      rw [List.dropWhile_eq_nil_iff.mpr hpoint]
      dsimp only
      rw [hread]
  | string s =>
      have hs := isName_of_isIdentifier halias
      have hplain := fun c hc => (char_of_isIdentifier halias c hc).2
      have hne : s ≠ "" := by
        rintro rfl
        exact hs.ne_nil rfl
      rw [toList_text_qualified hne]
      refine ⟨hs.qualified hword, ?_⟩
      unfold readColumn
      rw [List.dropWhile_append_of_pos hplain, List.takeWhile_append_of_pos hplain,
        List.dropWhile_cons_of_neg (by decide), List.takeWhile_cons_of_neg (by decide)]
      dsimp only
      rw [hread, List.append_nil, String.ofList_toList]
  | _ => cases halias

/-! ### Leaves -/

/-- The values that can stand as a literal. -/
def isLiteral : Value → Bool
  | .null | .bool _ | .int _ | .string _ => true
  | _ => false

/-- A name stands for a column. -/
theorem readWord_of_isName {cs : List Char} (h : IsName cs) :
    readWord cs = .column {} (readColumn cs) := by
  unfold readWord
  rw [if_neg (h.free _ (by decide)), if_neg (h.free _ (by decide)), if_neg (h.free _ (by decide)),
    h.number, if_neg Bool.false_ne_true]

/-- The characters of a text between its quotes. -/
def doubled (cs : List Char) : List Char :=
  cs.flatMap fun c => if c = Quoted.singleQuote then [c, c] else [c]

/-- A quoted text is read up to the quote that ends it, whatever it contains. -/
theorem readQuoted_doubled {rest : List Char} (hrest : ∀ c ∈ rest.head?, c ≠ '\x27') :
    ∀ cs done : List Char,
      readQuoted done (doubled cs ++ '\x27' :: rest) = some (done.reverse ++ cs, rest)
  | [], done => by
      rw [doubled, List.flatMap_nil, List.nil_append, List.append_nil, readQuoted]
      rintro tail rfl
      exact hrest _ rfl rfl
  | c :: cs, done => by
      have hread := readQuoted_doubled hrest cs (c :: done)
      rw [doubled, List.flatMap_cons, ← doubled, List.append_assoc]
      by_cases hquote : c = '\x27'
      · subst hquote
        change readQuoted done ('\x27' :: '\x27' :: (doubled cs ++ '\x27' :: rest)) = _
        rw [readQuoted, hread, List.reverse_cons, List.append_assoc]
        rfl
      · have hsingle : ¬c = Quoted.singleQuote := hquote
        rw [if_neg hsingle, List.singleton_append, readQuoted, hread, List.reverse_cons,
          List.append_assoc]
        · rfl
        · exact fun _ h => absurd h hquote
        · exact hquote

/-! ### Operands -/

/-- With enough fuel, the text is read as the expression wherever an expression can end. -/
def ReadsExpr (cs : List Char) (e : Expr) : Prop :=
  ∃ m, ∀ n, m ≤ n → ∀ rest, EndsExpr rest → readExpr n (cs ++ rest) = some (e, rest)

/-- With enough fuel, the text is read as the operand wherever an operand can end, and it does not
look like a negation. -/
def ReadsOperand (cs : List Char) (e : Expr) : Prop :=
  ∃ m, ∀ n, m ≤ n → ∀ rest, EndsOperand rest →
    (word (cs ++ rest)).1 ≠ "not".toList ∧ readOperand n (cs ++ rest) = some (e, rest)

theorem ReadsOperand.readsExpr {cs : List Char} {e : Expr} (h : ReadsOperand cs e) :
    ReadsExpr cs e := by
  obtain ⟨m, h⟩ := h
  refine ⟨m + 1, fun n hn rest hrest => ?_⟩
  obtain ⟨n, rfl⟩ := Nat.exists_eq_add_of_lt hn
  obtain ⟨hnot, hread⟩ := h (m + n) (by omega) rest hrest.endsOperand
  rw [readExpr, if_neg hnot, hread]
  cases rest with
  | nil => rfl
  | cons c rest => rcases hrest c rfl with rfl | rfl <;> rfl

/-- Parentheses make an operand of any expression. -/
theorem ReadsExpr.parenthesized {cs : List Char} {e : Expr} (h : ReadsExpr cs e) :
    ReadsOperand ('(' :: (cs ++ [')'])) e.inParentheses := by
  obtain ⟨m, h⟩ := h
  refine ⟨m + 1, fun n hn rest hrest => ?_⟩
  obtain ⟨n, rfl⟩ := Nat.exists_eq_add_of_lt hn
  have hread := h (m + n) (by omega) (')' :: rest) (by simp [EndsExpr])
  rw [List.cons_append, List.append_assoc, List.singleton_append]
  refine ⟨word_delimiter_ne_not rfl _, ?_⟩
  rw [readOperand, hread]
  rfl

/-- What starts with a word is a call or the word itself. -/
theorem readOperand_of_word {cs w rest : List Char} (hw : w ≠ []) (n : Nat) :
    word cs = (w, rest) → readOperand (n + 1) cs =
      match rest with
      | '(' :: ')' :: rest => some (call w [], rest)
      | '(' :: rest =>
        match readArguments n rest with
        | some (args, rest) => some (call w args, rest)
        | none => none
      | rest => some (readWord w, rest) := by
  intro hword
  have hhead (c : Char) (tail : List Char) (hc : isWordChar c = false) : cs ≠ c :: tail := by
    rintro rfl
    rw [word_delimiter hc] at hword
    exact hw (congrArg Prod.fst hword).symm
  unfold readOperand
  split
  case h_1 tail => exact absurd rfl (hhead _ tail rfl)
  case h_2 tail => exact absurd rfl (hhead _ tail rfl)
  case h_3 =>
    rw [hword]
    obtain ⟨c, w, rfl⟩ := List.exists_cons_of_ne_nil hw
    rfl

/-- A word that is not continued as a call is read as what it stands for. -/
theorem readsOperand_word {cs : List Char} (hcs : IsWord cs) (hne : cs ≠ [])
    (hnot : cs ≠ "not".toList) : ReadsOperand cs (readWord cs) := by
  refine ⟨1, fun n hn rest hrest => ?_⟩
  obtain ⟨n, rfl⟩ := Nat.exists_eq_add_of_le' hn
  have hword := word_append hcs hrest.isWordChar
  refine ⟨by rwa [hword], ?_⟩
  rw [readOperand_of_word hne n hword]
  cases rest with
  | nil => rfl
  | cons c rest => rcases hrest c rfl with rfl | rfl | rfl <;> rfl

/-- A text in quotes is read as the constant that it is. -/
theorem readsOperand_quoted (s : String) :
    ReadsOperand (literalText (.string s)).toList (constant (.string s)) := by
  refine ⟨1, fun n hn rest hrest => ?_⟩
  obtain ⟨n, rfl⟩ := Nat.exists_eq_add_of_le' hn
  have htext : (literalText (.string s)).toList ++ rest =
      '\x27' :: (doubled s.toList ++ '\x27' :: rest) := by
    simp [literalText, doubled]
  have hend : ∀ c ∈ rest.head?, c ≠ '\x27' := by
    intro c hc
    rcases hrest c hc with rfl | rfl | rfl <;> decide
  rw [htext]
  refine ⟨word_delimiter_ne_not rfl _, ?_⟩
  rw [readOperand, readQuoted_doubled hend, List.reverse_nil, List.nil_append]
  dsimp only
  rw [String.ofList_toList]

/-! ### Calls -/

/-- No expression starts with a closing parenthesis. -/
theorem readArguments_closing (n : Nat) (cs : List Char) : readArguments n (')' :: cs) = none := by
  have hoperand (n : Nat) : readOperand n (')' :: cs) = none := by
    cases n <;> rfl
  have hexpr (n : Nat) : readExpr n (')' :: cs) = none := by
    cases n with
    | zero => rfl
    | succ n =>
        rw [readExpr, if_neg (word_delimiter_ne_not rfl _), hoperand]
  cases n with
  | zero => rfl
  | succ n => rw [readArguments, hexpr]

/-- Arguments are read one after the other. -/
theorem readArguments_joined {texts : List String} {es : List Expr}
    (h : List.Forall₂ (fun s e => ReadsExpr s.toList e) texts es) (hne : texts ≠ []) :
    ∃ m, ∀ n, m ≤ n → ∀ rest,
      readArguments n ((joinTexts ", " texts).toList ++ ')' :: rest) = some (es, rest) := by
  induction h with
  | nil => exact absurd rfl hne
  | @cons s e texts es hhead htail ih =>
      obtain ⟨m, hhead⟩ := hhead
      cases htail with
      | nil =>
          refine ⟨m + 1, fun n hn rest => ?_⟩
          obtain ⟨n, rfl⟩ := Nat.exists_eq_add_of_lt hn
          have hread := hhead (m + n) (by omega) (')' :: rest) (by simp [EndsExpr])
          rw [joinTexts, readArguments, hread]
          rfl
      | @cons t f texts es hnext htail =>
          obtain ⟨k, htail⟩ := ih (List.cons_ne_nil _ _)
          refine ⟨m + k + 1, fun n hn rest => ?_⟩
          obtain ⟨n, rfl⟩ := Nat.exists_eq_add_of_lt hn
          have hread := hhead (m + k + n) (by omega)
            (',' :: ' ' :: ((joinTexts ", " (t :: texts)).toList ++ ')' :: rest))
            (by simp [EndsExpr])
          have htext : (joinTexts ", " (s :: t :: texts)).toList ++ ')' :: rest =
              s.toList ++
                (',' :: ' ' :: ((joinTexts ", " (t :: texts)).toList ++ ')' :: rest)) := by
            simp [joinTexts]
          rw [htext, readArguments, hread]
          simp only [htail (m + k + n) (by omega) rest]

/-- A call is read with its arguments. -/
theorem readsOperand_call {f : String} (hf : IsName f.toList) {texts : List String}
    {es : List Expr} (h : List.Forall₂ (fun s e => ReadsExpr s.toList e) texts es) :
    ReadsOperand (f ++ "(" ++ joinTexts ", " texts ++ ")").toList (call f.toList es) := by
  have htext (rest : List Char) : (f ++ "(" ++ joinTexts ", " texts ++ ")").toList ++ rest =
      f.toList ++ ('(' :: ((joinTexts ", " texts).toList ++ ')' :: rest)) := by
    simp
  have hword (rest : List Char) := word_append_cons hf.isWord (c := '(') rfl
    ((joinTexts ", " texts).toList ++ ')' :: rest)
  have hnot := hf.free "not" (by decide)
  by_cases hne : texts = []
  · subst hne
    cases h
    refine ⟨1, fun n hn rest hrest => ?_⟩
    obtain ⟨n, rfl⟩ := Nat.exists_eq_add_of_le' hn
    rw [htext]
    refine ⟨by rwa [hword], ?_⟩
    rw [readOperand_of_word hf.ne_nil n (hword rest)]
    rfl
  · obtain ⟨m, hread⟩ := readArguments_joined h hne
    refine ⟨m + 1, fun n hn rest hrest => ?_⟩
    obtain ⟨n, rfl⟩ := Nat.exists_eq_add_of_lt hn
    have hread := hread (m + n) (by omega) rest
    rw [htext]
    refine ⟨by rwa [hword], ?_⟩
    rw [readOperand_of_word hf.ne_nil (m + n) (hword rest)]
    generalize (joinTexts ", " texts).toList ++ ')' :: rest = cs at hread
    split
    case h_1 tail heq =>
      cases heq
      rw [readArguments_closing] at hread
      cases hread
    case h_2 tail hother heq =>
      cases heq
      rw [hread]
    case h_3 hother => exact absurd rfl (hother _)

/-! ### Operations -/

theorem isWord_of_mem_infixOperators : ∀ op ∈ infixOperators, IsWord op.toList := by
  decide

/-- An operator stands between its operands. -/
theorem readsExpr_operator {op : String} (hop : op ∈ infixOperators) {ls rs : List Char}
    {left right : Expr} (hleft : ReadsOperand ls left) (hright : ReadsOperand rs right) :
    ReadsExpr (ls ++ ' ' :: (op.toList ++ ' ' :: rs)) (call op.toList [left, right]) := by
  obtain ⟨m, hleft⟩ := hleft
  obtain ⟨k, hright⟩ := hright
  refine ⟨m + k + 1, fun n hn rest hrest => ?_⟩
  obtain ⟨n, rfl⟩ := Nat.exists_eq_add_of_lt hn
  obtain ⟨hnot, hread⟩ := hleft (m + k + n) (by omega)
    (' ' :: (op.toList ++ ' ' :: (rs ++ rest))) (by simp [EndsOperand])
  have hword := word_append_cons (isWord_of_mem_infixOperators op hop) (c := ' ') rfl (rs ++ rest)
  have hlast := (hright (m + k + n) (by omega) rest hrest.endsOperand).2
  have htext : ls ++ ' ' :: (op.toList ++ ' ' :: rs) ++ rest =
      ls ++ ' ' :: (op.toList ++ ' ' :: (rs ++ rest)) := by
    simp
  rw [htext, readExpr, if_neg hnot, hread]
  simp only [hword, hlast]

/-- A negation stands in front of its operand. -/
theorem readsExpr_negation {cs : List Char} {e : Expr} (h : ReadsOperand cs e) :
    ReadsExpr ("not".toList ++ ' ' :: cs) (call "not".toList [e]) := by
  obtain ⟨m, h⟩ := h
  refine ⟨m + 1, fun n hn rest hrest => ?_⟩
  obtain ⟨n, rfl⟩ := Nat.exists_eq_add_of_lt hn
  have hread := (h (m + n) (by omega) rest hrest.endsOperand).2
  have hword := word_append_cons (isWord_of_mem_keywords "not" (by decide)) (c := ' ') rfl
    (cs ++ rest)
  rw [List.append_assoc, List.cons_append, readExpr, hword, if_pos rfl]
  simp only [hread]

/-! ### Parentheses -/

/-- The expression in the parentheses that it was written with. -/
def wrapped (origin : Origin) (e : Expr) : Expr :=
  if origin.parenthesized then e.inParentheses else e

theorem toList_parenthesize (origin : Origin) (body : String) :
    (parenthesize origin body).toList =
      if origin.parenthesized then '(' :: (body.toList ++ [')']) else body.toList := by
  unfold parenthesize
  split
  · simp
  · rfl

theorem ReadsOperand.wrapped {body : String} {e : Expr} (h : ReadsOperand body.toList e)
    (origin : Origin) : ReadsOperand (parenthesize origin body).toList (wrapped origin e) := by
  rw [toList_parenthesize]
  unfold Expr.wrapped
  split
  · exact h.readsExpr.parenthesized
  · exact h

theorem ReadsExpr.wrapped {body : String} {e : Expr} (h : ReadsExpr body.toList e)
    (origin : Origin) :
    ReadsExpr (parenthesize origin body).toList (wrapped origin e) ∧
      (origin.parenthesized = true →
        ReadsOperand (parenthesize origin body).toList (wrapped origin e)) := by
  rw [toList_parenthesize]
  unfold Expr.wrapped
  split
  case isTrue => exact ⟨h.parenthesized.readsExpr, fun _ => h.parenthesized⟩
  case isFalse hbare => exact ⟨h, fun hparens => absurd hparens hbare⟩

end Expr

end LogicalPlan
