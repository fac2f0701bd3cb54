import LogicalPlan.Proofs.Json.Document
import LogicalPlan.Proofs.Json.Token

/-!
# JSON texts tell values apart

The text of a plain value determines the value, whatever follows: its first character tells its
kind, and it ends where its brackets, quotes or digits end.
-/

namespace LogicalPlan

namespace Json

/-! ### Brackets -/

/-- The format separates items by commas, starts lines with blanks only and keeps the order of
members. -/
structure Format.IsLegible (format : Format) : Prop where
  keepsOrder : format.sortKeys = false
  separates : format.itemSeparator.toList.head? = some ','
  indents : ∀ unit ∈ format.indent, ∀ c ∈ unit.toList, isBlank c = true

/-- What stands in front of an item or a closing bracket on a line of its own. -/
def lineStart (format : Format) (depth : ℕ) : List Char :=
  match format.indent with
  | none => []
  | some unit => '\n' :: (List.replicate depth unit).flatMap String.toList

theorem isBlank_lineStart {format : Format} (hformat : format.IsLegible) (depth : ℕ) :
    ∀ c ∈ lineStart format depth, isBlank c = true := by
  intro c hc
  unfold lineStart at hc
  split at hc
  · cases hc
  · rename_i unit hunit
    rcases List.mem_cons.mp hc with rfl | hc
    · rfl
    · obtain ⟨text, htext, hc⟩ := List.mem_flatMap.mp hc
      rw [List.eq_of_mem_replicate htext] at hc
      exact hformat.indents unit hunit c hc

theorem toList_joinTexts (separator text : String) (texts : List String) :
    (joinTexts separator (text :: texts)).toList =
      text.toList ++ texts.flatMap fun u => separator.toList ++ u.toList := by
  induction texts generalizing text with
  | nil => simp [joinTexts]
  | cons next texts ih =>
      rw [joinTexts, String.toList_append, String.toList_append, ih, List.flatMap_cons,
        List.append_assoc, List.append_assoc]

theorem toList_bracket_nil (format : Format) (depth : ℕ) (opening closing : String) :
    (bracket format depth opening closing []).toList = opening.toList ++ closing.toList := by
  exact String.toList_append

theorem toList_bracket_cons (format : Format) (depth : ℕ) (opening closing text : String)
    (texts : List String) :
    (bracket format depth opening closing (text :: texts)).toList =
      opening.toList ++ (lineStart format (depth + 1) ++ (text.toList ++
        (texts.flatMap (fun u => format.itemSeparator.toList ++ lineStart format (depth + 1) ++
          u.toList) ++ (lineStart format depth ++ closing.toList)))) := by
  unfold bracket lineStart
  rw [if_neg (by simp)]
  cases format.indent with
  | none => simp [toList_joinTexts]
  | some unit =>
    have line (n : ℕ) : ("\n" ++ String.join (List.replicate n unit)).toList =
        '\n' :: (List.replicate n unit).flatMap String.toList := by
      rw [String.toList_append, String.toList_join]
      rfl
    simp [toList_joinTexts, -String.toList_join, line]

/-- What follows an item does not go on with the item or with another one. -/
def Closes (cs : List Char) : Prop :=
  Stops cs ∧ cs.head? ≠ some ','

theorem closes_lineStart {format : Format} (hformat : format.IsLegible) (depth : ℕ) {c : Char}
    (hc : c = ']' ∨ c = '\x7d') (rest : List Char) :
    Closes (lineStart format depth ++ c :: rest) := by
  have blank := isBlank_lineStart hformat depth
  cases hline : lineStart format depth with
  | nil => rcases hc with rfl | rfl <;> exact ⟨by rintro _ ⟨⟩; rfl, by simp⟩
  | cons d ds =>
      rw [hline] at blank
      have hd := blank d List.mem_cons_self
      simp only [isBlank, Bool.or_eq_true, beq_iff_eq] at hd
      rcases hd with ((rfl | rfl) | rfl) | rfl <;> exact ⟨by rintro _ ⟨⟩; rfl, by simp⟩

section Items

variable {α : Type} {R : α → String → Prop}

/-- No text of anything else can be taken for the text of the item, whatever follows. -/
def Unambiguous (R : α → String → Prop) (x : α) : Prop :=
  ∀ ⦃y : α⦄ ⦃t u : String⦄ ⦃r s : List Char⦄, R x t → R y u → Stops r → Stops s →
    t.toList ++ r = u.toList ++ s → x = y ∧ r = s

theorem stops_items {separator r : List Char} (hseparator : separator.head? = some ',')
    (hr : Closes r) (ts : List String) : Stops (ts.flatMap (separator ++ ·.toList) ++ r) := by
  obtain ⟨cs, rfl⟩ := List.head?_eq_some_iff.mp hseparator
  cases ts with
  | nil => exact hr.1
  | cons t ts =>
      rintro _ ⟨⟩
      rfl

/-- Items behind separators are told apart one by one. -/
theorem separated_unambiguous {separator : List Char} (hseparator : separator.head? = some ',')
    {xs ys : List α} {ts us : List String} (hx : List.Forall₂ R xs ts) (hy : List.Forall₂ R ys us)
    (hitems : ∀ x ∈ xs, Unambiguous R x) {r s : List Char} (hr : Closes r) (hs : Closes s)
    (h : ts.flatMap (separator ++ ·.toList) ++ r = us.flatMap (separator ++ ·.toList) ++ s) :
    xs = ys ∧ r = s := by
  have comma {u : String} (us : List String) (s : List Char) :
      ((u :: us).flatMap (separator ++ ·.toList) ++ s).head? = some ',' := by
    simp [hseparator]
  induction hx generalizing ys us with
  | nil =>
      cases hy with
      | nil => exact ⟨rfl, h⟩
      | cons =>
          rw [List.flatMap_nil, List.nil_append] at h
          exact absurd (h ▸ comma _ _) hr.2
  | cons hxt hrest ih =>
      cases hy with
      | nil =>
          rw [List.flatMap_nil, List.nil_append] at h
          exact absurd (h ▸ comma _ _) hs.2
      | cons hyu hrest' =>
          simp only [List.flatMap_cons, List.append_assoc, List.append_cancel_left_eq] at h
          obtain ⟨rfl, h⟩ := hitems _ List.mem_cons_self hxt hyu
            (by simpa using stops_items hseparator hr _)
            (by simpa using stops_items hseparator hs _) h
          obtain ⟨rfl, rfl⟩ := ih hrest' (fun x hx => hitems x (List.mem_cons_of_mem _ hx))
            (by simpa using h)
          exact ⟨rfl, rfl⟩

/-- Bracketed items are told apart if the items are and none starts with the closing bracket. -/
theorem bracket_unambiguous {format : Format} (hformat : format.IsLegible) (depth : ℕ)
    {opening closing : String} {c : Char} (hclosing : closing.toList = [c])
    (hc : c = ']' ∨ c = '\x7d') (hhead : ∀ x t, R x t → ∃ d ds, t.toList = d :: ds ∧ d ≠ c)
    {xs ys : List α} {ts us : List String} (hx : List.Forall₂ R xs ts) (hy : List.Forall₂ R ys us)
    (hitems : ∀ x ∈ xs, Unambiguous R x) {r s : List Char}
    (h : (bracket format depth opening closing ts).toList ++ r =
      (bracket format depth opening closing us).toList ++ s) : xs = ys ∧ r = s := by
  have separator :
      (format.itemSeparator.toList ++ lineStart format (depth + 1)).head? = some ',' := by
    simp [hformat.separates]
  have closes (rest : List Char) : Closes (lineStart format depth ++ c :: rest) :=
    closes_lineStart hformat depth hc rest
  -- A first item is not taken for the closing bracket, even where items start on the same line.
  have first {x : α} {t : String} (hxt : R x t) (rest : List Char) :
      (lineStart format (depth + 1) ++ (t.toList ++ rest)).head? ≠ some c := by
    have blank := isBlank_lineStart hformat (depth + 1)
    cases hline : lineStart format (depth + 1) with
    | nil =>
        obtain ⟨d, ds, ht, hne⟩ := hhead x t hxt
        simpa [ht] using hne
    | cons d ds =>
        rw [hline] at blank
        intro heq
        cases heq
        have := blank c List.mem_cons_self
        rcases hc with rfl | rfl <;> cases this
  cases hx with
  | nil =>
      cases hy with
      | nil =>
          exact ⟨rfl, List.append_cancel_left h⟩
      | cons hyu hrest =>
          rw [toList_bracket_nil, toList_bracket_cons, hclosing] at h
          simp only [List.append_assoc, List.append_cancel_left_eq] at h
          exact absurd (congrArg List.head? h).symm (first hyu _)
  | cons hxt hrest =>
      cases hy with
      | nil =>
          rw [toList_bracket_nil, toList_bracket_cons, hclosing] at h
          simp only [List.append_assoc, List.append_cancel_left_eq] at h
          exact absurd (congrArg List.head? h) (first hxt _)
      | cons hyu hrest' =>
          rw [toList_bracket_cons, toList_bracket_cons, hclosing] at h
          simp only [List.append_assoc, List.append_cancel_left_eq] at h
          obtain ⟨rfl, h⟩ := hitems _ List.mem_cons_self hxt hyu
            (by simpa using stops_items separator (closes r) _)
            (by simpa using stops_items separator (closes s) _) h
          obtain ⟨rfl, h⟩ := separated_unambiguous separator hrest hrest'
            (fun x hx => hitems x (List.mem_cons_of_mem _ hx)) (closes r) (closes s)
            (by simpa using h)
          exact ⟨rfl, by simpa using h⟩

end Items

/-! ### Values -/

/-- The text is what is written for the plain value. -/
def Spells (format : Format) (depth : ℕ) (v : Value) (text : String) : Prop :=
  v.isPlain = true ∧ write? format depth v = some text

/-- The text is what is written for the member with a text as its key. -/
def SpellsMember (format : Format) (depth : ℕ) (m : Value × Value) (text : String) : Prop :=
  ∃ key value, m.1 = .string key ∧ Spells format depth m.2 value ∧
    text = quote format.asciiOnly key ++ format.keySeparator ++ value

section Spelling

variable {format : Format} {depth : ℕ}

theorem spells_items {items : List Value} {texts : List String}
    (hplain : Value.arePlain items = true) (h : writeItems? format depth items = some texts) :
    List.Forall₂ (Spells format depth) items texts := by
  induction items generalizing texts with
  | nil =>
      cases h
      exact .nil
  | cons v vs ih =>
      rw [Value.arePlain, Bool.and_eq_true] at hplain
      simp only [writeItems?, Option.bind_eq_bind, Option.bind_eq_some_iff, Option.some.injEq] at h
      obtain ⟨text, htext, rest, hrest, rfl⟩ := h
      exact .cons ⟨hplain.1, htext⟩ (ih hplain.2 hrest)

/-- The keys of plain members are written as they are. -/
theorem spells_members {members : Members} {entries : List (Value × String)}
    (hplain : Value.arePlainMembers members = true)
    (h : writeMembers? format depth members = some entries) :
    ∃ texts, (entries.mapM fun m => (keyText? m.1).map fun key =>
        quote format.asciiOnly key ++ format.keySeparator ++ m.2) = some texts ∧
      List.Forall₂ (SpellsMember format depth) members texts := by
  induction members generalizing entries with
  | nil =>
      cases h
      exact ⟨[], rfl, .nil⟩
  | cons m ms ih =>
      obtain ⟨k, v⟩ := m
      rw [Value.arePlainMembers, Bool.and_eq_true, Bool.and_eq_true] at hplain
      simp only [writeMembers?, Option.bind_eq_bind, Option.bind_eq_some_iff,
        Option.some.injEq] at h
      obtain ⟨text, htext, rest, hrest, rfl⟩ := h
      obtain ⟨texts, hmapped, hspelled⟩ := ih hplain.2 hrest
      obtain ⟨key, rfl⟩ : ∃ key, k = .string key := by
        cases k <;> simp_all [textKey?]
      refine ⟨_ :: texts, ?_, .cons ⟨key, text, rfl, ⟨hplain.1.2, htext⟩, rfl⟩ hspelled⟩
      rw [List.mapM_cons, hmapped]
      rfl

theorem spells_list {items : List Value} {text : String}
    (h : Spells format depth (.list items) text) :
    ∃ texts, List.Forall₂ (Spells format (depth + 1)) items texts ∧
      text = bracket format depth "[" "]" texts := by
  obtain ⟨hplain, h⟩ := h
  simp only [write?, Option.map_eq_some_iff] at h
  obtain ⟨texts, htexts, rfl⟩ := h
  exact ⟨texts, spells_items hplain htexts, rfl⟩

theorem spells_object (horder : format.sortKeys = false) {members : Members} {text : String}
    (h : Spells format depth (.object members) text) :
    ∃ texts, List.Forall₂ (SpellsMember format (depth + 1)) members texts ∧
      text = bracket format depth "\x7b" "\x7d" texts := by
  obtain ⟨hplain, h⟩ := h
  simp only [write?, Option.bind_eq_some_iff] at h
  obtain ⟨entries, hentries, h⟩ := h
  obtain ⟨texts, hmapped, hspelled⟩ := spells_members hplain hentries
  simp only [writeEntries?, horder, Bool.false_eq_true, if_false, Option.bind_eq_bind,
    Option.bind_some, hmapped, Option.some.injEq] at h
  exact ⟨texts, hspelled, h.symm⟩

end Spelling

/-! ### The first character -/

/-- All characters that numbers start with, as one. -/
def initialOf (c : Char) : Char :=
  if Decimal.isNumberChar c then '0' else c

/-- What the text of a plain value starts with. -/
def opener : Value → Char
  | .null => 'n'
  | .bool b => if b then 't' else 'f'
  | .int _ | .float _ => '0'
  | .string _ => Quoted.doubleQuote
  | .list _ => '['
  | .object _ => '\x7b'
  | _ => ' '

theorem head_bracket (format : Format) (depth : ℕ) (opening closing : String)
    (items : List String) :
    ∃ rest, (bracket format depth opening closing items).toList = opening.toList ++ rest := by
  cases items with
  | nil => exact ⟨_, toList_bracket_nil _ _ _ _⟩
  | cons text texts => exact ⟨_, toList_bracket_cons _ _ _ _ _ _⟩

theorem head_number {text : String} (hne : text.toList ≠ [])
    (h : ∀ c ∈ text.toList, Decimal.isNumberChar c = true) :
    ∃ c cs, text.toList = c :: cs ∧ initialOf c = '0' := by
  obtain ⟨c, cs, hcs⟩ := List.exists_cons_of_ne_nil hne
  rw [hcs] at h
  exact ⟨c, cs, hcs, if_pos (h c List.mem_cons_self)⟩

/-- The first character of a text tells the kind of the value, numbers being of one kind. -/
theorem spells_opener {format : Format} (horder : format.sortKeys = false) {depth : ℕ} {v : Value}
    {text : String} (h : Spells format depth v text) :
    ∃ c cs, text.toList = c :: cs ∧ initialOf c = opener v := by
  obtain ⟨hplain, h⟩ := h
  cases v with
  | null =>
      cases h
      exact ⟨_, _, rfl, rfl⟩
  | bool b =>
      cases h
      cases b <;> exact ⟨_, _, rfl, rfl⟩
  | int i =>
      cases h
      refine head_number ?_ fun c hc => (char_toString_int i c hc).1
      rw [toList_toString_int]
      exact List.append_ne_nil_of_right_ne_nil _ (Double.toList_toString_ne_nil _)
  | float x =>
      cases h
      obtain ⟨hchars, c, hc, -⟩ := char_toText x
      exact head_number (List.ne_nil_of_mem hc) hchars
  | string s =>
      cases h
      exact ⟨_, _, String.toList_ofList, rfl⟩
  | list items =>
      obtain ⟨texts, -, rfl⟩ := spells_list ⟨hplain, h⟩
      obtain ⟨rest, hrest⟩ := head_bracket format depth "[" "]" texts
      exact ⟨_, _, hrest, rfl⟩
  | object members =>
      obtain ⟨texts, -, rfl⟩ := spells_object horder ⟨hplain, h⟩
      obtain ⟨rest, hrest⟩ := head_bracket format depth "\x7b" "\x7d" texts
      exact ⟨_, _, hrest, rfl⟩
  | bytes | date | time | instant | tuple | set | record => cases hplain

/-- No text starts with a closing bracket. -/
theorem spells_ne_closing {format : Format} (horder : format.sortKeys = false) {depth : ℕ}
    {v : Value} {text : String} {c : Char} (hc : c = ']' ∨ c = '\x7d')
    (h : Spells format depth v text) : ∃ d ds, text.toList = d :: ds ∧ d ≠ c := by
  obtain ⟨d, ds, htext, hd⟩ := spells_opener horder h
  refine ⟨d, ds, htext, ?_⟩
  rintro rfl
  have initial : initialOf d = d := by rcases hc with rfl | rfl <;> rfl
  have opening : opener v ≠ d := by
    cases v with
    | bool b => cases b <;> rcases hc with rfl | rfl <;> decide
    | _ => rcases hc with rfl | rfl <;> simp [opener, Quoted.doubleQuote]
  exact opening (hd ▸ initial)

/-! ### Every value is told apart -/

section Kinds

variable {w : Value}

theorem eq_null (h : opener w = 'n') : w = .null := by
  cases w with
  | null => rfl
  | bool b => cases b <;> cases h
  | _ => cases h

theorem eq_bool {b : Bool} (h : opener w = if b then 't' else 'f') : w = .bool b := by
  cases w with
  | bool c => cases b <;> cases c <;> first | rfl | cases h
  | _ => cases b <;> cases h

theorem eq_number (h : opener w = '0') : (∃ i, w = .int i) ∨ ∃ x, w = .float x := by
  cases w with
  | int i => exact .inl ⟨i, rfl⟩
  | float x => exact .inr ⟨x, rfl⟩
  | bool b => cases b <;> cases h
  | _ => cases h

theorem eq_string (h : opener w = Quoted.doubleQuote) : ∃ s, w = .string s := by
  cases w with
  | string s => exact ⟨s, rfl⟩
  | bool b => cases b <;> cases h
  | _ => cases h

theorem eq_list (h : opener w = '[') : ∃ items, w = .list items := by
  cases w with
  | list items => exact ⟨items, rfl⟩
  | bool b => cases b <;> cases h
  | _ => cases h

theorem eq_object (h : opener w = '\x7b') : ∃ members, w = .object members := by
  cases w with
  | object members => exact ⟨members, rfl⟩
  | bool b => cases b <;> cases h
  | _ => cases h

end Kinds

/-- The first characters of texts that agree with what follows them tell kinds that agree. -/
theorem opener_eq {format : Format} (horder : format.sortKeys = false) {depth : ℕ} {v w : Value}
    {t u : String} {r s : List Char} (hv : Spells format depth v t) (hw : Spells format depth w u)
    (h : t.toList ++ r = u.toList ++ s) : opener w = opener v := by
  obtain ⟨c, cs, ht, hc⟩ := spells_opener horder hv
  obtain ⟨d, ds, hu, hd⟩ := spells_opener horder hw
  rw [ht, hu] at h
  rw [← hc, ← hd, (List.cons.inj h).1]

/-- An integer has neither a point nor an exponent, any other number has one of them. -/
theorem int_unambiguous {format : Format} (horder : format.sortKeys = false) (depth : ℕ) (i : ℤ) :
    Unambiguous (Spells format depth) (.int i) := by
  intro w t u r s ht hu hr hs h
  have kind := eq_number (opener_eq horder ht hu h)
  cases ht.2
  rcases kind with ⟨j, rfl⟩ | ⟨y, rfl⟩
  · cases hu.2
    obtain ⟨htext, rfl⟩ := eq_of_numberChars (fun c hc => (char_toString_int i c hc).1)
      (fun c hc => (char_toString_int j c hc).1) hr hs h
    obtain rfl := toString_int_injective (String.toList_inj.mp htext)
    exact ⟨rfl, rfl⟩
  · -- The digits end where the number does, so a point or an exponent would be in both texts.
    cases hu.2
    obtain ⟨hchars, c, hc, hmark⟩ := char_toText y
    obtain ⟨htext, -⟩ := eq_of_numberChars (fun c hc => (char_toString_int i c hc).1) hchars hr hs h
    obtain ⟨-, hpoint, hexponent⟩ := char_toString_int i c (htext ▸ hc)
    rcases hmark with rfl | rfl <;> contradiction

theorem float_unambiguous {format : Format} (horder : format.sortKeys = false) (depth : ℕ)
    (x : Double) : Unambiguous (Spells format depth) (.float x) := by
  intro w t u r s ht hu hr hs h
  have kind := eq_number (opener_eq horder ht hu h)
  rcases kind with ⟨j, rfl⟩ | ⟨y, rfl⟩
  · obtain ⟨heq, -⟩ := int_unambiguous horder depth j hu ht hs hr h.symm
    cases heq
  · cases ht.2
    cases hu.2
    obtain ⟨htext, rfl⟩ := eq_of_numberChars (char_toText x).1 (char_toText y).1 hr hs h
    obtain rfl := Double.toText_injective (String.toList_inj.mp htext)
    exact ⟨rfl, rfl⟩

/-- A member is told apart by its key, which ends at its closing quote, and by its value. -/
theorem member_unambiguous {format : Format} {depth : ℕ} {k v : Value}
    (hv : Unambiguous (Spells format depth) v) :
    Unambiguous (SpellsMember format depth) (k, v) := by
  rintro ⟨l, w⟩ t u r s ⟨key, value, rfl, hvalue, rfl⟩ ⟨key', value', rfl, hvalue', rfl⟩ hr hs h
  simp only [String.toList_append, List.append_assoc] at h
  obtain ⟨rfl, hrest⟩ := quote_unambiguous h
  obtain ⟨rfl, rfl⟩ := hv hvalue hvalue' hr hs (List.append_cancel_left hrest)
  exact ⟨rfl, rfl⟩

/-- No member starts with a closing bracket. -/
theorem spellsMember_ne_closing {format : Format} {depth : ℕ} {m : Value × Value} {text : String}
    (h : SpellsMember format depth m text) : ∃ d ds, text.toList = d :: ds ∧ d ≠ '\x7d' := by
  obtain ⟨key, value, -, -, rfl⟩ := h
  simp [quote, Quoted.doubleQuote]

mutual

/-- The text of a plain value tells the value, whatever follows. -/
theorem spells_unambiguous {format : Format} (hformat : format.IsLegible) :
    ∀ (v : Value) (depth : ℕ), Unambiguous (Spells format depth) v
  | .null, depth => fun w t u r s ht hu _ _ h => by
      obtain rfl := eq_null (opener_eq hformat.keepsOrder ht hu h)
      cases ht.2
      cases hu.2
      exact ⟨rfl, List.append_cancel_left h⟩
  | .bool b, depth => fun w t u r s ht hu _ _ h => by
      obtain rfl := eq_bool (opener_eq hformat.keepsOrder ht hu h)
      cases ht.2
      cases hu.2
      exact ⟨rfl, List.append_cancel_left h⟩
  | .int i, depth => int_unambiguous hformat.keepsOrder depth i
  | .float x, depth => float_unambiguous hformat.keepsOrder depth x
  | .string a, depth => fun w t u r s ht hu _ _ h => by
      obtain ⟨b, rfl⟩ := eq_string (opener_eq hformat.keepsOrder ht hu h)
      cases ht.2
      cases hu.2
      obtain ⟨rfl, rest⟩ := quote_unambiguous h
      exact ⟨rfl, rest⟩
  | .list items, depth => fun w t u r s ht hu _ _ h => by
      obtain ⟨others, rfl⟩ := eq_list (opener_eq hformat.keepsOrder ht hu h)
      obtain ⟨texts, htexts, rfl⟩ := spells_list ht
      obtain ⟨texts', htexts', rfl⟩ := spells_list hu
      obtain ⟨rfl, rest⟩ := bracket_unambiguous hformat depth rfl (.inl rfl)
        (fun _ _ => spells_ne_closing hformat.keepsOrder (.inl rfl)) htexts htexts'
        (items_unambiguous hformat items (depth + 1)) h
      exact ⟨rfl, rest⟩
  | .object members, depth => fun w t u r s ht hu _ _ h => by
      obtain ⟨others, rfl⟩ := eq_object (opener_eq hformat.keepsOrder ht hu h)
      obtain ⟨texts, htexts, rfl⟩ := spells_object hformat.keepsOrder ht
      obtain ⟨texts', htexts', rfl⟩ := spells_object hformat.keepsOrder hu
      obtain ⟨rfl, rest⟩ := bracket_unambiguous hformat depth rfl (.inr rfl)
        (fun _ _ => spellsMember_ne_closing) htexts htexts'
        (members_unambiguous hformat members (depth + 1)) h
      exact ⟨rfl, rest⟩
  | .bytes _, _ | .date _, _ | .time _, _ | .instant _ _, _ | .tuple _, _ | .set _, _
  | .record _ _ _ _ _, _ => fun _ _ _ _ _ ht => absurd ht.1 (by simp [Value.isPlain])

theorem items_unambiguous {format : Format} (hformat : format.IsLegible) :
    ∀ (items : List Value) (depth : ℕ), ∀ v ∈ items, Unambiguous (Spells format depth) v
  | [], _ => by simp
  | v :: vs, depth => List.forall_mem_cons.mpr
      ⟨spells_unambiguous hformat v depth, items_unambiguous hformat vs depth⟩

theorem members_unambiguous {format : Format} (hformat : format.IsLegible) :
    ∀ (members : List (Value × Value)) (depth : ℕ), ∀ m ∈ members,
      Unambiguous (SpellsMember format depth) m
  | [], _ => by simp
  | (k, v) :: ms, depth => List.forall_mem_cons.mpr
      ⟨member_unambiguous (spells_unambiguous hformat v depth),
        members_unambiguous hformat ms depth⟩

end

/-! ### Plain values have texts -/

mutual

theorem exists_write? {format : Format} (horder : format.sortKeys = false) :
    ∀ (v : Value) (depth : ℕ), v.isPlain = true → ∃ text, write? format depth v = some text
  | .null, _, _ | .bool _, _, _ | .int _, _, _ | .float _, _, _ | .string _, _, _ => ⟨_, rfl⟩
  | .list items, depth, h => by
      obtain ⟨texts, htexts⟩ := exists_writeItems? horder items (depth + 1) h
      exact ⟨_, by rw [write?, htexts, Option.map_some]⟩
  | .object members, depth, h => by
      obtain ⟨entries, hentries⟩ := exists_writeMembers? horder members (depth + 1) h
      obtain ⟨texts, hmapped, -⟩ := spells_members h hentries
      refine ⟨bracket format depth "\x7b" "\x7d" texts, ?_⟩
      simp only [write?, hentries, Option.bind_some, writeEntries?, horder, Bool.false_eq_true,
        if_false, Option.bind_eq_bind, hmapped]

theorem exists_writeItems? {format : Format} (horder : format.sortKeys = false) :
    ∀ (items : List Value) (depth : ℕ), Value.arePlain items = true →
      ∃ texts, writeItems? format depth items = some texts
  | [], _, _ => ⟨_, rfl⟩
  | v :: vs, depth, h => by
      rw [Value.arePlain, Bool.and_eq_true] at h
      obtain ⟨text, htext⟩ := exists_write? horder v depth h.1
      obtain ⟨texts, htexts⟩ := exists_writeItems? horder vs depth h.2
      exact ⟨text :: texts, by
        simp only [writeItems?, htext, htexts, Option.bind_eq_bind, Option.bind_some]⟩

theorem exists_writeMembers? {format : Format} (horder : format.sortKeys = false) :
    ∀ (members : List (Value × Value)) (depth : ℕ), Value.arePlainMembers members = true →
      ∃ entries, writeMembers? format depth members = some entries
  | [], _, _ => ⟨_, rfl⟩
  | (k, v) :: ms, depth, h => by
      rw [Value.arePlainMembers, Bool.and_eq_true, Bool.and_eq_true] at h
      obtain ⟨text, htext⟩ := exists_write? horder v depth h.1.2
      obtain ⟨entries, hentries⟩ := exists_writeMembers? horder ms depth h.2
      exact ⟨(k, text) :: entries, by
        simp only [writeMembers?, htext, hentries, Option.bind_eq_bind, Option.bind_some]⟩

end

/-- Plain values with the same text are the same. -/
theorem eq_of_write? {format : Format} (hformat : format.IsLegible) {depth : ℕ} {v w : Value}
    (hv : v.isPlain = true) (hw : w.isPlain = true)
    (h : write? format depth v = write? format depth w) : v = w := by
  obtain ⟨text, htext⟩ := exists_write? hformat.keepsOrder v depth hv
  have stops : Stops [] := by rintro _ ⟨⟩
  exact (spells_unambiguous hformat v depth ⟨hv, htext⟩ ⟨hw, h ▸ htext⟩ stops stops rfl).1

end Json

end LogicalPlan
