import LogicalPlan.Proofs.Expr.Reading
import LogicalPlan.Proofs.Outcome

/-!
# Legible expressions

An expression is legible if its names are plain words and its operands that are operations
themselves are in parentheses. The text of a legible expression tells the expression, up to types
and positions.

## Implementation notes

What is read from a text has neither types nor positions; it is the skeleton of the expression. The
text of a legible expression is read as its skeleton, by induction on the expression, and nothing
can be read in two ways.
-/

namespace LogicalPlan

namespace Expr

/-! ### Skeletons -/

mutual

/-- The expression without types and positions. -/
def skeleton : Expr → Expr
  | .column origin c => .column { parenthesized := origin.parenthesized } c
  | .apply origin _ func args =>
    .apply { parenthesized := origin.parenthesized } .null func (skeletonArguments args)

/-- The arguments without types and positions. -/
def skeletonArguments : List Argument → List Argument
  | [] => []
  | .literal v :: as => .literal v :: skeletonArguments as
  | .nested e :: as => .nested (skeleton e) :: skeletonArguments as

end

theorem skeletonArguments_map (es : List Expr) :
    skeletonArguments (es.map .nested) = (es.map skeleton).map .nested := by
  induction es with
  | nil => rfl
  | cons e es ih => rw [List.map_cons, skeletonArguments, ih, List.map_cons, List.map_cons]

theorem skeleton_column (origin : Origin) (c : Column) :
    (column origin c).skeleton = wrapped origin (.column {} c) := by
  unfold skeleton wrapped
  cases origin.parenthesized <;> rfl

theorem skeleton_apply (origin : Origin) (datatype func : Value) (args : List Argument) :
    (apply origin datatype func args).skeleton =
      wrapped origin (.apply {} .null func (skeletonArguments args)) := by
  unfold skeleton wrapped
  cases origin.parenthesized <;> rfl

theorem length_skeletonArguments (as : List Argument) :
    (skeletonArguments as).length = as.length := by
  induction as with
  | nil => rfl
  | cons a as ih =>
      cases a <;> simp only [skeletonArguments, List.length_cons, ih]

mutual

/-- Types and positions do not appear in a text. -/
theorem text_skeleton : ∀ e : Expr, e.skeleton.text = e.text
  | .column _ _ => rfl
  | .apply _ _ _ args => by
      rw [skeleton, text, text, argumentTexts_skeleton args, operandTexts_skeleton args,
        length_skeletonArguments]
      rfl

theorem argumentTexts_skeleton :
    ∀ as : List Argument, argumentTexts (skeletonArguments as) = argumentTexts as
  | [] => rfl
  | .literal _ :: as => by
      rw [skeletonArguments, argumentTexts, argumentTexts, argumentTexts_skeleton as]
  | .nested e :: as => by
      rw [skeletonArguments, argumentTexts, argumentTexts, argumentTexts_skeleton as,
        argumentText, argumentText, text_skeleton e]

theorem operandTexts_skeleton :
    ∀ as : List Argument, operandTexts (skeletonArguments as) = operandTexts as
  | [] => rfl
  | .literal _ :: as => by
      rw [skeletonArguments, operandTexts, operandTexts, operandTexts_skeleton as]
  | .nested e :: as => by
      rw [skeletonArguments, operandTexts, operandTexts, operandTexts_skeleton as,
        operandText, operandText, text_skeleton e]

end

/-! ### Legible expressions -/

/-- The expression is an operation that is written without the parentheses of a call. -/
def isOperation : Expr → Bool
  | .column _ _ => false
  | .apply _ _ func args =>
    isInfix func && args.length == 2 || func == .string "not" && args.length == 1

/-- The expression can stand as an operand: an operation has to be in parentheses. -/
def IsOperand (e : Expr) : Prop :=
  e.isOperation = true → e.origin.parenthesized = true

/-- The expression is built from columns, single literals, operations and calls. Names are
identifiers, and operations in the place of operands are in parentheses. What applies the function
`constant` is a constant and not a call, and it has one literal. -/
inductive IsLegible : Expr → Prop
  | column (origin : Origin) {name relAlias : Value} (hname : isColumnName name = true)
      (halias : isQualifier relAlias = true) : IsLegible (.column origin ⟨name, relAlias⟩)
  | constant (origin : Origin) (datatype : Value) {v : Value} (hv : isLiteral v = true) :
      IsLegible (.apply origin datatype constantName [.literal v])
  | operator (origin : Origin) (datatype : Value) {op : String} {left right : Expr}
      (hop : op ∈ infixOperators) (hleft : IsLegible left) (hright : IsLegible right)
      (leftOperand : left.IsOperand) (rightOperand : right.IsOperand) :
      IsLegible (.apply origin datatype (.string op) [.nested left, .nested right])
  | negation (origin : Origin) (datatype : Value) {e : Expr} (he : IsLegible e)
      (operand : e.IsOperand) : IsLegible (.apply origin datatype (.string "not") [.nested e])
  | call (origin : Origin) (datatype : Value) {f : String} {args : List Expr}
      (hf : isIdentifier f = true) (hcalled : f ≠ "constant") (hargs : ∀ e ∈ args, IsLegible e) :
      IsLegible (.apply origin datatype (.string f) (args.map .nested))

/-! ### Texts -/

section Text

variable {origin : Origin} {datatype : Value}

theorem text_constant (v : Value) :
    (apply origin datatype constantName [.literal v]).text =
      .ok (parenthesize origin (literalText v)) := by
  rw [text, if_pos rfl]
  rfl

theorem text_operator {op ls rs : String} (hop : op ∈ infixOperators) {left right : Expr}
    (hleft : left.text = .ok ls) (hright : right.text = .ok rs) :
    (apply origin datatype (.string op) [.nested left, .nested right]).text =
      .ok (parenthesize origin (ls ++ (" " ++ op ++ " ") ++ rs)) := by
  have hconstant : Value.string op ≠ constantName := by
    revert op
    decide
  have between : isInfix (.string op) = true := List.elem_eq_true_of_mem hop
  rw [text, if_neg hconstant, if_neg (by simp [Value.isHashable]), if_pos (by simp [between])]
  simp only [operandTexts, operandText, hleft, hright, Outcome.ok_bind]
  rfl

theorem text_negation {s : String} {e : Expr} (he : e.text = .ok s) :
    (apply origin datatype (.string "not") [.nested e]).text =
      .ok (parenthesize origin ("not " ++ s)) := by
  rw [text, if_neg (by decide), if_neg (by simp [Value.isHashable]), if_neg (by simp),
    if_pos ⟨rfl, rfl⟩]
  simp only [operandTexts, operandText, he, Outcome.ok_bind]
  rfl

theorem text_call {f : String} (hf : isIdentifier f = true) (hcalled : f ≠ "constant")
    {args : List Argument} {texts : List String} (htexts : argumentTexts args = .ok texts) :
    (apply origin datatype (.string f) args).text =
      .ok (parenthesize origin (f ++ "(" ++ joinTexts ", " texts ++ ")")) := by
  have hname := not_mem_of_isIdentifier hf
  have hconstant : Value.string f ≠ constantName := fun h => hcalled (Value.string.inj h)
  have between : isInfix (.string f) = false :=
    Bool.eq_false_iff.mpr fun h => hname (List.mem_append_left _ (List.elem_iff.mp h))
  have hnot : Value.string f ≠ .string "not" := by
    intro h
    cases h
    exact hname (by decide)
  rw [text, if_neg hconstant, if_neg (by simp [Value.isHashable]), between, Bool.false_and,
    if_neg Bool.false_ne_true, if_neg (fun h => hnot h.1), htexts]
  rfl

end Text

/-! ### Unique reading -/

/-- A literal is read as the constant that it is. -/
theorem readsOperand_literal {v : Value} (hv : isLiteral v = true) :
    ReadsOperand (literalText v).toList (constant v) := by
  have keyword (k : String) (hk : k ∈ keywords) (hne : k.toList ≠ [])
      (hnot : k.toList ≠ "not".toList) : ReadsOperand k.toList (readWord k.toList) :=
    readsOperand_word (isWord_of_mem_keywords k hk) hne hnot
  cases v with
  | null => exact keyword "null" (by decide) (by decide) (by decide)
  | bool b =>
      cases b with
      | false => exact keyword "false" (by decide) (by decide) (by decide)
      | true => exact keyword "true" (by decide) (by decide) (by decide)
  | int i =>
      have hnumber := startsNumber_toString i
      have hne (k : List Char) (hk : startsNumber k = false) : (toString i).toList ≠ k := by
        rintro rfl
        rw [hk] at hnumber
        cases hnumber
      have hread : readWord (toString i).toList = constant (.int i) := by
        unfold readWord
        rw [if_neg (hne _ rfl), if_neg (hne _ rfl), if_neg (hne _ rfl), if_pos hnumber,
          readInt_toString]
      have hword := readsOperand_word (isWord_toString i) (hne [] rfl) (hne _ rfl)
      rwa [hread] at hword
  | string s => exact readsOperand_quoted s
  | _ => cases hv

theorem readsOperand_column {name relAlias : Value} (hname : isColumnName name = true)
    (halias : isQualifier relAlias = true) :
    ReadsOperand (Column.text ⟨name, relAlias⟩).toList (.column {} ⟨name, relAlias⟩) := by
  obtain ⟨hword, hread⟩ := readColumn_text hname halias
  have hoperand := readsOperand_word hword.isWord hword.ne_nil (hword.free _ (by decide))
  rwa [readWord_of_isName hword, hread] at hoperand

theorem exists_argumentTexts {es : List Expr}
    (h : ∀ e ∈ es, ∃ s, e.text = .ok s ∧ ReadsExpr s.toList e.skeleton) :
    ∃ texts, argumentTexts (es.map .nested) = .ok texts ∧
      List.Forall₂ (fun s e => ReadsExpr s.toList e) texts (es.map skeleton) := by
  induction es with
  | nil => exact ⟨[], rfl, .nil⟩
  | cons e es ih =>
      obtain ⟨⟨s, hs, hread⟩, hrest⟩ := List.forall_mem_cons.mp h
      obtain ⟨texts, htexts, hreads⟩ := ih hrest
      refine ⟨s :: texts, ?_, .cons hread hreads⟩
      rw [List.map_cons, argumentTexts, argumentText, hs, htexts]
      rfl

/-- A legible expression has a text, and what is read from the text is its skeleton. -/
theorem IsLegible.exists_text {e : Expr} (h : e.IsLegible) :
    ∃ s, e.text = .ok s ∧ ReadsExpr s.toList e.skeleton ∧
      (e.IsOperand → ReadsOperand s.toList e.skeleton) := by
  induction h with
  | column origin hname halias =>
      have hread := (readsOperand_column hname halias).wrapped origin
      rw [skeleton_column]
      exact ⟨_, rfl, hread.readsExpr, fun _ => hread⟩
  | constant origin datatype hv =>
      have hread := (readsOperand_literal hv).wrapped origin
      rw [skeleton_apply]
      exact ⟨_, text_constant _, hread.readsExpr, fun _ => hread⟩
  | @operator origin datatype op left right hop hleft hright leftOperand rightOperand ihl ihr =>
      obtain ⟨ls, hls, -, hleft⟩ := ihl
      obtain ⟨rs, hrs, -, hright⟩ := ihr
      have hchars : (ls ++ (" " ++ op ++ " ") ++ rs).toList =
          ls.toList ++ ' ' :: (op.toList ++ ' ' :: rs.toList) := by
        simp
      have hread := readsExpr_operator hop (hleft leftOperand) (hright rightOperand)
      rw [← hchars, Expr.call, String.ofList_toList] at hread
      obtain ⟨hexpr, hoperand⟩ := hread.wrapped origin
      have hoperation : (apply origin datatype (.string op)
          [.nested left, .nested right]).isOperation = true := by
        simp [isOperation, isInfix, hop]
      rw [skeleton_apply]
      exact ⟨_, text_operator hop hls hrs, hexpr, fun h => hoperand (h hoperation)⟩
  | @negation origin datatype e he operand ih =>
      obtain ⟨s, hs, -, hread⟩ := ih
      have hchars : ("not " ++ s).toList = "not".toList ++ ' ' :: s.toList := String.toList_append
      have hread := readsExpr_negation (hread operand)
      rw [← hchars, Expr.call, String.ofList_toList] at hread
      obtain ⟨hexpr, hoperand⟩ := hread.wrapped origin
      rw [skeleton_apply]
      exact ⟨_, text_negation hs, hexpr, fun h => hoperand (h rfl)⟩
  | @call origin datatype f args hf hcalled hargs ih =>
      obtain ⟨texts, htexts, hreads⟩ := exists_argumentTexts fun e he =>
        (ih e he).imp fun s hs => ⟨hs.1, hs.2.1⟩
      have hread := (readsOperand_call (isName_of_isIdentifier hf) hreads).wrapped origin
      rw [Expr.call, String.ofList_toList, ← skeletonArguments_map] at hread
      rw [skeleton_apply]
      exact ⟨_, text_call hf hcalled htexts, hread.readsExpr, fun _ => hread⟩

/-- No text can be read in two ways. -/
theorem ReadsExpr.unique {cs : List Char} {e f : Expr} (he : ReadsExpr cs e) (hf : ReadsExpr cs f) :
    e = f := by
  obtain ⟨m, he⟩ := he
  obtain ⟨k, hf⟩ := hf
  have hend : EndsExpr [] := fun _ hc => by cases hc
  have hread := he (m + k) (by omega) [] hend
  rw [hf (m + k) (by omega) [] hend] at hread
  exact congrArg Prod.fst (Option.some.inj hread.symm)

/-- Legible expressions have texts, and these agree exactly if the expressions agree up to types and
positions. -/
theorem IsLegible.text_eq_iff {e f : Expr} (he : e.IsLegible) (hf : f.IsLegible) :
    (∃ s, e.text = .ok s) ∧ (∃ s, f.text = .ok s) ∧
      (e.text = f.text ↔ e.skeleton = f.skeleton) := by
  obtain ⟨s, hs, hreads, -⟩ := he.exists_text
  obtain ⟨t, ht, hreadt, -⟩ := hf.exists_text
  refine ⟨⟨s, hs⟩, ⟨t, ht⟩, fun hsame => ?_, fun hsame => ?_⟩
  · rw [hs, ht] at hsame
    cases hsame
    exact hreads.unique hreadt
  · rw [← text_skeleton e, ← text_skeleton f, hsame]

namespace Sample

/-- A negated comparison of the first column of `R` with a call. -/
def comparison (args : List Expr) : Expr :=
  .apply {} .null (.string "not") [.nested (.apply { parenthesized := true } .null (.string "=")
    [.nested (.column {} ⟨.int 0, .string "R"⟩),
      .nested (.apply {} .null (.string "f") (args.map .nested))])]

theorem isLegible_comparison {args : List Expr} (h : ∀ e ∈ args, e.IsLegible) :
    (comparison args).IsLegible :=
  .negation _ _
    (.operator _ _ (by decide) (.column _ rfl rfl) (.call _ _ (by decide) (by decide) h) nofun
      (fun hoperation => by simp [isOperation, isInfix, infixOperators] at hoperation))
    (fun _ => rfl)

/-- One text that looks like two arguments is not mistaken for them. -/
theorem text_eq_iff_quoted :
    (comparison [constant (.string "a', 'b")]).IsLegible ∧
      (comparison [constant (.string "a"), constant (.string "b")]).IsLegible ∧
      (comparison [constant (.string "a', 'b")]).text ≠
        (comparison [constant (.string "a"), constant (.string "b")]).text := by
  have hconstant (s : String) : (constant (.string s)).IsLegible := .constant _ _ rfl
  have hone : (comparison [constant (.string "a', 'b")]).IsLegible :=
    isLegible_comparison (by simp [hconstant])
  have htwo : (comparison [constant (.string "a"), constant (.string "b")]).IsLegible :=
    isLegible_comparison (by simp [hconstant])
  refine ⟨hone, htwo, fun hsame => ?_⟩
  have hskeleton := (hone.text_eq_iff htwo).2.2.mp hsame
  simp [comparison, constant, skeleton, skeletonArguments] at hskeleton

end Sample

end Expr

end LogicalPlan
