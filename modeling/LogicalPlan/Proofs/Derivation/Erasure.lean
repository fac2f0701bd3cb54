import LogicalPlan.Proofs.Derivation.Placement

/-!
# Derivation and annotations

Notes of operators, rows of base relations, and positions and parentheses of expressions are
annotations: erasing all of them from a plan leaves its schema as it is. Hence two plans with one
erasure have the same schema, or the derivations of both fail for the same reason.

## Implementation notes

A plan is compared with its own erasure, so the induction runs over one plan. An erased reference is
resolved at the position of its operator, which is why all positions are left open on both sides.
-/

namespace LogicalPlan

open Outcome

/-! ### Erasing annotations -/

namespace Expr

mutual

/-- The expression without positions and parentheses. -/
def erase : Expr → Expr
  | .column _ c => .column {} c
  | .apply _ datatype func args => .apply {} datatype func (eraseArguments args)

/-- The argument without positions and parentheses. -/
def eraseArgument : Argument → Argument
  | .literal v => .literal v
  | .nested e => .nested (erase e)

/-- The arguments without positions and parentheses. -/
def eraseArguments : List Argument → List Argument
  | [] => []
  | a :: as => eraseArgument a :: eraseArguments as

end

mutual

/-- Erasing reaches exactly the expressions that are nested in an expression. -/
theorem walk_erase : ∀ e : Expr, e.erase.walk = e.walk.map erase
  | .column _ _ => rfl
  | .apply _ _ func args => by
    simp only [erase, walk, List.map_cons]
    split
    · rfl
    · rw [walkArguments_erase args]

theorem walkArguments_erase :
    ∀ args : List Argument, walkArguments (eraseArguments args) = (walkArguments args).map erase
  | [] => rfl
  | .literal _ :: as => walkArguments_erase as
  | .nested e :: as => by
    simp only [eraseArguments, eraseArgument, walkArguments, walkArgument, List.map_append]
    rw [walk_erase e, walkArguments_erase as]

end

end Expr

/-- The projection entry without annotations. -/
def ProjectionItem.erase : ProjectionItem → ProjectionItem
  | .column c => .column c
  | .computed name relAlias child => .computed name relAlias child.erase

/-- The join condition without annotations. A value that qualifies no join is kept. -/
def JoinCondition.erase : JoinCondition → JoinCondition
  | .theta condition => .theta condition.erase
  | condition => condition

/-- The operator without annotations in its expressions. -/
def UnaryOp.erase : UnaryOp → UnaryOp
  | .selection condition => .selection condition.erase
  | .projection columns => .projection (columns.map ProjectionItem.erase)
  | op => op

/-- The operator without annotations in its expressions. -/
def BinaryOp.erase : BinaryOp → BinaryOp
  | .join kind condition => .join kind condition.erase
  | op => op

/-- The plan without notes, without rows, and without annotations in its expressions. -/
def Plan.erase : Plan → Plan
  | .relation _ base => .relation {} { base with rows := [] }
  | .unary _ op input => .unary {} op.erase input.erase
  | .binary _ op left right => .binary {} op.erase left.erase right.erase

/-! ### Derivation of erased operators -/

variable (at₁ at₂ : Option SourceSpan)

theorem Expr.typeIn_erase (e : Expr) (s : Schema) :
    Alike (e.erase.typeIn s at₁) (e.typeIn s at₂) := by
  unfold typeIn
  rw [walk_erase, List.forM_eq_forM, List.forM_map]
  apply (Alike.forM e.walk fun part => ?_).bind
  · intro _
    cases e with
    | column origin c => exact .refl _
    | apply origin datatype func args => exact .refl _
  · cases part with
    | column origin c => exact (Schema.indexOf_alike _ _ s c).discard
    | apply origin datatype func args => exact .refl _

theorem ProjectionItem.columnsIn_erase (item : ProjectionItem) (s : Schema) :
    Alike (item.erase.columnsIn s at₁) (item.columnsIn s at₂) := by
  cases item with
  | column c => exact (ProjectionItem.column c).columnsIn_alike at₁ at₂ s
  | computed name relAlias child => exact (child.typeIn_erase at₁ at₂ s).bind fun _ => .refl _

theorem UnaryOp.derive_erase (op : UnaryOp) (s : Schema) :
    Alike (op.erase.derive at₁ s) (op.derive at₂ s) := by
  cases op with
  | selection condition =>
      apply (condition.typeIn_erase at₁ at₂ s).discard.bind
      intro _
      exact .refl _
  | projection columns =>
      simp only [erase, derive, List.mapM_map]
      apply (Alike.mapM columns fun item => item.columnsIn_erase at₁ at₂ s).bind
      intro _
      exact .refl _
  | _ => exact derive_alike at₁ at₂ _ s

theorem JoinCondition.derive_erase (condition : JoinCondition) (s t : Schema) :
    Alike (condition.erase.derive at₁ s t) (condition.derive at₂ s t) := by
  cases condition with
  | theta condition =>
      apply (s.concat_alike at₁ at₂ t).bind
      intro combined
      apply (condition.typeIn_erase at₁ at₂ combined).discard.bind
      intro _
      exact .refl _
  | _ => exact derive_alike at₁ at₂ _ s t

theorem BinaryOp.derive_erase (op : BinaryOp) (s t : Schema) :
    Alike (op.erase.derive at₁ s t) (op.derive at₂ s t) := by
  cases op with
  | join kind condition => exact condition.derive_erase at₁ at₂ s t
  | _ => exact derive_alike at₁ at₂ _ s t

/-! ### Derivation of erased plans -/

namespace Plan

/-- A plan and its erasure have the same schema, or no schema for the same reason. -/
theorem schema_erase (p : Plan) : Alike p.erase.schema p.schema := by
  induction p with
  | relation notes base => exact .refl _
  | unary notes op input ih => exact ih.bind fun s => op.derive_erase _ _ s
  | binary notes op left right ihl ihr =>
      apply ihl.bind
      intro s
      apply ihr.bind
      intro t
      exact op.derive_erase _ _ s t

/-- Plans that differ in annotations only have the same schema, or the derivations of both fail with
faults that differ at most in the reported position. -/
theorem schema_of_erase_eq {p q : Plan} (h : p.erase = q.erase) :
    (∃ s, p.schema = .ok s ∧ q.schema = .ok s) ∨
      ∃ f g, p.schema = .error f ∧ q.schema = .error g ∧ f.placeless = g.placeless := by
  have erased : Alike p.schema q.erase.schema := h ▸ p.schema_erase.symm
  exact alike_iff.mp (erased.trans q.schema_erase)

namespace Sample

/-- A relation `R(a)` with the given rows. -/
def base (rows : List (List Value)) : Relation where
  name := .string "R"
  schema := some ⟨[⟨.string "a", .string "R", .string "number"⟩]⟩
  rows := rows

/-- A selection on a column `b` that the empty relation lacks. -/
def bare : Plan :=
  .unary {} (.selection (.column {} ⟨.string "b", .null⟩)) (.relation {} (base []))

/-- The same selection over a row, with positions, a warning and parentheses. -/
def annotated : Plan :=
  .unary { parenthesized := true }
    (.selection (.column ⟨some (SourceSpan.ofText "b"), true⟩ ⟨.string "b", .null⟩))
    (.relation { warnings := [⟨Message.distinctMissing, none, []⟩] } (base [[.int 1]]))

/-- Both selections miss the column; only one of the faults has a position. -/
theorem schema_of_erase_eq_annotated :
    bare.erase = annotated.erase ∧ ∃ f g, bare.schema = .error f ∧ annotated.schema = .error g ∧
      f ≠ g ∧ f.placeless = g.placeless := by
  have erased : bare.erase = annotated.erase := by decide
  refine ⟨erased, ?_⟩
  rcases schema_of_erase_eq erased with ⟨s, hs, -⟩ | ⟨f, g, hf, hg, hplaceless⟩
  · cases hs
  · refine ⟨f, g, hf, hg, ?_, hplaceless⟩
    rintro rfl
    exact absurd (hf.trans hg.symm) (by decide)

end Sample

end Plan

end LogicalPlan
