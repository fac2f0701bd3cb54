import LogicalPlan.Plan.Derivation
import LogicalPlan.Proofs.Outcome

/-!
# Derivation and positions

The position at which an operator stands decides where a fault of its derivation is reported, and
nothing else. Hence the notes at the root of a plan do not decide whether it has a schema.
-/

namespace LogicalPlan

open Outcome

variable (at₁ at₂ : Option SourceSpan)

namespace Schema

theorem indexOf_alike (s : Schema) (c : Column) :
    Alike (s.indexOf c at₁) (s.indexOf c at₂) := by
  unfold indexOf
  cases c.name.toInt? with
  | some i => exact (Alike.refl _).ite (alike_error rfl)
  | none =>
      match candidates c 0 s.columns with
      | [] => exact alike_error rfl
      | [i] => exact .refl _
      | i :: j :: rest => exact alike_error rfl

theorem resolve_alike (s : Schema) (c : Column) :
    Alike (s.resolve c at₁) (s.resolve c at₂) :=
  (indexOf_alike at₁ at₂ s c).bind fun _ => .refl _

theorem selectAll_alike (s : Schema) (relAlias : Value) :
    Alike (s.selectAll relAlias at₁) (s.selectAll relAlias at₂) := by
  refine (Alike.refl _).ite ?_
  cases s.columns.filter fun col => col.relAlias.same relAlias with
  | nil => exact alike_error rfl
  | cons col cols => exact .refl _

theorem uniqueAfter_alike (text : String) (seen : List Value) (columns : List SchemaColumn) :
    Alike (uniqueAfter text at₁ seen columns) (uniqueAfter text at₂ seen columns) := by
  induction columns generalizing seen with
  | nil => exact .refl _
  | cons col cols ih =>
      refine (Alike.refl _).ite (Alike.ite ?_ (ih _))
      exact alike_error rfl

theorem assertUnique_alike (s : Schema) : Alike (s.assertUnique at₁) (s.assertUnique at₂) :=
  uniqueAfter_alike at₁ at₂ _ _ _

theorem concat_alike (s t : Schema) : Alike (s.concat t at₁) (s.concat t at₂) :=
  (assertUnique_alike at₁ at₂ _).bind fun _ => .refl _

end Schema

theorem Expr.typeIn_alike (e : Expr) (s : Schema) :
    Alike (e.typeIn s at₁) (e.typeIn s at₂) := by
  refine Alike.bind (.forM _ fun part => ?_) fun _ => .refl _
  cases part with
  | column origin c => exact (Schema.indexOf_alike _ _ s c).discard
  | apply => exact .refl _

theorem ProjectionItem.columnsIn_alike (item : ProjectionItem) (s : Schema) :
    Alike (item.columnsIn s at₁) (item.columnsIn s at₂) := by
  cases item with
  | computed name relAlias child => exact (child.typeIn_alike at₁ at₂ s).bind fun _ => .refl _
  | column c =>
      exact (s.selectAll_alike at₁ at₂ c.relAlias).ite ((s.resolve_alike at₁ at₂ c).map _)

theorem Aggregate.columnIn_alike (agg : Aggregate) (s : Schema) :
    Alike (agg.columnIn s at₁) (agg.columnIn s at₂) := by
  unfold columnIn
  cases agg.function with
  | string function =>
      cases agg.column with
      | none => exact .refl _
      | some c => exact (s.resolve_alike at₁ at₂ c).bind fun _ => .refl _
  | _ => exact .refl _

theorem renamedColumns_alike (s : Schema) (renamings : List Renaming)
    (columns : List SchemaColumn) :
    Alike (renamedColumns s at₁ renamings columns) (renamedColumns s at₂ renamings columns) := by
  induction renamings generalizing columns with
  | nil => exact .refl _
  | cons r rest ih => exact (s.indexOf_alike at₁ at₂ r.column).bind fun _ => ih _

theorem UnaryOp.derive_alike (op : UnaryOp) (s : Schema) :
    Alike (op.derive at₁ s) (op.derive at₂ s) := by
  cases op with
  | selection condition =>
      apply (condition.typeIn_alike at₁ at₂ s).discard.bind
      intro _
      exact .refl _
  | projection columns =>
      apply (Alike.mapM columns fun item => item.columnsIn_alike at₁ at₂ s).bind
      intro _
      exact .refl _
  | orderBy keys =>
      exact (Alike.forM keys fun key => (s.indexOf_alike at₁ at₂ key.column).discard).bind
        fun _ => .refl _
  | groupBy groups aggregates =>
      apply (Alike.mapM groups fun c => s.resolve_alike at₁ at₂ c).bind
      intro _
      apply (Alike.mapM aggregates fun agg => agg.columnIn_alike at₁ at₂ s).bind
      intro _
      exact (Schema.assertUnique_alike at₁ at₂ _).bind fun _ => .refl _
  | renameColumns renamings =>
      apply (renamedColumns_alike at₁ at₂ s renamings _).bind
      intro _
      exact (Schema.assertUnique_alike at₁ at₂ _).bind fun _ => .refl _
  | renameRelation relAlias => exact .refl _

theorem placeless_ofQuery (key : String) (params : Members) :
    (Fault.ofQuery key params at₁).placeless = (Fault.ofQuery key params at₂).placeless := by
  unfold Fault.ofQuery
  cases Message.resolve key params <;> rfl

theorem joinColumns_alike (columns : Option (List Value)) (shared : List Value) :
    Alike (joinColumns columns shared at₁) (joinColumns columns shared at₂) := by
  cases columns with
  | none => exact .refl _
  | some columns =>
      refine Alike.bind (.forM _ fun c => (Alike.refl _).ite ?_) fun _ => .refl _
      exact alike_error (placeless_ofQuery at₁ at₂ _ _)

theorem JoinCondition.derive_alike (condition : JoinCondition) (s t : Schema) :
    Alike (condition.derive at₁ s t) (condition.derive at₂ s t) := by
  cases condition with
  | theta condition =>
      apply (s.concat_alike at₁ at₂ t).bind
      intro combined
      apply (condition.typeIn_alike at₁ at₂ combined).discard.bind
      intro _
      exact .refl _
  | natural columns =>
      apply (Alike.refl _).bind
      intro shared
      apply (joinColumns_alike at₁ at₂ columns shared).bind
      intro _
      exact s.concat_alike at₁ at₂ _
  | unknown v => exact .refl _

theorem BinaryOp.derive_alike (op : BinaryOp) (s t : Schema) :
    Alike (op.derive at₁ s t) (op.derive at₂ s t) := by
  cases op with
  | cross => exact s.concat_alike at₁ at₂ t
  | join kind condition => exact condition.derive_alike at₁ at₂ s t
  | semi keepsLeft => exact .refl _
  | anti => exact .refl _
  | union | intersect | difference => exact (Alike.refl _).ite (alike_error rfl)
  | division => exact (Alike.refl _).ite ((Alike.refl _).ite (alike_error rfl))

namespace Plan

/-- The notes at the root of a plan decide at most where a fault of its derivation is reported. -/
theorem schema_withNotes_alike (p : Plan) (notes : Notes) :
    Alike (p.withNotes notes).schema p.schema := by
  cases p with
  | relation notes' base => exact .refl _
  | unary notes' op input => exact (Alike.refl _).bind fun s => op.derive_alike _ _ s
  | binary notes' op left right =>
      exact (Alike.refl _).bind fun s => (Alike.refl _).bind fun t => op.derive_alike _ _ s t

/-- The plan has a schema. -/
def Derives (p : Plan) : Prop :=
  ∃ s, p.schema = .ok s

theorem check_eq_ok {p : Plan} : p.check = .ok () ↔ p.Derives :=
  discard_eq_ok

@[simp] theorem derives_withNotes {p : Plan} {notes : Notes} :
    (p.withNotes notes).Derives ↔ p.Derives := by
  constructor
  · rintro ⟨s, hs⟩
    exact ⟨s, (p.schema_withNotes_alike notes).eq_ok hs⟩
  · rintro ⟨s, hs⟩
    exact ⟨s, (p.schema_withNotes_alike notes).symm.eq_ok hs⟩

/-- An operator has a schema only over an input that has one. -/
theorem Derives.input {notes : Notes} {op : UnaryOp} {p : Plan}
    (h : (Plan.unary notes op p).Derives) : p.Derives := by
  obtain ⟨s, hs⟩ := h
  obtain ⟨inner, hinner, -⟩ := bind_eq_ok.mp hs
  exact ⟨inner, hinner⟩

/-- An operator has a schema only over two inputs that have one, whichever of them it keeps. -/
theorem Derives.inputs {notes : Notes} {op : BinaryOp} {p q : Plan}
    (h : (Plan.binary notes op p q).Derives) : p.Derives ∧ q.Derives := by
  obtain ⟨s, hs⟩ := h
  obtain ⟨left, hleft, hs⟩ := bind_eq_ok.mp hs
  obtain ⟨right, hright, -⟩ := bind_eq_ok.mp hs
  exact ⟨⟨left, hleft⟩, ⟨right, hright⟩⟩

end Plan

end LogicalPlan
