import LogicalPlan.Plan.Equality
import LogicalPlan.Proofs.Expr.Equality

/-!
# Equality of plans

Plans are equal if they have equal operators over equal inputs with equal notes. Normal forms decide
this equality, as they do for join conditions, projection entries, aggregates and renamings.
-/

namespace LogicalPlan

/-! ### Notes -/

namespace Warning

/-- All values in the warning are proper. -/
def IsProper (w : Warning) : Prop :=
  (∀ s ∈ w.span, s.IsProper) ∧ (Value.object w.params).IsProper

/-- The warnings are equal part by part. -/
def Equals (w w' : Warning) : Prop :=
  w.key = w'.key ∧ Option.Rel SourceSpan.Equals w.span w'.span ∧
    (Value.object w.params).Equals (.object w'.params)

end Warning

theorem Members.normal_eq_iff {members other : Members} (h : (Value.object members).IsProper)
    (h' : (Value.object other).IsProper) :
    members.normal = other.normal ↔ (Value.object members).Equals (.object other) := by
  rw [← Value.normal_eq_iff h h', Value.normal, Value.normal, Value.object.injEq, Members.normal,
    Members.normal]

theorem Warning.decides : Decides normal IsProper Equals := by
  rintro w w' ⟨hspan, hparams⟩ ⟨hspan', hparams'⟩
  rw [normal, normal, mk.injEq, SourceSpan.decides.option _ _ hspan hspan',
    Members.normal_eq_iff hparams hparams', Equals]

namespace Notes

/-- All values in the notes are proper. -/
def IsProper (notes : Notes) : Prop :=
  (∀ s ∈ notes.span, s.IsProper) ∧ (Value.object notes.metadata).IsProper ∧
    ∀ w ∈ notes.warnings, w.IsProper

/-- The notes are equal part by part; the order of metadata does not count. -/
def Equals (notes notes' : Notes) : Prop :=
  Option.Rel SourceSpan.Equals notes.span notes'.span ∧
    (Value.object notes.metadata).Equals (.object notes'.metadata) ∧
    List.Forall₂ Warning.Equals notes.warnings notes'.warnings ∧
    notes.parenthesized = notes'.parenthesized

theorem decides : Decides normal IsProper Equals := by
  rintro notes notes' ⟨hspan, hmetadata, hwarnings⟩ ⟨hspan', hmetadata', hwarnings'⟩
  rw [normal, normal, mk.injEq, SourceSpan.decides.option _ _ hspan hspan',
    Members.normal_eq_iff hmetadata hmetadata', Warning.decides.list _ _ hwarnings hwarnings',
    Equals]

end Notes

/-! ### Parts of operators -/

namespace JoinCondition

/-- All values in the condition are proper. -/
def IsProper : JoinCondition → Prop
  | .natural columns => ∀ names ∈ columns, ∀ v ∈ names, v.IsProper
  | .theta condition => condition.IsProper
  | .unknown v => v.IsProper

/-- The conditions are of one kind and equal part by part. -/
def Equals : JoinCondition → JoinCondition → Prop
  | .natural columns, .natural columns' =>
    Option.Rel (List.Forall₂ Value.Equals) columns columns'
  | .theta condition, .theta condition' => condition.Equals condition'
  | .unknown v, .unknown w => v.Equals w
  | _, _ => False

theorem decides : Decides normal IsProper Equals := by
  intro a b ha hb
  cases a with
  | natural columns =>
      cases b with
      | natural columns' =>
          rw [normal, normal, natural.injEq, Equals]
          exact Value.decides.list.option columns columns' ha hb
      | _ => simp [normal, Equals]
  | theta condition =>
      cases b with
      | theta condition' =>
          rw [normal, normal, theta.injEq, Equals, Expr.decides condition condition' ha hb]
      | _ => simp [normal, Equals]
  | unknown v =>
      cases b with
      | unknown w => rw [normal, normal, unknown.injEq, Equals, Value.normal_eq_iff ha hb]
      | _ => simp [normal, Equals]

end JoinCondition

namespace ProjectionItem

/-- All values in the projection entry are proper. -/
def IsProper : ProjectionItem → Prop
  | .column c => c.IsProper
  | .computed name relAlias child => name.IsProper ∧ relAlias.IsProper ∧ child.IsProper

/-- The entries are of one kind and equal part by part. -/
def Equals : ProjectionItem → ProjectionItem → Prop
  | .column c, .column d => c.Equals d
  | .computed name relAlias child, .computed name' relAlias' child' =>
    name.Equals name' ∧ relAlias.Equals relAlias' ∧ child.Equals child'
  | _, _ => False

theorem decides : Decides normal IsProper Equals := by
  intro a b ha hb
  cases a with
  | column c =>
      cases b with
      | column d => rw [normal, normal, column.injEq, Equals, Column.decides c d ha hb]
      | computed => simp [normal, Equals]
  | computed name relAlias child =>
      cases b with
      | column => simp [normal, Equals]
      | computed name' relAlias' child' =>
          rw [normal, normal, computed.injEq, Equals, Value.normal_eq_iff ha.1 hb.1,
            Value.normal_eq_iff ha.2.1 hb.2.1, Expr.decides child child' ha.2.2 hb.2.2]

end ProjectionItem

namespace Aggregate

/-- All values in the aggregate are proper. -/
def IsProper (agg : Aggregate) : Prop :=
  agg.function.IsProper ∧ (∀ c ∈ agg.column, c.IsProper) ∧ agg.name.IsProper

/-- The aggregates are equal part by part. -/
def Equals (a b : Aggregate) : Prop :=
  a.function.Equals b.function ∧ Option.Rel Column.Equals a.column b.column ∧ a.name.Equals b.name

theorem decides : Decides normal IsProper Equals := by
  rintro a b ⟨hfunction, hcolumn, hname⟩ ⟨hfunction', hcolumn', hname'⟩
  rw [normal, normal, mk.injEq, Value.normal_eq_iff hfunction hfunction',
    Column.decides.option _ _ hcolumn hcolumn', Value.normal_eq_iff hname hname', Equals]

end Aggregate

namespace Renaming

/-- All values in the renaming are proper. -/
def IsProper (r : Renaming) : Prop :=
  r.newName.IsProper ∧ r.column.IsProper

/-- The renamings are equal part by part. -/
def Equals (r r' : Renaming) : Prop :=
  r.newName.Equals r'.newName ∧ r.column.Equals r'.column

theorem decides : Decides normal IsProper Equals := by
  rintro r r' ⟨hname, hcolumn⟩ ⟨hname', hcolumn'⟩
  rw [normal, normal, mk.injEq, Value.normal_eq_iff hname hname',
    Column.decides _ _ hcolumn hcolumn', Equals]

end Renaming

namespace SortKey

/-- All values in the sort key are proper. -/
def IsProper (key : SortKey) : Prop :=
  key.column.IsProper ∧ key.ascending.IsProper

/-- The sort keys are equal part by part. -/
def Equals (key key' : SortKey) : Prop :=
  key.column.Equals key'.column ∧ key.ascending.Equals key'.ascending

theorem decides : Decides normal IsProper Equals := by
  rintro key key' ⟨hcolumn, hascending⟩ ⟨hcolumn', hascending'⟩
  rw [normal, normal, mk.injEq, Column.decides _ _ hcolumn hcolumn',
    Value.normal_eq_iff hascending hascending', Equals]

end SortKey

/-! ### Operators -/

namespace Relation

/-- All values in the relation are proper. -/
def IsProper (r : Relation) : Prop :=
  r.name.IsProper ∧ (∀ s ∈ r.schema, s.IsProper) ∧ ∀ row ∈ r.rows, ∀ v ∈ row, v.IsProper

/-- The relations have equal names, schemas and rows. -/
def Equals (r r' : Relation) : Prop :=
  r.name.Equals r'.name ∧ Option.Rel Schema.Equals r.schema r'.schema ∧
    List.Forall₂ (List.Forall₂ Value.Equals) r.rows r'.rows

theorem decides : Decides normal IsProper Equals := by
  rintro r r' ⟨hname, hschema, hrows⟩ ⟨hname', hschema', hrows'⟩
  rw [normal, normal, mk.injEq, Value.normal_eq_iff hname hname',
    Schema.decides.option _ _ hschema hschema', Equals]
  exact and_congr_right fun _ => and_congr_right fun _ =>
    Value.decides.list.list r.rows r'.rows hrows hrows'

end Relation

namespace UnaryOp

/-- All values in the operator are proper. -/
def IsProper : UnaryOp → Prop
  | .selection condition => condition.IsProper
  | .projection columns => ∀ item ∈ columns, item.IsProper
  | .orderBy keys => ∀ key ∈ keys, key.IsProper
  | .groupBy groups aggregates => (∀ c ∈ groups, c.IsProper) ∧ ∀ agg ∈ aggregates, agg.IsProper
  | .renameColumns renamings => ∀ r ∈ renamings, r.IsProper
  | .renameRelation relAlias => relAlias.IsProper

/-- The operators are of one kind and equal part by part. -/
def Equals : UnaryOp → UnaryOp → Prop
  | .selection condition, .selection condition' => condition.Equals condition'
  | .projection columns, .projection columns' =>
    List.Forall₂ ProjectionItem.Equals columns columns'
  | .orderBy keys, .orderBy keys' => List.Forall₂ SortKey.Equals keys keys'
  | .groupBy groups aggregates, .groupBy groups' aggregates' =>
    List.Forall₂ Column.Equals groups groups' ∧ List.Forall₂ Aggregate.Equals aggregates aggregates'
  | .renameColumns renamings, .renameColumns renamings' =>
    List.Forall₂ Renaming.Equals renamings renamings'
  | .renameRelation relAlias, .renameRelation relAlias' => relAlias.Equals relAlias'
  | _, _ => False

theorem decides : Decides normal IsProper Equals := by
  intro a b ha hb
  cases a with
  | selection condition =>
      cases b with
      | selection condition' =>
          rw [normal, normal, selection.injEq, Equals, Expr.decides condition condition' ha hb]
      | _ => simp [normal, Equals]
  | projection columns =>
      cases b with
      | projection columns' =>
          rw [normal, normal, projection.injEq, Equals,
            ProjectionItem.decides.list columns columns' ha hb]
      | _ => simp [normal, Equals]
  | orderBy keys =>
      cases b with
      | orderBy keys' =>
          rw [normal, normal, orderBy.injEq, Equals, SortKey.decides.list keys keys' ha hb]
      | _ => simp [normal, Equals]
  | groupBy groups aggregates =>
      cases b with
      | groupBy groups' aggregates' =>
          rw [normal, normal, groupBy.injEq, Equals, Column.decides.list groups groups' ha.1 hb.1,
            Aggregate.decides.list aggregates aggregates' ha.2 hb.2]
      | _ => simp [normal, Equals]
  | renameColumns renamings =>
      cases b with
      | renameColumns renamings' =>
          rw [normal, normal, renameColumns.injEq, Equals,
            Renaming.decides.list renamings renamings' ha hb]
      | _ => simp [normal, Equals]
  | renameRelation relAlias =>
      cases b with
      | renameRelation relAlias' =>
          rw [normal, normal, renameRelation.injEq, Equals, Value.normal_eq_iff ha hb]
      | _ => simp [normal, Equals]

end UnaryOp

namespace BinaryOp

/-- All values in the operator are proper. -/
def IsProper : BinaryOp → Prop
  | .join _ condition => condition.IsProper
  | _ => True

/-- The operators are of one kind and equal part by part. -/
def Equals : BinaryOp → BinaryOp → Prop
  | .join kind condition, .join kind' condition' => kind = kind' ∧ condition.Equals condition'
  | op, op' => op = op'

theorem decides : Decides normal IsProper Equals := by
  intro a b ha hb
  cases a with
  | join kind condition =>
      cases b with
      | join kind' condition' =>
          rw [normal, normal, join.injEq, Equals, JoinCondition.decides condition condition' ha hb]
      | _ => simp [normal, Equals]
  | _ => cases b <;> simp [normal, Equals]

end BinaryOp

/-! ### Plans -/

namespace Plan

/-- All values in the plan are proper. -/
def IsProper : Plan → Prop
  | .relation notes base => notes.IsProper ∧ base.IsProper
  | .unary notes op input => notes.IsProper ∧ op.IsProper ∧ input.IsProper
  | .binary notes op left right => notes.IsProper ∧ op.IsProper ∧ left.IsProper ∧ right.IsProper

/-- The plans have equal notes, equal operators and equal inputs. -/
def Equals : Plan → Plan → Prop
  | .relation notes base, .relation notes' base' => notes.Equals notes' ∧ base.Equals base'
  | .unary notes op input, .unary notes' op' input' =>
    notes.Equals notes' ∧ op.Equals op' ∧ input.Equals input'
  | .binary notes op left right, .binary notes' op' left' right' =>
    notes.Equals notes' ∧ op.Equals op' ∧ left.Equals left' ∧ right.Equals right'
  | _, _ => False

theorem decides : Decides normal IsProper Equals := by
  intro p q hp hq
  induction p generalizing q with
  | relation notes base =>
      cases q with
      | relation notes' base' =>
          rw [normal, normal, relation.injEq, Equals, Notes.decides _ _ hp.1 hq.1,
            Relation.decides _ _ hp.2 hq.2]
      | _ => simp [normal, Equals]
  | unary notes op input ih =>
      cases q with
      | unary notes' op' input' =>
          rw [normal, normal, unary.injEq, Equals, Notes.decides _ _ hp.1 hq.1,
            UnaryOp.decides _ _ hp.2.1 hq.2.1, ih input' hp.2.2 hq.2.2]
      | _ => simp [normal, Equals]
  | binary notes op left right ihl ihr =>
      cases q with
      | binary notes' op' left' right' =>
          rw [normal, normal, binary.injEq, Equals, Notes.decides _ _ hp.1 hq.1,
            BinaryOp.decides _ _ hp.2.1 hq.2.1, ihl left' hp.2.2.1 hq.2.2.1,
            ihr right' hp.2.2.2 hq.2.2.2]
      | _ => simp [normal, Equals]

end Plan

end LogicalPlan
