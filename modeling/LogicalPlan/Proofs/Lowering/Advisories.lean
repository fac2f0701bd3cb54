import LogicalPlan.Proofs.Lowering.Located
import LogicalPlan.Proofs.Lowering.Shape

/-!
# Advisory remarks

A compiled plan carries one remark for every statement that keeps duplicates and one for every set
operation that is marked to keep them, and no other remarks. The root of a statement can be the root
of its FROM clause as well; it then carries the remarks of both.

## Implementation notes

Remarks are compared as multisets. An outer statement remarks after an inner one at the same root,
so the order in a plan is not the order in the query.
-/

namespace LogicalPlan

namespace Plan

/-- The warnings of all nodes of the plan. -/
def warnings (p : Plan) : List Warning :=
  p.walk.flatMap (·.notes.warnings)

@[simp] theorem warnings_relation (notes : Notes) (base : Relation) :
    (relation notes base).warnings = notes.warnings :=
  List.append_nil _

@[simp] theorem warnings_unary (notes : Notes) (op : UnaryOp) (input : Plan) :
    (unary notes op input).warnings = notes.warnings ++ input.warnings :=
  rfl

@[simp] theorem warnings_binary (notes : Notes) (op : BinaryOp) (left right : Plan) :
    (binary notes op left right).warnings =
      notes.warnings ++ (left.warnings ++ right.warnings) := by
  simp [warnings, walk, Plan.notes]

/-- The warnings of a plan are those of its root and those of its inputs. -/
theorem warnings_withNotes (notes : Notes) (p : Plan) :
    (p.withNotes notes).warnings = notes.warnings ++ p.children.flatMap warnings := by
  cases p <;> simp [withNotes, children]

theorem warnings_eq (p : Plan) :
    p.warnings = p.notes.warnings ++ p.children.flatMap warnings := by
  cases p <;> simp [Plan.notes, children]

/-- Annotating a plan adds no warning and drops none. -/
@[simp] theorem warnings_overlay (p : Plan) (origin : Origin) (span : SourceSpan)
    (metadata : Members) : (p.overlay origin span metadata).warnings = p.warnings := by
  rw [overlay, warnings_withNotes, warnings_eq p]
  rfl

theorem warnings_warn_perm (p : Plan) (key : String) (span : Option SourceSpan) :
    (p.warn key span).warnings.Perm (⟨key, span, []⟩ :: p.warnings) := by
  rw [warn, warnings_withNotes, warnings_eq p, Notes.warn, List.append_assoc]
  exact List.perm_middle

end Plan

namespace Query

/-- The remark that the node at the root of a query deserves, if it deserves one. -/
def Sql.advisory : Sql → List Warning
  | .statement origin clauses _ =>
    if clauses.select.distinct then [] else [⟨Message.distinctMissing, origin.span, []⟩]
  | .binary origin (.set _ true) _ _ => [⟨Message.allIgnored, origin.span, []⟩]
  | _ => []

/-- The remarks that the nodes of a query deserve. -/
def Sql.advisories (q : Sql) : List Warning :=
  q.nodes.flatMap advisory

theorem SqlBinary.warnings_notes (op : SqlBinary) (origin : Origin) (left right : Sql) :
    (op.notes origin).warnings = (Sql.binary origin op left right).advisory := by
  cases op with
  | set operation keepsAll => cases keepsAll <;> rfl
  | _ => rfl

theorem Clauses.warnings_advise (clauses : Clauses) (origin : Origin) (source : Sql) (p : Plan) :
    (clauses.advise origin p).warnings.Perm
      ((Sql.statement origin clauses source).advisory ++ p.warnings) := by
  cases hdistinct : clauses.select.distinct with
  | true => simp [advise, Sql.advisory, hdistinct]
  | false =>
      simpa [advise, Sql.advisory, hdistinct] using
        p.warnings_warn_perm Message.distinctMissing origin.span

/-- The stages of a statement make no remarks of their own, and keep those of its FROM clause. -/
theorem Applied.warnings_eq {stages : List Stage} {p q : Plan} (h : Applied stages p q) :
    q.warnings = p.warnings := by
  induction h with
  | nil p => rfl
  | keep hmade rest ih => exact ih
  | put hmade hspan rest ih =>
      rw [ih, Plan.warnings_overlay, Plan.warnings_unary]
      rfl

section Catalog

variable {catalog : Catalog} (hc : ∀ entry ∈ catalog, entry.2.1.warnings = [])
include hc

theorem Sql.Lowered.warnings_perm {verbose : Bool} {q : Sql} {p : Plan}
    (h : Lowered catalog verbose q p) : p.warnings.Perm q.advisories := by
  induction h with
  | relation hfind hspan =>
      obtain ⟨_, hmem⟩ := Catalog.mem_of_find? hfind
      rw [Plan.warnings_overlay, Plan.warnings_relation, hc _ hmem]
      exact .refl _
  | aliased hfind hspan =>
      obtain ⟨_, hmem⟩ := Catalog.mem_of_find? hfind
      rw [Plan.warnings_overlay, Plan.warnings_unary, Plan.warnings_relation, hc _ hmem]
      exact .refl _
  | @statement origin span clauses source p q below happlied hspan ih =>
      rw [Plan.warnings_overlay]
      refine (clauses.warnings_advise origin source q).trans ?_
      rw [happlied.warnings_eq]
      exact ih.append_left _
  | unary hmade below hspan ih =>
      rw [Plan.warnings_overlay, Plan.warnings_unary]
      exact ih
  | @binary origin span op made left right p q hmade leftBelow rightBelow hspan ihl ihr =>
      rw [Plan.warnings_overlay, Plan.warnings_binary, op.warnings_notes origin left right,
        advisories, nodes, List.flatMap_cons, List.flatMap_append]
      exact (ihl.append ihr).append_left _

theorem Algebra.Lowered.warnings_eq {q : Algebra} {p : Plan} (h : Lowered catalog q p) :
    p.warnings = [] := by
  induction h with
  | relation hfind hspan =>
      obtain ⟨_, hmem⟩ := Catalog.mem_of_find? hfind
      rw [Plan.warnings_overlay, Plan.warnings_relation]
      exact hc _ hmem
  | table hbase hspan =>
      rw [Plan.warnings_overlay, Plan.warnings_relation]
      rfl
  | unary hmade below hspan ih =>
      rw [Plan.warnings_overlay, Plan.warnings_unary]
      exact ih
  | binary hmade leftBelow rightBelow hspan ihl ihr =>
      rw [Plan.warnings_overlay, Plan.warnings_binary, ihl, ihr]
      rfl

end Catalog

end Query

namespace LoadedQuery

/-- The remarks that a query deserves. Only SQL queries leave it open what becomes of duplicates. -/
def advisories : LoadedQuery → List Warning
  | .sql q => q.advisories
  | .algebra _ => []

/-- The warnings of a plan that is compiled from relations without warnings are the remarks that its
query deserves, each of them as often as it is deserved. -/
theorem compile_warnings {catalog : Catalog} (hc : ∀ entry ∈ catalog, entry.2.1.warnings = [])
    {q : LoadedQuery} {settings : Settings} {isNode : Bool} {p : Plan}
    (h : (q.grammar.compile isNode catalog settings q).result = .ok p) :
    p.warnings.Perm q.advisories := by
  cases q with
  | sql q => exact (Query.Sql.lowered_of_compile h).warnings_perm hc
  | algebra q => exact .of_eq ((Query.Algebra.lowered_of_compile h).warnings_eq hc)

end LoadedQuery

namespace Query.Sample

/-- The clauses of `SELECT *`, which keeps duplicates. -/
def everything : Clauses where
  select := ⟨origin, false, [.column origin (.string "*") .null .null]⟩
  filter := none
  groupBy := none
  having := none
  aggregateCount := .int 0

/-- A union that is marked to keep duplicates, of a statement over a statement and the relation. -/
def repeated : LoadedQuery :=
  .sql (.binary origin (.set .union true)
    (.statement origin everything (.statement origin everything source)) source)

/-- Both statements and the union are remarked on, although the statements share one root. -/
theorem compile_warnings_repeated :
    (∀ entry ∈ catalog, entry.2.1.warnings = []) ∧ ∃ p,
      (repeated.grammar.compile true catalog {} repeated).result = .ok p ∧
      p.walk.length = 3 ∧ p.warnings.length = 3 ∧ p.warnings.Perm repeated.advisories := by
  have unwarned : ∀ entry ∈ catalog, entry.2.1.warnings = [] := by decide
  obtain ⟨p, hp, hsize⟩ : ∃ p, (repeated.grammar.compile true catalog {} repeated).result = .ok p ∧
      p.walk.length = 3 := ⟨_, rfl, rfl⟩
  have warned : p.warnings.Perm repeated.advisories := LoadedQuery.compile_warnings unwarned hp
  exact ⟨unwarned, p, hp, hsize, warned.length_eq, warned⟩

end Query.Sample

end LogicalPlan
