import LogicalPlan.Proofs.Lowering.Stages

/-!
# Shapes of lowered plans

The plans that queries are lowered to are described by relations. Every node of a query becomes an
operator at the position of the node, over the plans of its inputs; every stage of a statement that
makes an operator puts it over the plan before it. `Sql.lowered_of_lower` and
`Algebra.lowered_of_lower` show that lowerings return such plans only.

## Implementation notes

Checks of schemas and reports in the log do not occur in the relations, since all they can do is
reject a query. What holds of every lowered plan is proved by induction on the relations, with one
case for each kind of node.
-/

namespace LogicalPlan

open Outcome

namespace Plan

/-- The plan with the annotations of a query node, at the given position. -/
def overlay (p : Plan) (origin : Origin) (span : SourceSpan) (metadata : Members) : Plan :=
  p.withNotes (p.notes.overlay span origin.parenthesized metadata)

theorem annotate_eq_ok {p q : Plan} {kind : String} {origin : Origin} {metadata : Members} :
    p.annotate kind origin metadata none = .ok q ↔
      ∃ span, origin.span = some span ∧ p.overlay origin span metadata = q := by
  unfold annotate Origin.require overlay
  cases origin.span <;> simp

end Plan

namespace Catalog

variable {catalog : Catalog} {name : Value}

theorem eq_relation_of_find? {p : Plan} (h : catalog.find? name = some p) :
    ∃ notes base, p = .relation notes base := by
  cases name with
  | string text =>
      obtain ⟨⟨notes, base⟩, -, rfl⟩ := Option.map_eq_some_iff.mp h
      exact ⟨notes, base, rfl⟩
  | _ => cases h

/-- What is found in a catalog is one of its relations with its notes. -/
theorem mem_of_find? {notes : Notes} {base : Relation}
    (h : catalog.find? name = some (.relation notes base)) :
    ∃ key, (key, notes, base) ∈ catalog := by
  cases name with
  | string text =>
      obtain ⟨⟨notes, base⟩, hlookup, heq⟩ := Option.map_eq_some_iff.mp h
      cases heq
      obtain ⟨_, _, heq, -⟩ := List.lookup_eq_some_iff.mp hlookup
      exact ⟨text, by simp [heq]⟩
  | _ => cases h

end Catalog

namespace Query

theorem find?_of_relationNamed {catalog : Catalog} {name : Value} {span : Option SourceSpan}
    {p : Plan} (h : relationNamed catalog name span = .ok p) :
    ∃ notes base, p = .relation notes base ∧
      catalog.find? name = some (.relation notes base) := by
  unfold relationNamed at h
  split at h
  · cases h
  · split at h
    · cases h
    case h_2 hfind =>
      cases h
      obtain ⟨notes, base, rfl⟩ := Catalog.eq_relation_of_find? hfind
      exact ⟨notes, base, rfl, hfind⟩

/-! ### Statements -/

/-- Running the stages over the first plan has led to the second one. -/
inductive Applied : List Stage → Plan → Plan → Prop
  | nil (p : Plan) : Applied [] p p
  | keep {stage : Stage} {stages : List Stage} {p q : Plan} (hmade : stage.operator = .ok none)
      (rest : Applied stages p q) : Applied (stage :: stages) p q
  | put {stage : Stage} {stages : List Stage} {p q : Plan} {op : UnaryOp} {span : SourceSpan}
      (hmade : stage.operator = .ok (some op)) (hspan : stage.origin.span = some span)
      (rest : Applied stages ((Plan.unary {} op p).overlay stage.origin span []) q) :
      Applied (stage :: stages) p q

theorem applied_of_foldlM {settings : Settings} {stages : List Stage} {p q : Plan}
    (h : stages.foldlM (Stage.run settings) p = .ok q) : Applied stages p q := by
  induction stages generalizing p with
  | nil =>
      cases h
      exact .nil _
  | cons stage stages ih =>
      obtain ⟨plan, hrun, h⟩ := bind_eq_ok.mp h
      obtain ⟨_, -, hrun⟩ := bind_eq_ok.mp hrun
      obtain ⟨made, hmade, hrun⟩ := bind_eq_ok.mp hrun
      cases made with
      | none =>
          cases hrun
          exact .keep hmade (ih h)
      | some op =>
          obtain ⟨annotated, hannotated, hrun⟩ := bind_eq_ok.mp hrun
          obtain ⟨_, -, hrun⟩ := bind_eq_ok.mp hrun
          cases hrun
          obtain ⟨span, hspan, rfl⟩ := Plan.annotate_eq_ok.mp hannotated
          exact .put hmade hspan (ih h)

/-- The plan with a remark at its root, unless the statement drops duplicates. -/
def Clauses.advise (clauses : Clauses) (origin : Origin) (p : Plan) : Plan :=
  if clauses.select.distinct then p else p.warn Message.distinctMissing origin.span

theorem Clauses.applied_of_lower {clauses : Clauses} {origin : Origin} {settings : Settings}
    {p q : Plan} (h : (clauses.lower origin settings p).result = .ok q) :
    ∃ plan, Applied (clauses.stages origin) p plan ∧ clauses.advise origin plan = q := by
  rw [result_lower] at h
  obtain ⟨_, -, h⟩ := bind_eq_ok.mp h
  obtain ⟨_, -, h⟩ := bind_eq_ok.mp h
  obtain ⟨plan, hplan, h⟩ := bind_eq_ok.mp h
  exact ⟨plan, applied_of_foldlM hplan, Except.ok.inj h⟩

/-! ### Queries -/

/-- The plan is a lowered form of the SQL query. -/
inductive Sql.Lowered (catalog : Catalog) (verbose : Bool) : Sql → Plan → Prop
  | relation {origin : Origin} {span : SourceSpan} {name relAlias : Value} {notes : Notes}
      {base : Relation} (hfind : catalog.find? name = some (.relation notes base))
      (hspan : origin.span = some span) :
      Lowered catalog verbose (.relation origin name relAlias)
        ((Plan.relation notes base).overlay origin span [])
  | aliased {origin : Origin} {span : SourceSpan} {name relAlias : Value} {notes : Notes}
      {base : Relation} (hfind : catalog.find? name = some (.relation notes base))
      (hspan : origin.span = some span) :
      Lowered catalog verbose (.relation origin name relAlias)
        ((Plan.unary {} (.renameRelation relAlias)
          (.relation { notes with span := some span } base)).overlay origin span [])
  | statement {origin : Origin} {span : SourceSpan} {clauses : Clauses} {source : Sql} {p q : Plan}
      (below : Lowered catalog verbose source p) (happlied : Applied (clauses.stages origin) p q)
      (hspan : origin.span = some span) :
      Lowered catalog verbose (.statement origin clauses source)
        ((clauses.advise origin q).overlay origin span [])
  | unary {origin : Origin} {span : SourceSpan} {op : SqlUnary} {made : UnaryOp} {child : Sql}
      {p : Plan} (hmade : op.operator origin verbose = .ok made)
      (below : Lowered catalog verbose child p) (hspan : origin.span = some span) :
      Lowered catalog verbose (.unary origin op child)
        ((Plan.unary {} made p).overlay origin span [])
  | binary {origin : Origin} {span : SourceSpan} {op : SqlBinary} {made : BinaryOp}
      {left right : Sql} {p q : Plan} (hmade : op.operator = .ok made)
      (leftBelow : Lowered catalog verbose left p)
      (rightBelow : Lowered catalog verbose right q) (hspan : origin.span = some span) :
      Lowered catalog verbose (.binary origin op left right)
        ((Plan.binary (op.notes origin) made p q).overlay origin span [])

/-- The plan is a lowered form of the algebra query. -/
inductive Algebra.Lowered (catalog : Catalog) : Algebra → Plan → Prop
  | relation {header : Header} {span : SourceSpan} {name : Value} {notes : Notes} {base : Relation}
      (hfind : catalog.find? name = some (.relation notes base))
      (hspan : header.origin.span = some span) :
      Lowered catalog (.relation header name)
        ((Plan.relation notes base).overlay header.origin span header.metadata)
  | table {header : Header} {span : SourceSpan} {inline : Table} {base : Relation}
      (hbase : inline.relation = .ok base) (hspan : header.origin.span = some span) :
      Lowered catalog (.table header inline)
        ((Plan.relation (Table.notes span) base).overlay header.origin span header.metadata)
  | unary {header : Header} {span : SourceSpan} {op : AlgebraUnary} {made : UnaryOp}
      {child : Algebra} {p : Plan} (hmade : op.operator = .ok made)
      (below : Lowered catalog child p)
      (hspan : header.origin.span = some span) :
      Lowered catalog (.unary header op child)
        ((Plan.unary {} made p).overlay header.origin span header.metadata)
  | binary {header : Header} {span : SourceSpan} {op : AlgebraBinary} {made : BinaryOp}
      {left right : Algebra} {p q : Plan} (hmade : op.operator = .ok made)
      (leftBelow : Lowered catalog left p) (rightBelow : Lowered catalog right q)
      (hspan : header.origin.span = some span) :
      Lowered catalog (.binary header op left right)
        ((Plan.binary {} made p q).overlay header.origin span header.metadata)

variable {catalog : Catalog}

/-- Lowering a SQL query yields lowered forms of it only. -/
theorem Sql.lowered_of_lower {settings : Settings} {q : Sql} {p : Plan}
    (h : (q.lower catalog settings).result = .ok p) : Lowered catalog settings.verbose q p := by
  induction q generalizing p with
  | relation origin name relAlias =>
      simp only [lower, Traced.result_bind, Traced.result_lift, result_lookUp] at h
      obtain ⟨found, hfound, hrest⟩ := bind_eq_ok.mp h
      obtain ⟨notes, base, rfl, hfind⟩ := find?_of_relationNamed hfound
      obtain ⟨plan, haliased, hplan⟩ := bind_eq_ok.mp hrest
      obtain ⟨span, hspan, rfl⟩ := Plan.annotate_eq_ok.mp hplan
      unfold aliased at haliased
      split at haliased
      · simp only [Origin.require, hspan, ok_bind] at haliased
        cases haliased
        exact .aliased hfind hspan
      · cases haliased
        exact .relation hfind hspan
  | statement origin clauses source ih =>
      simp only [lower, Traced.result_bind, Traced.result_lift] at h
      obtain ⟨plan, hplan, h⟩ := bind_eq_ok.mp h
      obtain ⟨statement, hstatement, h⟩ := bind_eq_ok.mp h
      obtain ⟨applied, happlied, rfl⟩ := clauses.applied_of_lower hstatement
      obtain ⟨span, hspan, rfl⟩ := Plan.annotate_eq_ok.mp h
      exact .statement (ih hplan) happlied hspan
  | unary origin op child ih =>
      simp only [lower, Traced.result_bind, Traced.result_lift] at h
      obtain ⟨plan, hplan, h⟩ := bind_eq_ok.mp h
      obtain ⟨made, hmade⟩ := op.exists_operator hplan
      rw [op.result_lower hmade] at hplan
      obtain ⟨input, hinput, rfl⟩ := map_eq_ok.mp hplan
      obtain ⟨span, hspan, rfl⟩ := Plan.annotate_eq_ok.mp h
      exact .unary hmade (ih hinput) hspan
  | binary origin op left right ihl ihr =>
      simp only [lower, Traced.result_bind, Traced.result_lift] at h
      obtain ⟨plan, hplan, h⟩ := bind_eq_ok.mp h
      obtain ⟨made, hmade⟩ := op.exists_operator hplan
      rw [op.result_lower hmade] at hplan
      obtain ⟨leftPlan, hleft, hplan⟩ := bind_eq_ok.mp hplan
      obtain ⟨rightPlan, hright, rfl⟩ := map_eq_ok.mp hplan
      obtain ⟨span, hspan, rfl⟩ := Plan.annotate_eq_ok.mp h
      exact .binary hmade (ihl hleft) (ihr hright) hspan

/-- Lowering an algebra query yields lowered forms of it only. -/
theorem Algebra.lowered_of_lower {verbose : Bool} {q : Algebra} {p : Plan}
    (h : (q.lower catalog verbose).result = .ok p) : Lowered catalog q p := by
  induction q generalizing p with
  | relation header name =>
      simp only [lower, Header.annotate, Traced.result_bind, Traced.result_lift, result_lookUp] at h
      obtain ⟨plan, hplan, h⟩ := bind_eq_ok.mp h
      obtain ⟨notes, base, rfl, hfind⟩ := find?_of_relationNamed hplan
      obtain ⟨span, hspan, rfl⟩ := Plan.annotate_eq_ok.mp h
      exact .relation hfind hspan
  | table header inline =>
      simp only [lower, Header.annotate, Traced.result_bind, Traced.result_lift,
        inline.result_lower] at h
      obtain ⟨plan, hplan, h⟩ := bind_eq_ok.mp h
      obtain ⟨span, hspan, rfl⟩ := Plan.annotate_eq_ok.mp h
      obtain ⟨base, hbase, hplan⟩ := bind_eq_ok.mp hplan
      simp only [Origin.require, hspan, ok_bind] at hplan
      cases hplan
      exact .table hbase hspan
  | unary header op child ih =>
      simp only [lower, Header.annotate, Traced.result_bind, Traced.result_lift] at h
      obtain ⟨plan, hplan, h⟩ := bind_eq_ok.mp h
      obtain ⟨made, hmade⟩ := op.exists_operator hplan
      rw [op.result_lower hmade] at hplan
      obtain ⟨input, hinput, rfl⟩ := map_eq_ok.mp hplan
      obtain ⟨span, hspan, rfl⟩ := Plan.annotate_eq_ok.mp h
      exact .unary hmade (ih hinput) hspan
  | binary header op left right ihl ihr =>
      simp only [lower, Header.annotate, Traced.result_bind, Traced.result_lift] at h
      obtain ⟨plan, hplan, h⟩ := bind_eq_ok.mp h
      obtain ⟨made, hmade⟩ := op.exists_operator hplan
      rw [op.result_lower hmade] at hplan
      obtain ⟨leftPlan, hleft, hplan⟩ := bind_eq_ok.mp hplan
      obtain ⟨rightPlan, hright, rfl⟩ := map_eq_ok.mp hplan
      obtain ⟨span, hspan, rfl⟩ := Plan.annotate_eq_ok.mp h
      exact .binary hmade (ihl hleft) (ihr hright) hspan

/-- Compiling a SQL query yields lowered forms of it only. -/
theorem Sql.lowered_of_compile {settings : Settings} {q : Sql} {p : Plan}
    (h : (q.compile catalog settings).result = .ok p) : Lowered catalog settings.verbose q p := by
  simp only [compile, Traced.result_bind, Traced.result_lift] at h
  obtain ⟨plan, hplan, h⟩ := bind_eq_ok.mp h
  cases Plan.eq_of_verifiedIf h
  exact lowered_of_lower hplan

/-- Compiling an algebra query yields lowered forms of it only. -/
theorem Algebra.lowered_of_compile {settings : Settings} {q : Algebra} {p : Plan}
    (h : (q.compile catalog settings).result = .ok p) : Lowered catalog q p := by
  simp only [compile, Traced.result_bind, Traced.result_lift] at h
  obtain ⟨plan, hplan, h⟩ := bind_eq_ok.mp h
  cases Plan.eq_of_verifiedIf h
  exact lowered_of_lower hplan

end Query

end LogicalPlan
