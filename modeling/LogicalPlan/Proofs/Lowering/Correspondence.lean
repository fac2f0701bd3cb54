import LogicalPlan.Proofs.Lowering.Shape
import LogicalPlan.Proofs.Query.WellFormed

/-!
# Operators of algebra queries

The native grammar has one node for each operator, so an algebra query and its plan have the same
shape. `Denotes` says for every part of a node which part of an operator it stands for. It is a
table of the grammar that does not mention how a query is lowered, except for value expressions.
`Algebra.Corresponds` extends it to whole queries, and `Algebra.compile_corresponds` shows that the
nodes of a query correspond to those of its plan, position by position in preorder.
-/

namespace LogicalPlan

open Outcome

namespace Query

namespace Algebra

/-- The inputs of the root from left to right. -/
def children : Algebra → List Algebra
  | .relation _ _ | .table _ _ => []
  | .unary _ _ child => [child]
  | .binary _ _ left right => [left, right]

/-- All nodes as subtrees in preorder. -/
def nodes : Algebra → List Algebra
  | .relation header name => [.relation header name]
  | .table header inline => [.table header inline]
  | .unary header op child => .unary header op child :: child.nodes
  | .binary header op left right => .binary header op left right :: (left.nodes ++ right.nodes)

end Algebra

/-! ### Parts of operators -/

/-- The reference stands for the column: its name, and its alias unless that is empty. -/
def ColumnRef.Denotes (ref : ColumnRef) (c : Column) : Prop :=
  c.name = ref.name ∧ c.relAlias = if ref.relAlias.isTruthy then ref.relAlias else .null

/-- The column of a sort entry or of a grouping is there and stands for the column. -/
def ColumnRef.DenotesSome (ref : Option ColumnRef) (c : Column) : Prop :=
  ∃ given, ref = some given ∧ given.Denotes c

/-- The sort entry stands for the sort key. -/
def OrderEntry.Denotes (entry : OrderEntry) (key : SortKey) : Prop :=
  ColumnRef.DenotesSome entry.column key.column ∧ key.ascending = .bool entry.ascending

/-- The call stands for the aggregate. -/
def AggregateCall.Denotes (call : AggregateCall) (a : Aggregate) : Prop :=
  a.function = call.function ∧ a.name = call.name ∧
    Option.Rel ColumnRef.Denotes call.column a.column

/-- The column with its new name stands for the renaming. -/
def ColumnRenaming.Denotes (entry : ColumnRenaming) (r : Renaming) : Prop :=
  r.newName = entry.target ∧ ColumnRef.DenotesSome entry.source r.column

/-- The entry of a projection stands for the projected column. -/
inductive ProjectionEntry.Denotes : ProjectionEntry → ProjectionItem → Prop
  | column {ref : ColumnRef} {c : Column} (href : ref.Denotes c) : Denotes (.column ref) (.column c)
  | computed {given : ComputedColumn} {e : Expr} (hchild : given.child.lower = .ok e) :
      Denotes (.computed given) (.computed given.name given.relAlias e)

/-- The qualifier stands for the join condition in its normalized form. -/
inductive JoinQualifier.Denotes : JoinQualifier → JoinCondition → Prop
  | absent : Denotes .absent (.natural none)
  | columns (names : List Value) : Denotes (.columns names) (.natural (some names))
  | condition {t : Term} {e : Expr} (ht : t.lower = .ok e) : Denotes (.condition t) (.theta e)

/-- The node over one input stands for the operator. -/
inductive AlgebraUnary.Denotes : AlgebraUnary → UnaryOp → Prop
  | selection {t : Term} {e : Expr} (ht : t.lower = .ok e) : Denotes (.selection t) (.selection e)
  | projection {entries : List ProjectionEntry} {columns : List ProjectionItem}
      (h : List.Forall₂ ProjectionEntry.Denotes entries columns) :
      Denotes (.projection entries) (.projection columns)
  | orderBy {entries : List OrderEntry} {keys : List SortKey}
      (h : List.Forall₂ OrderEntry.Denotes entries keys) :
      Denotes (.orderBy entries) (.orderBy keys)
  | groupBy {refs : List (Option ColumnRef)} {groups : List Column} {calls : List AggregateCall}
      {aggregates : List Aggregate} (hgroups : List.Forall₂ ColumnRef.DenotesSome refs groups)
      (haggregates : List.Forall₂ AggregateCall.Denotes calls aggregates) :
      Denotes (.groupBy refs calls) (.groupBy groups aggregates)
  | renameColumns {entries : List ColumnRenaming} {renamings : List Renaming}
      (h : List.Forall₂ ColumnRenaming.Denotes entries renamings) :
      Denotes (.renameColumns entries) (.renameColumns renamings)
  | renameRelation (relAlias : Value) :
      Denotes (.renameRelation relAlias) (.renameRelation relAlias)

/-- The node over two inputs stands for the operator. -/
inductive AlgebraBinary.Denotes : AlgebraBinary → BinaryOp → Prop
  | union : Denotes .union .union
  | intersect : Denotes .intersect .intersect
  | difference : Denotes .difference .difference
  | division : Denotes .division .division
  | cross : Denotes .cross .cross
  | theta {t : Term} {e : Expr} (ht : t.lower = .ok e) :
      Denotes (.theta t) (.join .inner (.theta e))
  | natural : Denotes .natural (.join .inner (.natural none))
  | leftSemi : Denotes .leftSemi (.semi true)
  | rightSemi : Denotes .rightSemi (.semi false)
  | anti : Denotes .anti .anti
  | leftOuter {qualifier : JoinQualifier} {condition : JoinCondition}
      (h : qualifier.Denotes condition) :
      Denotes (.outer .left qualifier) (.join .leftOuter condition)
  | rightOuter {qualifier : JoinQualifier} {condition : JoinCondition}
      (h : qualifier.Denotes condition) :
      Denotes (.outer .right qualifier) (.join .rightOuter condition)
  | fullOuter {qualifier : JoinQualifier} {condition : JoinCondition}
      (h : qualifier.Denotes condition) :
      Denotes (.outer .full qualifier) (.join .fullOuter condition)

theorem ColumnRef.denotes_of_lower {ref : ColumnRef} {c : Column} (h : ref.lower = .ok c) :
    ref.Denotes c := by
  rw [Column.eq_of_make h]
  exact ⟨rfl, rfl⟩

theorem ColumnRef.denotesSome_of_lower {ref : Option ColumnRef} {c : Column}
    (h : lowerColumn ref = .ok c) : ColumnRef.DenotesSome ref c := by
  cases ref with
  | none => cases h
  | some given => exact ⟨given, rfl, given.denotes_of_lower h⟩

theorem AggregateCall.denotes_of_lower {call : AggregateCall} {a : Aggregate}
    (h : call.lower = .ok a) : call.Denotes a := by
  obtain ⟨column, hcolumn, h⟩ := bind_eq_ok.mp h
  cases h
  refine ⟨rfl, rfl, ?_⟩
  cases hgiven : call.column with
  | none =>
      rw [hgiven] at hcolumn
      cases hcolumn
      exact .none
  | some ref =>
      rw [hgiven, Option.mapM_some] at hcolumn
      obtain ⟨c, hc, rfl⟩ := map_eq_ok.mp hcolumn
      exact .some (ref.denotes_of_lower hc)

theorem ProjectionEntry.denotes_of_lower {entry : ProjectionEntry} {item : ProjectionItem}
    (h : entry.lower = .ok item) : entry.Denotes item := by
  cases entry with
  | column ref =>
      obtain ⟨c, hc, rfl⟩ := map_eq_ok.mp h
      exact .column (ref.denotes_of_lower hc)
  | computed given =>
      obtain ⟨e, he, h⟩ := bind_eq_ok.mp h
      cases h
      exact .computed he

theorem OrderEntry.denotes_of_lowerOrder {entries : List OrderEntry} {keys : List SortKey}
    (h : lowerOrder entries = .ok keys) : List.Forall₂ OrderEntry.Denotes entries keys := by
  refine (mapM_eq_ok.mp h).imp ?_
  intro entry key hkey
  obtain ⟨c, hc, hkey⟩ := bind_eq_ok.mp hkey
  cases hkey
  exact ⟨ColumnRef.denotesSome_of_lower hc, rfl⟩

theorem ColumnRenaming.denotes_of_lower {entry : ColumnRenaming} {r : Renaming}
    (h : entry.lower = .ok r) : entry.Denotes r := by
  obtain ⟨c, hc, h⟩ := bind_eq_ok.mp h
  cases h
  exact ⟨rfl, ColumnRef.denotesSome_of_lower hc⟩

theorem JoinQualifier.denotes_of_lower {qualifier : JoinQualifier} {condition : JoinCondition}
    (h : qualifier.lower = .ok condition) : qualifier.Denotes condition := by
  cases qualifier with
  | absent =>
      cases h
      exact .absent
  | columns names =>
      cases h
      exact .columns names
  | condition t =>
      obtain ⟨e, he, rfl⟩ := map_eq_ok.mp h
      exact .condition he

/-- Every node over one input is lowered to the operator that it stands for. -/
theorem AlgebraUnary.denotes_of_operator {op : AlgebraUnary} {made : UnaryOp}
    (h : op.operator = .ok made) : op.Denotes made := by
  cases op with
  | selection t =>
      obtain ⟨e, he, rfl⟩ := map_eq_ok.mp h
      exact .selection he
  | projection entries =>
      obtain ⟨columns, hcolumns, rfl⟩ := map_eq_ok.mp h
      exact .projection ((mapM_eq_ok.mp hcolumns).imp fun _ _ => ProjectionEntry.denotes_of_lower)
  | orderBy entries =>
      obtain ⟨keys, hkeys, rfl⟩ := map_eq_ok.mp h
      exact .orderBy (OrderEntry.denotes_of_lowerOrder hkeys)
  | groupBy refs calls =>
      obtain ⟨aggregates, haggregates, h⟩ := bind_eq_ok.mp h
      obtain ⟨groups, hgroups, h⟩ := bind_eq_ok.mp h
      cases h
      refine .groupBy ?_ ?_
      · exact (mapM_eq_ok.mp hgroups).imp fun _ _ => ColumnRef.denotesSome_of_lower
      · exact (mapM_eq_ok.mp haggregates).imp fun _ _ => AggregateCall.denotes_of_lower
  | renameColumns entries =>
      obtain ⟨renamings, hrenamings, rfl⟩ := map_eq_ok.mp h
      exact .renameColumns
        ((mapM_eq_ok.mp hrenamings).imp fun _ _ => ColumnRenaming.denotes_of_lower)
  | renameRelation relAlias =>
      cases h
      exact .renameRelation relAlias

/-- Every node over two inputs is lowered to the operator that it stands for. -/
theorem AlgebraBinary.denotes_of_operator {op : AlgebraBinary} {made : BinaryOp}
    (h : op.operator = .ok made) : op.Denotes made := by
  cases op with
  | theta t =>
      obtain ⟨e, he, rfl⟩ := map_eq_ok.mp h
      exact .theta he
  | outer side qualifier =>
      obtain ⟨condition, hcondition, rfl⟩ := map_eq_ok.mp h
      have denoted := JoinQualifier.denotes_of_lower hcondition
      cases side with
      | left => exact .leftOuter denoted
      | right => exact .rightOuter denoted
      | full => exact .fullOuter denoted
  | _ =>
      cases h
      constructor

/-! ### Queries -/

/-- The notes are those of a node with the header whose operator brings along some metadata: the
position and the parentheses of the node, and its metadata laid over the given ones. -/
def Header.Annotates (header : Header) (base : Members) (notes : Notes) : Prop :=
  notes.span = header.origin.span ∧ notes.parenthesized = header.origin.parenthesized ∧
    notes.metadata = base.merge header.metadata ∧ notes.warnings = []

/-- The metadata that tell an inline relation from others and quote its definition. -/
def Table.marks (text : Value) : Members :=
  Members.ofFields [("isInlineRelation", .bool true), ("inlineRelationDefinition", text)]

/-- The query and the plan have the same shape, each node stands for the operator at its place, and
the name of a relation for the relation that the catalog has for it. -/
inductive Algebra.Corresponds (catalog : Catalog) : Algebra → Plan → Prop
  | relation {header : Header} {name : Value} {notes : Notes} {base : Relation}
      (hfind : catalog.find? name = some (.relation {} base))
      (hnotes : header.Annotates [] notes) :
      Corresponds catalog (.relation header name) (.relation notes base)
  | table {header : Header} {inline : Table} {notes : Notes} {span : SourceSpan} {base : Relation}
      (hbase : inline.relation = .ok base) (hspan : header.origin.span = some span)
      (hnotes : header.Annotates (Table.marks span.text) notes) :
      Corresponds catalog (.table header inline) (.relation notes base)
  | unary {header : Header} {op : AlgebraUnary} {child : Algebra} {notes : Notes} {made : UnaryOp}
      {input : Plan} (hop : op.Denotes made) (hnotes : header.Annotates [] notes)
      (below : Corresponds catalog child input) :
      Corresponds catalog (.unary header op child) (.unary notes made input)
  | binary {header : Header} {op : AlgebraBinary} {left right : Algebra} {notes : Notes}
      {made : BinaryOp} {leftInput rightInput : Plan} (hop : op.Denotes made)
      (hnotes : header.Annotates [] notes) (leftBelow : Corresponds catalog left leftInput)
      (rightBelow : Corresponds catalog right rightInput) :
      Corresponds catalog (.binary header op left right) (.binary notes made leftInput rightInput)

theorem Header.annotates_overlay {header : Header} {span : SourceSpan} (base : Members)
    (h : header.origin.span = some span) :
    header.Annotates base
      (Notes.overlay { metadata := base } span header.origin.parenthesized header.metadata) := by
  refine ⟨h.symm, ?_, rfl, rfl⟩
  simp [Notes.overlay]

namespace Algebra

variable {catalog : Catalog}

/-- A lowered form of a query has the shape of the query. -/
theorem Lowered.corresponds (hcatalog : ∀ entry ∈ catalog, entry.2.1 = {}) {q : Algebra} {p : Plan}
    (h : Lowered catalog q p) : Corresponds catalog q p := by
  induction h with
  | relation hfind hspan =>
      obtain ⟨_, hmem⟩ := Catalog.mem_of_find? hfind
      cases hcatalog _ hmem
      exact .relation hfind (Header.annotates_overlay [] hspan)
  | table hbase hspan => exact .table hbase hspan (Header.annotates_overlay _ hspan)
  | unary hmade _ hspan below =>
      exact .unary (AlgebraUnary.denotes_of_operator hmade) (Header.annotates_overlay [] hspan)
        below
  | binary hmade _ _ hspan leftBelow rightBelow =>
      exact .binary (AlgebraBinary.denotes_of_operator hmade) (Header.annotates_overlay [] hspan)
        leftBelow rightBelow

/-- The inputs of a node correspond to those of its operator in order. -/
theorem Corresponds.children {q : Algebra} {p : Plan} (h : Corresponds catalog q p) :
    List.Forall₂ (Corresponds catalog) q.children p.children := by
  cases h with
  | relation => exact .nil
  | table => exact .nil
  | unary _ _ below => exact .cons below .nil
  | binary _ _ leftBelow rightBelow => exact .cons leftBelow (.cons rightBelow .nil)

/-- Queries and plans of the same shape have the same nodes in preorder. -/
theorem Corresponds.nodes {q : Algebra} {p : Plan} (h : Corresponds catalog q p) :
    List.Forall₂ (Corresponds catalog) q.nodes p.walk := by
  induction h with
  | relation hfind hnotes => exact .cons (.relation hfind hnotes) .nil
  | table hbase hspan hnotes => exact .cons (.table hbase hspan hnotes) .nil
  | unary hop hnotes below ih => exact .cons (.unary hop hnotes below) ih
  | binary hop hnotes leftBelow rightBelow ihl ihr =>
      exact .cons (.binary hop hnotes leftBelow rightBelow) (List.rel_append ihl ihr)

/-- The nodes of a compiled algebra query and the operators of its plan correspond one to one in
preorder: operator, inputs, position, parentheses and metadata. -/
theorem compile_corresponds (hcatalog : ∀ entry ∈ catalog, entry.2.1 = {}) {q : Algebra}
    {settings : Settings} {p : Plan} (h : (q.compile catalog settings).result = .ok p) :
    List.Forall₂ (fun node op => Corresponds catalog node op ∧
      List.Forall₂ (Corresponds catalog) node.children op.children) q.nodes p.walk := by
  have shape := (lowered_of_compile h).corresponds hcatalog
  exact shape.nodes.imp fun _ _ below => ⟨below, below.children⟩

end Algebra

namespace Sample

/-- An inline relation `T(c)` with one row. -/
def inline : Table where
  name := .string "T"
  columns := [⟨.string "c", .null, .string "number"⟩]
  rows := [[.int 1]]

/-- The condition `a = c`. -/
def condition : Term :=
  .mk origin (.string "boolean") (.string "=")
    [.nested (.mk origin (.string "null") Term.columnName [.literal (.string "a")]),
      .nested (.mk origin (.string "null") Term.columnName [.literal (.string "c")])]

/-- A join of a relation with an inline relation that has metadata of its own. -/
def joined : Algebra :=
  .binary { origin } (.theta condition) (.relation { origin } (.string "R"))
    (.table { origin, metadata := [(.string "hint", .int 2)] } inline)

end Sample

/-- The join and its two relations correspond to the three operators of its plan. -/
theorem Sample.compile_corresponds_joined :
    (∀ entry ∈ catalog, entry.2.1 = {}) ∧
      ∃ p, (joined.compile catalog {}).result = .ok p ∧ joined.nodes.length = 3 ∧
        List.Forall₂ (fun node op => Algebra.Corresponds catalog node op ∧
          List.Forall₂ (Algebra.Corresponds catalog) node.children op.children)
          joined.nodes p.walk := by
  have plain : ∀ entry ∈ catalog, entry.2.1 = {} := by decide
  obtain ⟨p, hp⟩ : ∃ p, (joined.compile catalog {}).result = .ok p := ⟨_, rfl⟩
  exact ⟨plain, p, hp, rfl, Algebra.compile_corresponds plain hp⟩

end Query

end LogicalPlan
