import LogicalPlan.Document.Algebra
import LogicalPlan.Document.Sql

/-!
# Canonical parser documents

Every query has a document that a parser would hand over for it: an object for each node with a type
tag and attributes in camel case. A `Style` makes the choices that the grammars leave open: whether
the end points of a position are nested in a location, whether the entries of an ordering are
wrapped in an object, and which attributes are left out when they have their default value.

## Implementation notes

The two grammars name some attributes differently: the qualifier of a join is `cond` in SQL and
`arg` in relational algebra. Nodes of relational algebra have metadata beside their origin.
-/

namespace LogicalPlan

namespace Document

open Query

/-- An attribute of a document, with the value that it has when it is missing, if it may be. -/
structure Attribute where
  key : String
  value : Value
  missing : Option Value

/-- An attribute that has to be there. -/
def Attribute.required (key : String) (value : Value) : Attribute :=
  ⟨key, value, none⟩

/-- An attribute that has a default value. -/
def Attribute.optional (key : String) (value missing : Value) : Attribute :=
  ⟨key, value, some missing⟩

/-- The choices that the grammars leave to the writer of a document. -/
structure Style where
  /-- The end points of the position stand in a location object. -/
  nestsLocation : SourceSpan → Bool
  /-- The entries of the ordering stand in an object. -/
  wrapsOrder : List OrderEntry → Bool
  /-- The attribute is left out if it has its default value. -/
  omits : String → Bool

namespace Style

variable (style : Style)

/-- The attribute is written down. -/
def shows (a : Attribute) : Bool :=
  !(style.omits a.key && a.missing == some a.value)

/-- The attributes that are written down, as the members of an object. -/
def members (attributes : List Attribute) : Members :=
  (attributes.filter style.shows).map fun a => (.string a.key, a.value)

/-- The attributes as an object. -/
def object (attributes : List Attribute) : Value :=
  .object (style.members attributes)

open Attribute

/-! ### Parts that both grammars share -/

/-- A point of the source text. -/
def point (p : SourcePoint) : Value :=
  style.object [optional "offset" p.offset (.int 0), optional "line" p.line (.int 1),
    optional "column" p.column (.int 1)]

/-- The two end points of a position. -/
def endPoints (s : SourceSpan) : List Attribute :=
  [required "start" (style.point s.start), required "end" (style.point s.stop)]

/-- A position. -/
def span (s : SourceSpan) : Value :=
  let text := optional "text" s.text (.string "")
  if style.nestsLocation s then
    style.object [text, required "location" (style.object (style.endPoints s))]
  else style.object (text :: style.endPoints s)

/-- The attributes that every node has. -/
def origin (o : Origin) : List Attribute :=
  [optional "codeInfo" ((o.span.map style.span).getD .null) .null,
    optional "wrappedInParentheses" (.bool o.parenthesized) (.bool false)]

/-- A node with a type tag. -/
def node (type : String) (attributes : List Attribute) (o : Origin) : Value :=
  style.object (required "type" (.string type) :: attributes ++ style.origin o)

mutual

/-- A value expression. -/
def term : Term → Value
  | .mk o datatype func args =>
    style.node "valueExpr" [required "datatype" datatype, required "func" func,
      optional "args" (.list (arguments args)) (.list [])] o

/-- An argument of a value expression. -/
def argument : TermArgument → Value
  | .literal v => v
  | .nested t => term t

/-- The arguments of a value expression. -/
def arguments : List TermArgument → List Value
  | [] => []
  | a :: as => argument a :: arguments as

end

/-- A column reference; a missing one is null. -/
def column : Option ColumnRef → Value
  | none => .null
  | some c =>
    style.node "columnName" [required "name" c.name, optional "relAlias" c.relAlias .null] c.origin

/-- A computed column. -/
def computed (c : ComputedColumn) : Value :=
  style.node "namedColumnExpr" [required "name" c.name, optional "relAlias" c.relAlias .null,
    required "child" (style.term c.child)] c.origin

/-- A call of an aggregate function. -/
def aggregate (call : AggregateCall) : Value :=
  style.node "aggFunction" [required "aggFunction" call.function,
    optional "col" (style.column call.column) .null, required "name" call.name] call.origin

/-- An entry of an ordering. -/
def orderEntry (entry : OrderEntry) : Value :=
  style.object ([required "col" (style.column entry.column),
    optional "asc" (.bool entry.ascending) (.bool true)] ++ style.origin entry.origin)

/-- An ordering. -/
def order (entries : List OrderEntry) : Value :=
  let written := Value.list (entries.map style.orderEntry)
  if style.wrapsOrder entries then style.object [required "value" written] else written

/-- The qualifier of a join: nothing, a list of columns or an expression. -/
def qualifier : JoinQualifier → Value
  | .absent => .null
  | .columns names => .list names
  | .condition t => style.term t

/-! ### SQL -/

/-- An entry of a SELECT list. -/
def selectItem : SelectItem → Value
  | .column o name relAlias label =>
    style.node "column" [required "name" name, optional "relAlias" relAlias .null,
      optional "alias" label .null] o
  | .aggregate call => style.aggregate call
  | .computed c => style.computed c

/-- A SELECT clause. -/
def select (clause : SelectClause) : Value :=
  style.object ([optional "distinct" (.bool clause.distinct) (.bool false),
    required "arg" (.list (clause.items.map style.selectItem))] ++ style.origin clause.origin)

/-- A WHERE or HAVING clause; a missing one is null. -/
def condition : Option ConditionClause → Value
  | none => .null
  | some clause =>
    style.object (required "arg" (style.term clause.condition) :: style.origin clause.origin)

/-- The grouping columns; null if there is no grouping. -/
def groupBy : Option (List (Option ColumnRef)) → Value
  | none => .null
  | some columns => .list (columns.map style.column)

/-- The attributes of a statement beside its FROM clause. -/
def clauses (c : Clauses) : List Attribute :=
  [required "select" (style.select c.select), optional "where" (style.condition c.filter) .null,
    optional "groupBy" (style.groupBy c.groupBy) .null,
    optional "having" (style.condition c.having) .null,
    optional "numAggregationColumns" c.aggregateCount (.int 0)]

/-- The type tag of a unary SQL node, the key of its input and its own attributes. -/
def sqlUnary : SqlUnary → String × String × List Attribute
  | .renameRelation relAlias => ("renameRelation", "child", [required "newRelAlias" relAlias])
  | .subquery relAlias => ("relationFromSubstatement", "statement", [required "relAlias" relAlias])
  | .orderBy entries => ("orderBy", "child", [required "arg" (style.order entries)])
  | .limit count offset =>
    ("limit", "child", [required "limit" count, optional "offset" offset (.int 0)])

/-- The type tag of a binary SQL node and its own attributes. -/
def sqlBinary : SqlBinary → String × List Attribute
  | .join .inner q => ("innerJoin", [optional "cond" (style.qualifier q) .null])
  | .join .leftOuter q => ("leftOuterJoin", [optional "cond" (style.qualifier q) .null])
  | .join .rightOuter q => ("rightOuterJoin", [optional "cond" (style.qualifier q) .null])
  | .join .fullOuter q => ("fullOuterJoin", [optional "cond" (style.qualifier q) .null])
  | .cross => ("crossJoin", [])
  | .natural => ("naturalJoin", [])
  | .set .union keepsAll => ("union", [optional "all" (.bool keepsAll) (.bool false)])
  | .set .intersect keepsAll => ("intersect", [optional "all" (.bool keepsAll) (.bool false)])
  | .set .difference keepsAll => ("except", [optional "all" (.bool keepsAll) (.bool false)])

/-- The canonical document of a SQL query. -/
def sql : Sql → Value
  | .relation o name relAlias =>
    style.node "relation" [required "name" name, optional "relAlias" relAlias .null] o
  | .statement o c source =>
    style.node "statement" (required "from" (sql source) :: style.clauses c) o
  | .unary o op child =>
    let (type, key, attributes) := style.sqlUnary op
    style.node type (required key (sql child) :: attributes) o
  | .binary o op left right =>
    let (type, attributes) := style.sqlBinary op
    style.node type (required "child" (sql left) :: required "child2" (sql right) :: attributes) o

/-! ### Relational algebra -/

/-- A declared column of an inline relation. -/
def tableColumn (c : TableColumn) : Value :=
  style.object [required "name" c.name, optional "relAlias" c.relAlias .null,
    optional "type" c.type (.string "null")]

/-- The attributes of an inline relation. -/
def table (t : Table) : List Attribute :=
  [required "name" t.name, required "columns" (.list (t.columns.map style.tableColumn)),
    optional "rows" (.list (t.rows.map Value.list)) (.list [])]

/-- An entry of a projection. -/
def projectionEntry : ProjectionEntry → Value
  | .column ref => style.column (some ref)
  | .computed c => style.computed c

/-- A column and its new name. -/
def columnRenaming (r : ColumnRenaming) : Value :=
  style.object [required "src" (style.column r.source), required "dst" r.target]

/-- The type tag of a unary algebra node and its own attributes. -/
def algebraUnary : AlgebraUnary → String × List Attribute
  | .selection t => ("selection", [required "arg" (style.term t)])
  | .projection entries =>
    ("projection", [required "arg" (.list (entries.map style.projectionEntry))])
  | .orderBy entries => ("orderBy", [required "arg" (style.order entries)])
  | .groupBy groups aggregates =>
    ("groupBy", [optional "group" (.list (groups.map style.column)) (.list []),
      optional "aggregate" (.list (aggregates.map style.aggregate)) (.list [])])
  | .renameColumns renamings =>
    ("renameColumns", [required "arg" (.list (renamings.map style.columnRenaming))])
  | .renameRelation relAlias => ("renameRelation", [required "newRelAlias" relAlias])

/-- The type tag of a binary algebra node and its own attributes. -/
def algebraBinary : AlgebraBinary → String × List Attribute
  | .union => ("union", [])
  | .intersect => ("intersect", [])
  | .difference => ("difference", [])
  | .division => ("division", [])
  | .theta t => ("thetaJoin", [required "arg" (style.term t)])
  | .cross => ("crossJoin", [])
  | .natural => ("naturalJoin", [])
  | .leftSemi => ("leftSemiJoin", [])
  | .rightSemi => ("rightSemiJoin", [])
  | .anti => ("antiJoin", [])
  | .outer .left q => ("leftOuterJoin", [optional "arg" (style.qualifier q) .null])
  | .outer .right q => ("rightOuterJoin", [optional "arg" (style.qualifier q) .null])
  | .outer .full q => ("fullOuterJoin", [optional "arg" (style.qualifier q) .null])

/-- A node of relational algebra, with its metadata. -/
def algebraNode (type : String) (attributes : List Attribute) (header : Header) : Value :=
  style.node type (optional "metaData" (.object header.metadata) (.object []) :: attributes)
    header.origin

/-- The canonical document of a relational algebra query. -/
def algebra : Algebra → Value
  | .relation header name => style.algebraNode "relation" [required "name" name] header
  | .table header inline => style.algebraNode "table" (style.table inline) header
  | .unary header op child =>
    let (type, attributes) := style.algebraUnary op
    style.algebraNode type (required "child" (algebra child) :: attributes) header
  | .binary header op left right =>
    let (type, attributes) := style.algebraBinary op
    style.algebraNode type
      (required "child" (algebra left) :: required "child2" (algebra right) :: attributes) header

end Style

end Document

end LogicalPlan
