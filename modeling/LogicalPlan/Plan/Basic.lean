import LogicalPlan.Expr.Text
import LogicalPlan.Schema

/-!
# Plans

A plan is a tree of relational operators over base relations. Operators are split by arity: a plan
is a base relation, a unary operator over one plan or a binary operator over two plans. Every node
carries notes: its position, declared metadata, warnings and whether it stood in parentheses.

## Implementation notes

Plans are values, so a subtree cannot be shared by identity and no node can change through another
plan. Shared nodes are the business of node stores.
-/

namespace LogicalPlan

/-- An advisory remark about a part of a query. -/
structure Warning where
  key : String
  span : Option SourceSpan
  params : Members
  deriving DecidableEq, Inhabited

/-- The key can name a parameter of a warning: it is a text that names neither the node itself nor a
part of the warning. -/
def Warning.isParameterName : Value → Bool
  | .string s => s ∉ ["self", "message_key", "code_info"]
  | _ => false

/-- The warning with the given parameters, which form an object of named values. -/
def Warning.make (key : String) (span : Option SourceSpan) (params : Value) : Outcome Warning :=
  match params with
  | .object members =>
    if members.all fun m => isParameterName m.1 then .ok ⟨key, span, members⟩ else wrongType
  | v => if v.isTruthy then wrongType else .ok ⟨key, span, []⟩

/-- What is noted at a node of a plan beside its operator. -/
structure Notes where
  span : Option SourceSpan := none
  metadata : Members := []
  warnings : List Warning := []
  parenthesized : Bool := false
  deriving DecidableEq, Inhabited

/-- The qualifier of a join. -/
inductive JoinCondition where
  /-- Shared columns agree; if columns are listed, only these are compared. -/
  | natural (columns : Option (List Value))
  /-- An arbitrary condition holds. -/
  | theta (condition : Expr)
  /-- A value that qualifies no join. It is refused as soon as a schema is derived. -/
  | unknown (v : Value)
  deriving DecidableEq, Inhabited

/-- An entry of a projection: a column of the input or a computed column. -/
inductive ProjectionItem where
  | column (c : Column)
  | computed (name relAlias : Value) (child : Expr)
  deriving DecidableEq, Inhabited

/-- An aggregate function with the name of its output column. -/
structure Aggregate where
  function : Value
  column : Option Column
  name : Value
  deriving DecidableEq, Inhabited

/-- A new name for a column. -/
structure Renaming where
  newName : Value
  column : Column
  deriving DecidableEq, Inhabited

/-- A column to sort by and whether it ascends. -/
structure SortKey where
  column : Column
  ascending : Value
  deriving DecidableEq, Inhabited

/-- A base relation. -/
structure Relation where
  name : Value
  schema : Option Schema := none
  rows : List (List Value) := []
  deriving DecidableEq, Inhabited

/-- The operators with one input. -/
inductive UnaryOp where
  | selection (condition : Expr)
  | projection (columns : List ProjectionItem)
  | orderBy (keys : List SortKey)
  | groupBy (groups : List Column) (aggregates : List Aggregate)
  | renameColumns (renamings : List Renaming)
  | renameRelation (relAlias : Value)
  deriving DecidableEq, Inhabited

/-- The joins that are qualified by a condition. -/
inductive JoinKind where
  | inner
  | leftOuter
  | rightOuter
  | fullOuter
  deriving DecidableEq, Inhabited

/-- The operators with two inputs. -/
inductive BinaryOp where
  | cross
  | join (kind : JoinKind) (condition : JoinCondition)
  | semi (keepsLeft : Bool)
  | anti
  | union
  | intersect
  | difference
  | division
  deriving DecidableEq, Inhabited

/-- A tree of relational operators. -/
inductive Plan where
  | relation (notes : Notes) (base : Relation)
  | unary (notes : Notes) (op : UnaryOp) (input : Plan)
  | binary (notes : Notes) (op : BinaryOp) (left right : Plan)
  deriving DecidableEq

instance : Inhabited Plan := ⟨.relation {} default⟩

/-- The display text of a warning. -/
def Warning.message (w : Warning) : Outcome String :=
  (Message.resolve w.key w.params).mapError Fault.illTyped

namespace Notes

/-- The notes with one more warning. -/
def warn (notes : Notes) (w : Warning) : Notes :=
  { notes with warnings := notes.warnings ++ [w] }

/-- The notes overlaid with the annotations of a query node: its position wins, parentheses stay,
and metadata are merged. -/
def overlay (notes : Notes) (span : SourceSpan) (parenthesized : Bool) (metadata : Members) :
    Notes :=
  { notes with
    span := some span
    parenthesized := notes.parenthesized || parenthesized
    metadata := notes.metadata.merge metadata }

end Notes

namespace Relation

/-- The relation with rows appended up to the first one that does not fit the schema, and the fault
that stopped it. -/
def appendRows (r : Relation) (schema : Schema) : List Value → Relation × Outcome Unit
  | [] => (r, .ok ())
  | row :: rest =>
    match row.items with
    | .error fault => (r, .error fault)
    | .ok cells =>
      if cells.length = schema.size then
        appendRows { r with rows := r.rows ++ [cells] } schema rest
      else (r, .error (.argument (.rowWidth cells schema.text r.name)))

/-- Append rows to a relation. Rows before a bad one stay. -/
def addRows (r : Relation) (rows : Value) : Relation × Outcome Unit :=
  match r.schema with
  | none => (r, .error (.noSchema r.name))
  | some schema =>
    match rows.items with
    | .error fault => (r, .error fault)
    | .ok rows => r.appendRows schema rows

/-- A new relation. Rows, if any are given, are appended to it. -/
def make (name : Value) (schema : Option Schema) (rows : Option Value) : Outcome Relation :=
  match rows with
  | none => .ok ⟨name, schema, []⟩
  | some rows =>
    let (filled, outcome) := (Relation.mk name schema []).addRows rows
    outcome.map fun _ => filled

/-- The relation with a schema; on request, columns without alias are given to the relation. -/
def setSchema (r : Relation) (schema : Schema) (adoptName : Bool) : Relation :=
  let adopted := schema.columns.map fun col =>
    if adoptName && !col.relAlias.isTruthy then col.withAlias r.name else col
  { r with schema := some ⟨adopted⟩ }

end Relation

namespace UnaryOp

/-- The name of the operator. -/
def name : UnaryOp → String
  | .selection _ => "Selection"
  | .projection _ => "Projection"
  | .orderBy _ => "OrderBy"
  | .groupBy _ _ => "GroupBy"
  | .renameColumns _ => "RenameColumns"
  | .renameRelation _ => "RenameRelation"

/-- The expressions of the operator. -/
def expressions : UnaryOp → List Expr
  | .selection condition => [condition]
  | .projection columns => columns.filterMap fun
    | .column _ => none
    | .computed _ _ child => some child
  | _ => []

/-- Sort by columns, one direction for each. -/
def sortBy (columns : List Column) (directions : List Value) : Outcome UnaryOp :=
  if columns.length = directions.length then
    .ok (.orderBy (columns.zipWith SortKey.mk directions))
  else .error (.argument (.directionCount columns.length directions.length))

end UnaryOp

namespace BinaryOp

/-- The name of the operator. -/
def name : BinaryOp → String
  | .cross => "CrossJoin"
  | .join .inner _ => "InnerJoin"
  | .join .leftOuter _ => "LeftOuterJoin"
  | .join .rightOuter _ => "RightOuterJoin"
  | .join .fullOuter _ => "FullOuterJoin"
  | .semi _ => "SemiJoin"
  | .anti => "AntiJoin"
  | .union => "Union"
  | .intersect => "Intersect"
  | .difference => "Difference"
  | .division => "Division"

/-- The expressions of the operator. -/
def expressions : BinaryOp → List Expr
  | .join _ (.theta condition) => [condition]
  | _ => []

end BinaryOp

namespace Plan

/-- The notes at the root. -/
def notes : Plan → Notes
  | .relation notes _ | .unary notes _ _ | .binary notes _ _ _ => notes

/-- The position of the root. -/
def span (p : Plan) : Option SourceSpan :=
  p.notes.span

/-- The plan with other notes at its root. -/
def withNotes (notes : Notes) : Plan → Plan
  | .relation _ base => .relation notes base
  | .unary _ op input => .unary notes op input
  | .binary _ op left right => .binary notes op left right

/-- The plan without any notes. -/
def unnoted : Plan → Plan
  | .relation _ base => .relation {} base
  | .unary _ op input => .unary {} op input.unnoted
  | .binary _ op left right => .binary {} op left.unnoted right.unnoted

/-- The name of the operator at the root. -/
def typeName : Plan → String
  | .relation _ _ => "Relation"
  | .unary _ op _ => op.name
  | .binary _ op _ _ => op.name

/-- The inputs of the root from left to right. -/
def children : Plan → List Plan
  | .relation _ _ => []
  | .unary _ _ input => [input]
  | .binary _ _ left right => [left, right]

/-- The expressions of the operator at the root. -/
def expressions : Plan → List Expr
  | .relation _ _ => []
  | .unary _ op _ => op.expressions
  | .binary _ op _ _ => op.expressions

/-- All nodes as subtrees in preorder. -/
def walk : Plan → List Plan
  | .relation notes base => [.relation notes base]
  | .unary notes op input => .unary notes op input :: input.walk
  | .binary notes op left right => .binary notes op left right :: (left.walk ++ right.walk)

/-- The plan with a warning at its root. -/
def warn (p : Plan) (key : String) (span : Option SourceSpan) : Plan :=
  p.withNotes (p.notes.warn ⟨key, span, []⟩)

@[simp] theorem notes_withNotes (notes : Notes) (p : Plan) : (p.withNotes notes).notes = notes := by
  cases p <;> rfl

@[simp] theorem unnoted_withNotes (p : Plan) (notes : Notes) :
    (p.withNotes notes).unnoted = p.unnoted := by
  cases p <;> rfl

end Plan

end LogicalPlan
