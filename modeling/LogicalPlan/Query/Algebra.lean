import LogicalPlan.Query.Basic
import LogicalPlan.Plan.Basic

/-!
# Relational algebra queries

The native grammar consists of primitive operators, so a query has the same shape as the plan that
it denotes. Every node can declare metadata for its operator. Relations can also be written down
inline, with their schema and all their rows.
-/

namespace LogicalPlan

namespace Query

/-- A declared column of an inline relation. -/
structure TableColumn where
  name : Value
  relAlias : Value
  type : Value
  deriving DecidableEq, Inhabited

/-- An inline relation. -/
structure Table where
  name : Value
  columns : List TableColumn
  rows : List (List Value)
  deriving DecidableEq, Inhabited

/-- An entry of a projection. -/
inductive ProjectionEntry where
  | column (ref : ColumnRef)
  | computed (column : ComputedColumn)
  deriving DecidableEq, Inhabited

/-- A column and its new name. -/
structure ColumnRenaming where
  source : Option ColumnRef
  target : Value
  deriving DecidableEq, Inhabited

/-- The sides that an outer join keeps. -/
inductive OuterSide where
  | left
  | right
  | full
  deriving DecidableEq, Inhabited

/-- The algebra operators over one query. -/
inductive AlgebraUnary where
  | selection (condition : Term)
  | projection (entries : List ProjectionEntry)
  | orderBy (entries : List OrderEntry)
  | groupBy (groups : List (Option ColumnRef)) (aggregates : List AggregateCall)
  | renameColumns (renamings : List ColumnRenaming)
  | renameRelation (relAlias : Value)
  deriving DecidableEq, Inhabited

/-- The algebra operators over two queries. -/
inductive AlgebraBinary where
  | union
  | intersect
  | difference
  | division
  | theta (condition : Term)
  | cross
  | natural
  | leftSemi
  | rightSemi
  | anti
  | outer (side : OuterSide) (qualifier : JoinQualifier)
  deriving DecidableEq, Inhabited

/-- Where an algebra node comes from and the metadata that it declares. -/
structure Header where
  origin : Origin := {}
  metadata : Members := []
  deriving DecidableEq, Inhabited

/-- A relational algebra query. -/
inductive Algebra where
  | relation (header : Header) (name : Value)
  | table (header : Header) (table : Table)
  | unary (header : Header) (op : AlgebraUnary) (child : Algebra)
  | binary (header : Header) (op : AlgebraBinary) (left right : Algebra)
  deriving DecidableEq

instance : Inhabited Algebra := ⟨.relation {} .null⟩

/-- The join that keeps the given sides. -/
def OuterSide.joinKind : OuterSide → JoinKind
  | .left => .leftOuter
  | .right => .rightOuter
  | .full => .fullOuter

namespace AlgebraUnary

/-- The name of the operator. -/
def kindName : AlgebraUnary → String
  | .selection _ => "Selection"
  | .projection _ => "Projection"
  | .orderBy _ => "OrderBy"
  | .groupBy _ _ => "GroupBy"
  | .renameColumns _ => "RenameColumns"
  | .renameRelation _ => "RenameRelation"

end AlgebraUnary

namespace AlgebraBinary

/-- The name of the operator. -/
def kindName : AlgebraBinary → String
  | .union => "Union"
  | .intersect => "Intersect"
  | .difference => "Difference"
  | .division => "Division"
  | .theta _ => "ThetaJoin"
  | .cross => "CrossJoin"
  | .natural => "NaturalJoin"
  | .leftSemi => "LeftSemiJoin"
  | .rightSemi => "RightSemiJoin"
  | .anti => "AntiJoin"
  | .outer .left _ => "LeftOuterJoin"
  | .outer .right _ => "RightOuterJoin"
  | .outer .full _ => "FullOuterJoin"

end AlgebraBinary

namespace Algebra

/-- The header of the root. -/
def header : Algebra → Header
  | .relation header _ | .table header _ | .unary header _ _ | .binary header _ _ _ => header

/-- The name of the node at the root of a query. -/
def kindName : Algebra → String
  | .relation _ _ => "Relation"
  | .table _ _ => "Table"
  | .unary _ op _ => op.kindName
  | .binary _ op _ _ => op.kindName

end Algebra

end Query

end LogicalPlan
