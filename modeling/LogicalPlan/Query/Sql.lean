import LogicalPlan.Query.Basic
import LogicalPlan.Plan.Basic

/-!
# SQL queries

A SQL query is a relation, a statement, or an operator over one or two queries. A statement keeps
its clauses apart; their order of evaluation is the business of the compiler.
-/

namespace LogicalPlan

namespace Query

/-- An entry of a SELECT list. -/
inductive SelectItem where
  /-- A plain column, with the new name that it gets, if any. -/
  | column (origin : Origin) (name relAlias label : Value)
  | aggregate (call : AggregateCall)
  | computed (column : ComputedColumn)
  deriving DecidableEq, Inhabited

/-- A SELECT clause. -/
structure SelectClause where
  origin : Origin
  distinct : Bool
  items : List SelectItem
  deriving DecidableEq, Inhabited

/-- A WHERE or HAVING clause. -/
structure ConditionClause where
  origin : Origin
  condition : Term
  deriving DecidableEq, Inhabited

/-- The clauses of a statement beside its FROM clause. -/
structure Clauses where
  select : SelectClause
  filter : Option ConditionClause
  groupBy : Option (List (Option ColumnRef))
  having : Option ConditionClause
  /-- How many aggregate calls the parser counted. -/
  aggregateCount : Value
  deriving DecidableEq, Inhabited

/-- The SQL operators over one query. -/
inductive SqlUnary where
  | renameRelation (relAlias : Value)
  | subquery (relAlias : Value)
  | orderBy (entries : List OrderEntry)
  | limit (limit offset : Value)
  deriving DecidableEq, Inhabited

/-- The set operations. -/
inductive SetOperation where
  | union
  | intersect
  | difference
  deriving DecidableEq, Inhabited

/-- The SQL operators over two queries. -/
inductive SqlBinary where
  | join (kind : JoinKind) (qualifier : JoinQualifier)
  | cross
  | natural
  /-- A set operation, which can be marked to keep duplicates. -/
  | set (operation : SetOperation) (keepsAll : Bool)
  deriving DecidableEq, Inhabited

/-- A SQL query. -/
inductive Sql where
  | relation (origin : Origin) (name relAlias : Value)
  | statement (origin : Origin) (clauses : Clauses) (source : Sql)
  | unary (origin : Origin) (op : SqlUnary) (child : Sql)
  | binary (origin : Origin) (op : SqlBinary) (left right : Sql)
  deriving DecidableEq

instance : Inhabited Sql := ⟨.relation {} .null .null⟩

/-- The entry is the plain unqualified wildcard. -/
def SelectItem.isWildcard : SelectItem → Bool
  | .column _ name relAlias _ => name == .string "*" && relAlias == .null
  | _ => false

namespace SqlUnary

/-- The name of the operator. -/
def kindName : SqlUnary → String
  | .renameRelation _ => "RenameRelation"
  | .subquery _ => "RelationFromSubstatement"
  | .orderBy _ => "OrderBy"
  | .limit _ _ => "Limit"

end SqlUnary

namespace SqlBinary

/-- The name of the operator. -/
def kindName : SqlBinary → String
  | .join .inner _ => "InnerJoin"
  | .join .leftOuter _ => "LeftOuterJoin"
  | .join .rightOuter _ => "RightOuterJoin"
  | .join .fullOuter _ => "FullOuterJoin"
  | .cross => "CrossJoin"
  | .natural => "NaturalJoin"
  | .set .union _ => "Union"
  | .set .intersect _ => "Intersect"
  | .set .difference _ => "Except"

end SqlBinary

namespace Sql

/-- Where the query comes from. -/
def origin : Sql → Origin
  | .relation origin _ _ => origin
  | .statement origin _ _ => origin
  | .unary origin _ _ => origin
  | .binary origin _ _ _ => origin

/-- The name of the node at the root of a query. -/
def kindName : Sql → String
  | .relation _ _ _ => "Relation"
  | .statement _ _ _ => "Statement"
  | .unary _ op _ => op.kindName
  | .binary _ op _ _ => op.kindName

end Sql

end Query

end LogicalPlan
