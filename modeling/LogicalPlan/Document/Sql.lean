import LogicalPlan.Document.Term
import LogicalPlan.Query.Sql

/-!
# Loading SQL queries

A node is told by its `type`. The inputs of an operator are loaded before its attributes, and the
position of a node last.
-/

namespace LogicalPlan

namespace Document

open Query

/-- An entry of a SELECT list. -/
def loadSelectItem (doc : Value) : Outcome SelectItem := do
  let members ← node doc
  match attributeOf members "type" with
  | .string "column" | .string "columnName" => do
    let name ← requireValue members "name"
    let origin ← loadOrigin members
    .ok (.column origin name (attributeOf members "relAlias") (attributeOf members "alias"))
  | .string "aggFunction" => (loadAggregate (.object members)).map .aggregate
  | .string "namedColumnExpr" => (loadComputedColumn members).map .computed
  | type => .error (.document (.unknownSelectEntry type members))

/-- A SELECT clause. -/
def loadSelect (doc : Value) : Outcome SelectClause := do
  let members ← nodeWith "arg" doc
  let entries ← requireValue members "arg"
  let entries ← entries.items
  let items ← entries.mapM loadSelectItem
  let origin ← loadOrigin members
  .ok ⟨origin, flag members "distinct" false, items⟩

/-- A WHERE or HAVING clause, unless it is null. -/
def loadClause (doc : Value) : Outcome (Option ConditionClause) :=
  match doc with
  | .null => .ok none
  | doc => do
    let members ← nodeWith "arg" doc
    let condition ← requireValue members "arg"
    let condition ← loadTerm condition
    let origin ← loadOrigin members
    .ok (some ⟨origin, condition⟩)

/-- The grouping columns, unless they are null. -/
def loadGroupBy (doc : Value) : Outcome (Option (List (Option ColumnRef))) :=
  match doc with
  | .null => .ok none
  | doc => do
    let items ← doc.items
    (items.mapM loadColumn).map some

/-- A qualified join. -/
def loadJoin (kind : JoinKind) (members : Members) : Outcome SqlBinary :=
  (loadQualifier (attributeOf members "cond")).map (.join kind)

/-- A set operation, which drops duplicates unless it says otherwise. -/
def loadSetOperation (operation : SetOperation) (members : Members) : Outcome SqlBinary :=
  .ok (.set operation (flag members "all" false))

/-- How the operator of a binary node is loaded, if the type names one. -/
def sqlBinary? (type : Value) : Option (Members → Outcome SqlBinary) :=
  match type with
  | .string "innerJoin" => some (loadJoin .inner)
  | .string "leftOuterJoin" => some (loadJoin .leftOuter)
  | .string "rightOuterJoin" => some (loadJoin .rightOuter)
  | .string "fullOuterJoin" => some (loadJoin .fullOuter)
  | .string "crossJoin" => some fun _ => .ok .cross
  | .string "naturalJoin" => some fun _ => .ok .natural
  | .string "union" => some (loadSetOperation .union)
  | .string "intersect" => some (loadSetOperation .intersect)
  | .string "except" => some (loadSetOperation .difference)
  | _ => none

/-- Under which key a unary node has its input and how its operator is loaded, if the type names
one. -/
def sqlUnary? (type : Value) : Option (String × (Members → Outcome SqlUnary)) :=
  match type with
  | .string "renameRelation" =>
    some ("child", fun members => (requireValue members "newRelAlias").map .renameRelation)
  | .string "relationFromSubstatement" =>
    some ("statement", fun members => (requireValue members "relAlias").map .subquery)
  | .string "orderBy" => some ("child", fun members => do
    let entries ← requireValue members "arg"
    (loadOrderEntries entries).map .orderBy)
  | .string "limit" => some ("child", fun members => do
    let limit ← requireValue members "limit"
    .ok (.limit limit ((members.get? "offset").getD (.int 0))))
  | _ => none

/-- A SQL query. -/
def loadSql (doc : Value) : Outcome Sql := do
  let ⟨members, _⟩ ← membersOf doc
  let type ← requireValue members "type"
  if !type.isHashable then wrongType
  else
    match sqlBinary? type with
    | some load =>
      let ⟨left, _⟩ ← require members "child"
      let left ← loadSql left
      let ⟨right, _⟩ ← require members "child2"
      let right ← loadSql right
      let op ← load members
      let origin ← loadOrigin members
      .ok (.binary origin op left right)
    | none =>
      match sqlUnary? type with
      | some (key, load) =>
        let ⟨child, _⟩ ← require members key
        let child ← loadSql child
        let op ← load members
        let origin ← loadOrigin members
        .ok (.unary origin op child)
      | none =>
        match type with
        | .string "relation" =>
          let name ← requireValue members "name"
          let origin ← loadOrigin members
          .ok (.relation origin name (attributeOf members "relAlias"))
        | .string "statement" =>
          let groupBy ← loadGroupBy (attributeOf members "groupBy")
          let select ← requireValue members "select"
          let select ← loadSelect select
          let ⟨source, _⟩ ← require members "from"
          let source ← loadSql source
          let filter ← loadClause (attributeOf members "where")
          let having ← loadClause (attributeOf members "having")
          let count := (members.get? "numAggregationColumns").getD (.int 0)
          let origin ← loadOrigin members
          .ok (.statement origin ⟨select, filter, groupBy, having, count⟩ source)
        | type => .error (.document (.unknownSqlNode type))
termination_by doc.weight
decreasing_by all_goals omega

/-- The SQL query inside a root document. -/
def loadSqlRoot (doc : Value) : Outcome Sql := do
  let ⟨members, _⟩ ← membersOf doc
  let child ← requireValue members "child"
  loadSql child

end Document

end LogicalPlan
