import LogicalPlan.Lowering.Algebra
import LogicalPlan.Lowering.Limit
import LogicalPlan.Plan.Derivation

/-!
# Lowering of SQL

A statement is lowered in the logical order of its clauses: FROM, WHERE, grouping, HAVING, the
SELECT list, and new names for columns. Each clause wraps the plan of the clauses before it. All
other nodes become single operators; a limit becomes a selection by row number.

## Implementation notes

If the schemas are to be checked, the schema of a statement is derived after the FROM clause and in
front of every selection.
-/

namespace LogicalPlan

namespace Query

/-- The plan passes the check if plans are to be checked. -/
def checkIf (settings : Settings) (p : Plan) : Outcome Unit :=
  if settings.checkSchemas then p.check else .ok ()

/-- Report the plan that a clause led to. -/
def report (settings : Settings) (what : String) (p : Plan) : Traced Unit :=
  Traced.write settings.verbose [.ok what, p.label]

/-- The selection of a WHERE or HAVING clause. -/
def ConditionClause.lower (clause : ConditionClause) (settings : Settings) (p : Plan) :
    Outcome Plan := do
  checkIf settings p
  let condition ← clause.condition.lower
  (Plan.unary {} (.selection condition) p).annotate "ConditionClause" clause.origin [] none

namespace SelectItem

/-- The aggregate calls among the entries of a SELECT list. -/
def aggregateCalls (items : List SelectItem) : List AggregateCall :=
  items.filterMap fun
    | .aggregate call => some call
    | _ => none

/-- The projection entry of an entry of a SELECT list. An aggregate is provided by the grouping
under its output name. -/
def lower : SelectItem → Outcome ProjectionItem
  | .column _ name relAlias _ => (Column.make name relAlias).map ProjectionItem.column
  | .aggregate call => (Column.make call.name .null).map ProjectionItem.column
  | .computed c => c.lower

/-- The new name that a column of a SELECT list gets, if it gets one. -/
def newName : SelectItem → Outcome (Option Renaming)
  | .column _ name relAlias label =>
    if label.isTruthy then (Column.make name relAlias).map fun c => some ⟨label, c⟩ else .ok none
  | _ => .ok none

/-- The SELECT list keeps all columns as they are. -/
def isEverything : List SelectItem → Bool
  | [item] => item.isWildcard
  | _ => false

end SelectItem

namespace Clauses

/-- The plan with a WHERE or HAVING clause, if there is one. -/
def filtered (settings : Settings) (what : String) (clause : Option ConditionClause) (p : Plan) :
    Traced Plan :=
  match clause with
  | none => pure p
  | some clause => do
    let plan ← clause.lower settings p
    report settings what plan
    pure plan

/-- The statement groups its rows: it says so, or it contains aggregates. -/
def isGrouped (clauses : Clauses) (aggregates : List Aggregate) : Outcome Bool :=
  match clauses.groupBy with
  | some _ => .ok true
  | none => do
    let counted ← clauses.aggregateCount.isPositive
    .ok (counted || !aggregates.isEmpty)

/-- The plan with the grouping of the statement. Grouping without aggregates is a projection. -/
def grouped (clauses : Clauses) (origin : Origin) (settings : Settings) (p : Plan) :
    Traced Plan := do
  let calls := SelectItem.aggregateCalls clauses.select.items
  let aggregates ← Traced.ofOutcome (calls.mapM AggregateCall.lower)
  let isGrouped ← clauses.isGrouped aggregates
  if isGrouped then
    let groups ← Traced.ofOutcome ((clauses.groupBy.getD []).mapM lowerColumn)
    let op := if aggregates.isEmpty then UnaryOp.projection (groups.map ProjectionItem.column)
      else .groupBy groups aggregates
    let plan ← (Plan.unary {} op p).annotate "Statement" origin [] none
    report settings "Grouping translated to" plan
    pure plan
  else pure p

/-- The plan with the projection of the SELECT list, unless it keeps everything. -/
def projected (clauses : Clauses) (settings : Settings) (p : Plan) : Traced Plan :=
  if SelectItem.isEverything clauses.select.items then do
    Traced.write settings.verbose [.ok "SELECT * does not require a projection"]
    pure p
  else do
    let columns ← Traced.ofOutcome (clauses.select.items.mapM SelectItem.lower)
    let plan ← (Plan.unary {} (.projection columns) p).annotate "SelectClause"
      clauses.select.origin [] none
    report settings "SELECT list translated to" plan
    pure plan

/-- The plan with the new names of the SELECT list, if there are any. -/
def relabelled (clauses : Clauses) (settings : Settings) (p : Plan) : Traced Plan := do
  let renamings ← Traced.ofOutcome (clauses.select.items.mapM SelectItem.newName)
  match renamings.filterMap id with
  | [] => pure p
  | renamings => do
    let plan ← (Plan.unary {} (.renameColumns renamings) p).annotate "SelectClause"
      clauses.select.origin [] none
    report settings "Column aliases translated to" plan
    pure plan

/-- The plan of a statement over the plan of its FROM clause. -/
def lower (clauses : Clauses) (origin : Origin) (settings : Settings) (source : Plan) :
    Traced Plan := do
  checkIf settings source
  report settings "FROM clause translated to" source
  let plan ← filtered settings "WHERE clause translated to" clauses.filter source
  let plan ← clauses.grouped origin settings plan
  let plan ← filtered settings "HAVING clause translated to" clauses.having plan
  let plan ← clauses.projected settings plan
  let plan ← clauses.relabelled settings plan
  pure (if clauses.select.distinct then plan else plan.warn Message.distinctMissing origin.span)

end Clauses

/-- The operator over an input that a unary node denotes. -/
def SqlUnary.lower (input : Traced Plan) (origin : Origin) (settings : Settings) :
    SqlUnary → Traced Plan
  | .renameRelation relAlias | .subquery relAlias => do
    let plan ← input
    pure (.unary {} (.renameRelation relAlias) plan)
  | .orderBy entries => do
    let keys ← lowerOrder entries
    let plan ← input
    pure (.unary {} (.orderBy keys) plan)
  | .limit count offset => do
    let span ← origin.require "Limit"
    let condition ← limitCondition count offset (some span)
    let shown := if isLimitAll count then "ALL" else count.text
    Traced.write settings.verbose
      [.ok "Lowering LIMIT", .ok shown, .ok "OFFSET", .ok offset.text, .ok "to", condition.text]
    let plan ← input
    pure (.unary {} (.selection condition) plan)

/-- The operator of a set operation. -/
def SetOperation.op : SetOperation → BinaryOp
  | .union => .union
  | .intersect => .intersect
  | .difference => .difference

/-- The operator over two inputs that a binary node denotes. -/
def SqlBinary.lower (left right : Traced Plan) (origin : Origin) : SqlBinary → Traced Plan
  | .join kind qualifier => qualifiedJoin kind qualifier left right
  | .cross => combine .cross left right
  | .natural => combine (.join .inner (.natural none)) left right
  | .set operation keepsAll => do
    let plan ← combine operation.op left right
    pure (if keepsAll then plan.warn Message.allIgnored origin.span else plan)

/-- A base relation under another name, if it gets one. The reference is the position of both. -/
def aliased (origin : Origin) (relAlias : Value) (p : Plan) : Outcome Plan :=
  if relAlias.isTruthy then do
    let span ← origin.require "Relation"
    let notes := { p.notes with span := some span }
    .ok (.unary {} (.renameRelation relAlias) (p.withNotes notes))
  else .ok p

namespace Sql

/-- The plan that a SQL query denotes. -/
def lower (catalog : Catalog) (settings : Settings) : Sql → Traced Plan
  | .relation origin name relAlias => do
    let plan ← catalog.lookUp settings.verbose name origin.span
    let plan ← aliased origin relAlias plan
    plan.annotate "Relation" origin [] none
  | .statement origin clauses source => do
    let plan ← source.lower catalog settings
    let plan ← clauses.lower origin settings plan
    plan.annotate "Statement" origin [] none
  | .unary origin op child => do
    let plan ← op.lower (child.lower catalog settings) origin settings
    plan.annotate op.kindName origin [] none
  | .binary origin op left right => do
    let plan ← op.lower (left.lower catalog settings) (right.lower catalog settings) origin
    plan.annotate op.kindName origin [] none

/-- The finished plan of a SQL query. -/
def compile (q : Sql) (catalog : Catalog) (settings : Settings) : Traced Plan := do
  let plan ← q.lower catalog settings
  plan.verifiedIf settings.verifyPositions

end Sql

end Query

end LogicalPlan
