import LogicalPlan.Lowering.Annotate
import LogicalPlan.Lowering.Term

/-!
# Lowering of relational algebra

Each node of a relational algebra query becomes exactly one operator, with the position, the
parentheses and the declared metadata of the node.

## Implementation notes

If several parts of a node are faulty, the first one in the order of lowering is reported. Sort
keys, renamings, aggregates and theta conditions come before the inputs, everything else after them.
-/

namespace LogicalPlan

namespace Query

/-- The operator made for an algebra node with its annotations. -/
def Header.annotate (header : Header) (kind : String) (p : Plan) : Outcome Plan :=
  p.annotate kind header.origin header.metadata none

/-- The projection entry that an entry denotes. -/
def ProjectionEntry.lower : ProjectionEntry → Outcome ProjectionItem
  | .column ref => ref.lower.map ProjectionItem.column
  | .computed c => c.lower

/-- The renaming that an entry denotes. -/
def ColumnRenaming.lower (r : ColumnRenaming) : Outcome Renaming := do
  let source ← lowerColumn r.source
  .ok ⟨r.target, source⟩

/-- The inline relation with its schema and rows. Columns without alias belong to it. -/
def Table.relation (table : Table) : Outcome Relation := do
  let schema : Schema := ⟨table.columns.map fun c => ⟨c.name, c.relAlias, c.type⟩⟩
  let bare : Relation := (Relation.mk table.name none []).setSchema schema true
  let (filled, outcome) := bare.addRows (.list (table.rows.map Value.tuple))
  outcome
  .ok filled

/-- The plan that an inline relation denotes. Its metadata quote its definition. -/
def Table.lower (table : Table) (origin : Origin) (verbose : Bool) : Traced Plan := do
  let base ← table.relation
  let span ← origin.require "Table"
  let metadata := Members.ofFields
    [("isInlineRelation", .bool true), ("inlineRelationDefinition", span.text)]
  Traced.write verbose
    [.ok "Created inline relation", .ok table.name.text, .ok "with",
      .ok (toString table.rows.length), .ok "rows"]
  pure (.relation { metadata } base)

/-- The operator over an input that a unary node denotes. -/
def AlgebraUnary.lower (input : Traced Plan) : AlgebraUnary → Traced Plan
  | .selection condition => do
    let plan ← input
    let condition ← condition.lower
    pure (.unary {} (.selection condition) plan)
  | .projection entries => do
    let plan ← input
    let columns ← Traced.ofOutcome (entries.mapM ProjectionEntry.lower)
    pure (.unary {} (.projection columns) plan)
  | .orderBy entries => do
    let keys ← lowerOrder entries
    let plan ← input
    pure (.unary {} (.orderBy keys) plan)
  | .groupBy groups aggregates => do
    let aggregates ← Traced.ofOutcome (aggregates.mapM AggregateCall.lower)
    let plan ← input
    let groups ← Traced.ofOutcome (groups.mapM lowerColumn)
    pure (.unary {} (.groupBy groups aggregates) plan)
  | .renameColumns renamings => do
    let renamings ← Traced.ofOutcome (renamings.mapM ColumnRenaming.lower)
    let plan ← input
    pure (.unary {} (.renameColumns renamings) plan)
  | .renameRelation relAlias => do
    let plan ← input
    pure (.unary {} (.renameRelation relAlias) plan)

/-- An operator over two inputs. -/
def combine (op : BinaryOp) (left right : Traced Plan) : Traced Plan := do
  let leftPlan ← left
  let rightPlan ← right
  pure (.binary {} op leftPlan rightPlan)

/-- A conditional join over two inputs, whose qualifier is lowered last. -/
def qualifiedJoin (kind : JoinKind) (qualifier : JoinQualifier) (left right : Traced Plan) :
    Traced Plan := do
  let leftPlan ← left
  let rightPlan ← right
  let condition ← qualifier.lower
  pure (.binary {} (.join kind condition) leftPlan rightPlan)

/-- The operator over two inputs that a binary node denotes. -/
def AlgebraBinary.lower (left right : Traced Plan) : AlgebraBinary → Traced Plan
  | .union => combine .union left right
  | .intersect => combine .intersect left right
  | .difference => combine .difference left right
  | .division => combine .division left right
  | .theta condition => do
    let condition ← condition.lower
    combine (.join .inner (.theta condition)) left right
  | .cross => combine .cross left right
  | .natural => combine (.join .inner (.natural none)) left right
  | .leftSemi => combine (.semi true) left right
  | .rightSemi => combine (.semi false) left right
  | .anti => combine .anti left right
  | .outer side qualifier => qualifiedJoin side.joinKind qualifier left right

namespace Algebra

/-- The plan that a relational algebra query denotes. -/
def lower (catalog : Catalog) (verbose : Bool) : Algebra → Traced Plan
  | .relation header name => do
    let plan ← catalog.lookUp verbose name header.origin.span
    header.annotate "Relation" plan
  | .table header inline => do
    let plan ← inline.lower header.origin verbose
    header.annotate "Table" plan
  | .unary header op child => do
    let plan ← op.lower (child.lower catalog verbose)
    header.annotate op.kindName plan
  | .binary header op left right => do
    let plan ← op.lower (left.lower catalog verbose) (right.lower catalog verbose)
    header.annotate op.kindName plan

/-- The finished plan of a relational algebra query. -/
def compile (q : Algebra) (catalog : Catalog) (settings : Settings) : Traced Plan := do
  let plan ← q.lower catalog settings.verbose
  plan.verifiedIf settings.verifyPositions

end Algebra

end Query

end LogicalPlan
