import LogicalPlan.Plan.Basic
import LogicalPlan.Text.LetterCase

/-!
# Labels and inspection texts

The label of an operator shows its symbol and its attributes. The inspection text of a plan has one
label per node in preorder, indented by two blanks per level and marked by an arrow below the root.
-/

namespace LogicalPlan

/-- The text of a projection entry. -/
def ProjectionItem.text : ProjectionItem → Outcome String
  | .column c => .ok c.text
  | .computed name relAlias child => do
    let shown := if relAlias.isTruthy then relAlias.text ++ "." ++ name.text else name.text
    let expression ← child.text
    .ok (expression ++ " → " ++ shown)

/-- The text of an aggregate, with the function in small letters. -/
def Aggregate.text (agg : Aggregate) : Outcome String :=
  let argument := (agg.column.map Column.text).getD "*"
  match agg.function with
  | .string function => .ok (lowerText function ++ "(" ++ argument ++ ") → " ++ agg.name.text)
  | _ => noAttribute

/-- The text of a renaming. -/
def Renaming.text (r : Renaming) : String :=
  r.newName.text ++ " ← " ++ r.column.text

/-- The text of a sort key. -/
def SortKey.text (key : SortKey) : String :=
  key.column.text ++ " " ++ (if key.ascending.isTruthy then "asc" else "desc")

/-- The text of a value that has to be a text. -/
def Value.asText : Value → Outcome String
  | .string s => .ok s
  | _ => wrongType

/-- The text of a join condition; it is empty for a natural join over all shared columns. -/
def JoinCondition.text : JoinCondition → Outcome String
  | .natural none => .ok ""
  | .natural (some columns) => (columns.mapM Value.asText).map (joinTexts ", ")
  | .theta condition => condition.text
  | .unknown v => v.shown

/-- The symbol of a join. -/
def JoinKind.symbol : JoinKind → String
  | .inner => "⋈"
  | .leftOuter => "⟕"
  | .rightOuter => "⟖"
  | .fullOuter => "⟗"

/-- The label of a unary operator. -/
def UnaryOp.label : UnaryOp → Outcome String
  | .selection condition => do
    let text ← condition.text
    .ok ("σ (" ++ text ++ ")")
  | .projection columns => do
    let texts ← columns.mapM ProjectionItem.text
    .ok ("π (" ++ joinTexts ", " texts ++ ")")
  | .orderBy keys => .ok ("τ (" ++ joinTexts ", " (keys.map SortKey.text) ++ ")")
  | .groupBy groups aggregates => do
    let grouped := joinTexts ", " (groups.map Column.text)
    let computed ← aggregates.mapM Aggregate.text
    let lead := if grouped.isEmpty then "γ (" else "γ (" ++ grouped ++ "; "
    .ok (lead ++ joinTexts ", " computed ++ ")")
  | .renameColumns renamings =>
    .ok ("ρ (" ++ joinTexts ", " (renamings.map Renaming.text) ++ ")")
  | .renameRelation relAlias => .ok ("ρ " ++ relAlias.text)

/-- The label of a binary operator. -/
def BinaryOp.label : BinaryOp → Outcome String
  | .cross => .ok "⨯"
  | .join kind condition => do
    let text ← condition.text
    .ok (if text.isEmpty then kind.symbol else kind.symbol ++ " (" ++ text ++ ")")
  | .semi keepsLeft => .ok (if keepsLeft then "⋉" else "⋊")
  | .anti => .ok "▷"
  | .union => .ok "∪"
  | .intersect => .ok "∩"
  | .difference => .ok "−"
  | .division => .ok "÷"

namespace Plan

/-- The label of the root. -/
def label : Plan → Outcome String
  | .relation _ base => base.name.asText
  | .unary _ op _ => op.label
  | .binary _ op _ _ => op.label

/-- What stands in front of a label at a depth. -/
def margin (depth : Nat) : String :=
  if depth = 0 then "" else String.ofList (List.replicate (2 * depth) ' ') ++ "<- "

/-- The lines of the inspection text below a depth, one per node in preorder. -/
def inspectLines (depth : Nat) (p : Plan) : Outcome (List String) :=
  match p with
  | .relation notes base => do
    let label ← (Plan.relation notes base).label
    .ok [margin depth ++ label]
  | .unary notes op input => do
    let label ← (Plan.unary notes op input).label
    let below ← input.inspectLines (depth + 1)
    .ok ((margin depth ++ label) :: below)
  | .binary notes op left right => do
    let label ← (Plan.binary notes op left right).label
    let leftBelow ← left.inspectLines (depth + 1)
    let rightBelow ← right.inspectLines (depth + 1)
    .ok ((margin depth ++ label) :: (leftBelow ++ rightBelow))

/-- The hierarchical text of a plan. -/
def inspect (p : Plan) : Outcome String :=
  (p.inspectLines 0).map (joinTexts "\n")

/-- The literal form of a plan: operator names around the literal forms of their inputs. -/
def literal : Plan → String
  | .relation _ base => "Relation(" ++ base.name.literal ++ ")"
  | .unary _ op input => op.name ++ "(" ++ input.literal ++ ")"
  | .binary _ op left right => op.name ++ "(" ++ left.literal ++ ", " ++ right.literal ++ ")"

end Plan

end LogicalPlan
