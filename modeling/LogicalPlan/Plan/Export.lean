import LogicalPlan.Plan.Basic

/-!
# Exports of plans

A plan is exported as an object that tells its operator, its notes and its attributes, with the
inputs nested inside. Key order is fixed per operator.
-/

namespace LogicalPlan

/-- The exported fields of a warning. -/
def Warning.fields (w : Warning) : Fields :=
  [("messageKey", .string w.key), ("params", .object w.params),
    ("codeInfo", SourceSpan.optionToValue w.span)]

/-- The exported fields of notes. -/
def Notes.fields (notes : Notes) : Fields :=
  [("codeInfo", SourceSpan.optionToValue notes.span), ("metaData", .object notes.metadata),
    ("warnings", .list (notes.warnings.map fun w => .ofFields w.fields)),
    ("wrappedInParentheses", .bool notes.parenthesized)]

/-- A join condition as an exported value. -/
def JoinCondition.toValue : JoinCondition → Value
  | .natural columns =>
    .ofFields [("type", .string "natural"),
      ("restrictToColumns", (columns.map Value.tuple).getD .null)]
  | .theta condition => .ofFields [("type", .string "theta"), ("joinExpression", condition.toValue)]
  | .unknown v => v

/-- A projection entry as an exported value. -/
def ProjectionItem.toValue : ProjectionItem → Value
  | .column c => c.toValue
  | .computed name relAlias child =>
    .ofFields [("name", name), ("relAlias", relAlias), ("child", child.toValue)]

/-- An aggregate as an exported value. -/
def Aggregate.toValue (agg : Aggregate) : Value :=
  .ofFields [("aggregate", agg.function), ("column", Column.optionToValue agg.column),
    ("name", agg.name)]

/-- A renaming as an exported value. -/
def Renaming.toValue (r : Renaming) : Value :=
  .ofFields [("newName", r.newName), ("column", r.column.toValue)]

/-- The exported attributes of a unary operator. -/
def UnaryOp.fields : UnaryOp → Fields
  | .selection condition => [("condition", condition.toValue)]
  | .projection columns => [("columns", .list (columns.map ProjectionItem.toValue))]
  | .orderBy keys =>
    [("columns", .list (keys.map (·.column.toValue))),
      ("ascending", .list (keys.map (·.ascending)))]
  | .groupBy groups aggregates =>
    [("groupColumns", .list (groups.map Column.toValue)),
      ("aggregates", .list (aggregates.map Aggregate.toValue))]
  | .renameColumns renamings => [("renamings", .list (renamings.map Renaming.toValue))]
  | .renameRelation relAlias => [("newRelAlias", relAlias)]

/-- The exported attributes of a binary operator. -/
def BinaryOp.fields : BinaryOp → Fields
  | .join _ condition => [("condition", condition.toValue)]
  | .semi keepsLeft => [("left", .bool keepsLeft)]
  | _ => []

/-- The exported attributes of a base relation. -/
def Relation.fields (r : Relation) : Fields :=
  [("name", r.name), ("schema", (r.schema.map Schema.toValue).getD .null),
    ("rows", .list (r.rows.map Value.tuple))]

namespace Plan

/-- The exported fields of a plan. -/
def fields : Plan → Fields
  | .relation notes base => ("type", .string "Relation") :: notes.fields ++ base.fields
  | .unary notes op input =>
    ("type", .string op.name) :: notes.fields ++ ("child", .ofFields input.fields) :: op.fields
  | .binary notes op left right =>
    ("type", .string op.name) :: notes.fields
      ++ ("child", .ofFields left.fields) :: ("child2", .ofFields right.fields) :: op.fields

/-- The plan as an exported value. -/
def toValue (p : Plan) : Value :=
  .ofFields p.fields

end Plan

end LogicalPlan
