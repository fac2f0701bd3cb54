import LogicalPlan.Plan.Basic

/-!
# Equality and signatures of plans

Two plans are the same when they agree after all values in them are brought to normal form; notes
count. The signature of a plan is what it contributes when plans are used as keys. It leaves notes
out, so it does not change when a warning is added.
-/

namespace LogicalPlan

/-- Members with their keys and values in normal form, in the order of their keys. -/
def Members.normal (members : Members) : Members :=
  Value.sortByKey Value.keyBefore (Value.normalMembers members)

/-- The warning with all values in normal form. -/
def Warning.normal (w : Warning) : Warning :=
  ⟨w.key, w.span.map SourceSpan.normal, Members.normal w.params⟩

/-- The notes with all values in normal form. -/
def Notes.normal (notes : Notes) : Notes where
  span := notes.span.map SourceSpan.normal
  metadata := Members.normal notes.metadata
  warnings := notes.warnings.map Warning.normal
  parenthesized := notes.parenthesized

/-- The condition with all values in normal form. -/
def JoinCondition.normal : JoinCondition → JoinCondition
  | .natural columns => .natural (columns.map (·.map Value.normal))
  | .theta condition => .theta condition.normal
  | .unknown v => .unknown v.normal

/-- The projection entry with all values in normal form. -/
def ProjectionItem.normal : ProjectionItem → ProjectionItem
  | .column c => .column c.normal
  | .computed name relAlias child => .computed name.normal relAlias.normal child.normal

/-- The aggregate with all values in normal form. -/
def Aggregate.normal (agg : Aggregate) : Aggregate :=
  ⟨agg.function.normal, agg.column.map Column.normal, agg.name.normal⟩

/-- The renaming with all values in normal form. -/
def Renaming.normal (r : Renaming) : Renaming :=
  ⟨r.newName.normal, r.column.normal⟩

/-- The sort key with all values in normal form. -/
def SortKey.normal (key : SortKey) : SortKey :=
  ⟨key.column.normal, key.ascending.normal⟩

/-- The relation with all values in normal form. -/
def Relation.normal (r : Relation) : Relation :=
  ⟨r.name.normal, r.schema.map Schema.normal, r.rows.map (·.map Value.normal)⟩

/-- The operator with all values in normal form. -/
def UnaryOp.normal : UnaryOp → UnaryOp
  | .selection condition => .selection condition.normal
  | .projection columns => .projection (columns.map ProjectionItem.normal)
  | .orderBy keys => .orderBy (keys.map SortKey.normal)
  | .groupBy groups aggregates =>
    .groupBy (groups.map Column.normal) (aggregates.map Aggregate.normal)
  | .renameColumns renamings => .renameColumns (renamings.map Renaming.normal)
  | .renameRelation relAlias => .renameRelation relAlias.normal

/-- The operator with all values in normal form. -/
def BinaryOp.normal : BinaryOp → BinaryOp
  | .join kind condition => .join kind condition.normal
  | op => op

/-- What tells join conditions apart when they are used as keys. -/
def JoinCondition.signature : JoinCondition → Value
  | .natural columns => .tuple [(columns.map Value.tuple).getD .null]
  | .theta condition => .tuple [condition.signature]
  | .unknown v => v

/-- What tells projection entries apart when they are used as keys. -/
def ProjectionItem.signature : ProjectionItem → Value
  | .column c => c.signature
  | .computed name relAlias child => .tuple [name, relAlias, child.signature]

/-- What tells aggregates apart when they are used as keys. -/
def Aggregate.signature (agg : Aggregate) : Value :=
  .tuple [agg.function, (agg.column.map Column.signature).getD .null, agg.name]

/-- What tells renamings apart when they are used as keys. -/
def Renaming.signature (r : Renaming) : Value :=
  .tuple [r.newName, r.column.signature]

/-- What an operator with one input contributes beside its input. -/
def UnaryOp.signature : UnaryOp → List Value
  | .selection condition => [condition.signature]
  | .projection columns => [.tuple (columns.map ProjectionItem.signature)]
  | .orderBy keys =>
    [.tuple (keys.map (·.column.signature)), .tuple (keys.map (·.ascending))]
  | .groupBy groups aggregates =>
    [.tuple (groups.map Column.signature), .tuple (aggregates.map Aggregate.signature)]
  | .renameColumns renamings => [.tuple (renamings.map Renaming.signature)]
  | .renameRelation relAlias => [relAlias]

/-- What an operator with two inputs contributes beside its inputs. -/
def BinaryOp.signature : BinaryOp → List Value
  | .join _ condition => [condition.signature]
  | .semi keepsLeft => [.bool keepsLeft]
  | _ => []

namespace Plan

/-- The plan with all values in normal form. -/
def normal : Plan → Plan
  | .relation notes base => .relation notes.normal base.normal
  | .unary notes op input => .unary notes.normal op.normal input.normal
  | .binary notes op left right => .binary notes.normal op.normal left.normal right.normal

/-- Two plans count as the same plan. -/
def same (p q : Plan) : Bool :=
  decide (p.normal = q.normal)

/-- What a plan contributes when plans are used as keys: its operator, its inputs and its
attributes. A base relation contributes its name only. -/
def signature : Plan → Value
  | .relation _ base => .tuple [.string "Relation", base.name]
  | .unary _ op input => .tuple [.string op.name, .tuple (input.signature :: op.signature)]
  | .binary _ op left right =>
    .tuple [.string op.name, .tuple (left.signature :: right.signature :: op.signature)]

end Plan

end LogicalPlan
