import LogicalPlan.Plan.Basic
import LogicalPlan.Text.LetterCase

/-!
# Schemas of plans

The schema of a plan is derived from the schemas of its inputs, operator by operator. Every column
reference is resolved on the way, so a plan with a schema has no dangling or ambiguous reference.
-/

namespace LogicalPlan

/-- The type of an expression over a schema. All references are resolved in preorder; an error names
the position of the reference, or the given one if the reference has none. -/
def Expr.typeIn (e : Expr) (schema : Schema) (span : Option SourceSpan) : Outcome Value := do
  e.walk.forM fun part =>
    match part with
    | .column origin c => discard (schema.indexOf c (origin.span.or span))
    | .apply _ _ _ _ => .ok ()
  match e with
  | .column _ c => (schema.resolve c none).map (·.type)
  | .apply _ datatype _ _ => .ok datatype

/-- The output columns of a projection entry. -/
def ProjectionItem.columnsIn (item : ProjectionItem) (schema : Schema) (span : Option SourceSpan) :
    Outcome (List SchemaColumn) :=
  match item with
  | .computed name relAlias child => do
    let type ← child.typeIn schema span
    .ok [⟨name, relAlias, type⟩]
  | .column c =>
    if c.isWildcard then schema.selectAll c.relAlias span
    else (schema.resolve c span).map fun col => [col]

namespace Aggregate

/-- The functions whose results are numbers whatever they aggregate. -/
def numericFunctions : List String :=
  ["COUNT", "COUNT_ALL", "SUM", "AVG"]

/-- The output column of an aggregate. It belongs to no relation. -/
def columnIn (agg : Aggregate) (schema : Schema) (span : Option SourceSpan) :
    Outcome SchemaColumn :=
  match agg.function with
  | .string function => do
    match agg.column with
    | none => .ok ⟨agg.name, .null, .string "number"⟩
    | some c =>
      let col ← schema.resolve c span
      let type := if numericFunctions.contains (upperText function) then .string "number"
        else col.type
      .ok ⟨agg.name, .null, type⟩
  | _ => noAttribute

end Aggregate

/-- Give new names to columns. All references are resolved in the schema before any renaming, and
the last renaming of a column wins. -/
def renamedColumns (schema : Schema) (span : Option SourceSpan) :
    List Renaming → List SchemaColumn → Outcome (List SchemaColumn)
  | [], columns => .ok columns
  | r :: rest, columns => do
    let i ← schema.indexOf r.column span
    renamedColumns schema span rest (columns.modify i (·.renamed r.newName))

/-- The schema that a unary operator derives from the schema of its input. -/
def UnaryOp.derive (op : UnaryOp) (span : Option SourceSpan) (schema : Schema) : Outcome Schema :=
  match op with
  | .selection condition => do
    discard (condition.typeIn schema span)
    .ok schema
  | .projection columns => do
    let groups ← columns.mapM (·.columnsIn schema span)
    .ok ⟨groups.flatten⟩
  | .orderBy keys => do
    keys.forM fun key => discard (schema.indexOf key.column span)
    .ok schema
  | .groupBy groups aggregates => do
    let grouped ← groups.mapM (schema.resolve · span)
    let computed ← aggregates.mapM (·.columnIn schema span)
    let output : Schema := ⟨grouped ++ computed⟩
    output.assertUnique span
    .ok output
  | .renameColumns renamings => do
    let output : Schema := ⟨← renamedColumns schema span renamings schema.columns⟩
    output.assertUnique span
    .ok output
  | .renameRelation relAlias => .ok (schema.withAlias relAlias)

/-- The columns that a natural join compares: all shared ones, or the listed ones if all of these
are shared. -/
def joinColumns (columns : Option (List Value)) (shared : List Value) (span : Option SourceSpan) :
    Outcome (List Value) :=
  match columns with
  | none => .ok shared
  | some columns => do
    columns.forM fun c =>
      if Schema.hasName shared c then .ok ()
      else .error (.ofQuery Message.joinColumnMissing (Members.ofFields [("column", c)]) span)
    .ok columns

/-- The schema of a join that is qualified by a condition. A natural join leaves the compared
columns of its right input out. -/
def JoinCondition.derive (condition : JoinCondition) (span : Option SourceSpan)
    (left right : Schema) : Outcome Schema :=
  match condition with
  | .theta condition => do
    let combined ← left.concat right span
    discard (condition.typeIn combined span)
    .ok combined
  | .natural columns => do
    let shared ← left.sharedNames right
    let compared ← joinColumns columns shared span
    left.concat ⟨right.columns.filter fun col => !Schema.hasName compared col.name⟩ span
  | .unknown v => do
    let text ← v.shown
    .error (.violation (.unknownJoinCondition text) none)

/-- The first list of names is properly contained in the second one. -/
def properlyContained (names others : List Value) : Bool :=
  names.all (Schema.hasName others) && !others.all (Schema.hasName names)

/-- The schema that a binary operator derives from the schemas of its inputs. -/
def BinaryOp.derive (op : BinaryOp) (span : Option SourceSpan) (left right : Schema) :
    Outcome Schema :=
  match op with
  | .cross => left.concat right span
  | .join _ condition => condition.derive span left right
  | .semi keepsLeft => .ok (if keepsLeft then left else right)
  | .anti => .ok left
  | .union | .intersect | .difference =>
    if left.isUnifiable right then .ok left
    else
      .error (.query Message.schemasNotUnifiable
        (Members.ofFields [("left", .string left.text), ("right", .string right.text)]) span)
  | .division =>
    if !(right.names.all Value.isHashable && left.names.all Value.isHashable) then wrongType
    else if properlyContained right.names left.names then
      .ok ⟨left.columns.filter fun col => !Schema.hasName right.names col.name⟩
    else
      .error (.query Message.divisionInvalid
        (Members.ofFields [("left", .string left.text), ("right", .string right.text)]) span)

namespace Plan

/-- The schema of the relation that a plan produces. -/
def schema : Plan → Outcome Schema
  | .relation _ base =>
    match base.schema with
    | none => .error (.noSchema base.name)
    | some schema => .ok schema
  | .unary notes op input => do
    let inner ← input.schema
    op.derive notes.span inner
  | .binary notes op left right => do
    let leftSchema ← left.schema
    let rightSchema ← right.schema
    op.derive notes.span leftSchema rightSchema

/-- A plan passes the check if its schema can be derived. -/
def check (p : Plan) : Outcome Unit :=
  discard p.schema

end Plan

end LogicalPlan
