import LogicalPlan.Query.Export

/-!
# Lowering of value expressions and shared parts

A parsed expression is lowered to an expression of the same shape with the same origins. Literals of
constants are kept. The raw qualifier of a join becomes a join condition.
-/

namespace LogicalPlan

namespace Query

namespace Term

/-- The datatypes of expressions that can be lowered; `null` is the unknown type. -/
def supportedTypes : List Value :=
  [.string "string", .string "number", .string "boolean", .string "date", .string "null"]

/-- The column that the arguments of a column reference denote: a name and possibly an alias. -/
def columnOf : List Value → Outcome Column
  | [] => .error (.illTyped .noIndex)
  | [name] => Column.make name .null
  | name :: relAlias :: _ => Column.make name relAlias

/-- An argument as a literal. -/
def literalOf : TermArgument → Value
  | .literal v => v
  | .nested t => t.toValue

mutual

/-- The expression that a parsed expression denotes. -/
def lower : Term → Outcome Expr
  | .mk origin datatype func args =>
    if datatype = .string "null" ∧ func = columnName then do
      let ref ← columnOf (args.map literalOf)
      .ok (.column origin ref)
    else if !datatype.isHashable then wrongType
    else if !supportedTypes.contains datatype then
      .error (.unsupported ("value expressions of datatype '" ++ datatype.text ++ "'"))
    else if func = Expr.constantName then
      .ok (.apply origin datatype func (args.map fun a => .literal (literalOf a)))
    else do
      let lowered ← lowerArguments args
      .ok (.apply origin datatype func lowered)

/-- The argument that a parsed argument denotes; a literal is none outside of constants. -/
def lowerArgument : TermArgument → Outcome Argument
  | .literal _ => noAttribute
  | .nested t => (lower t).map Argument.nested

/-- The arguments that parsed arguments denote. -/
def lowerArguments : List TermArgument → Outcome (List Argument)
  | [] => .ok []
  | a :: as => do
    let first ← lowerArgument a
    let others ← lowerArguments as
    .ok (first :: others)

end

end Term

/-- The column that a reference in a query denotes. -/
def ColumnRef.lower (c : ColumnRef) : Outcome Column :=
  Column.make c.name c.relAlias

/-- The column that a reference denotes, provided that there is one. -/
def lowerColumn : Option ColumnRef → Outcome Column
  | none => noAttribute
  | some c => c.lower

/-- The aggregate that a call denotes. -/
def AggregateCall.lower (call : AggregateCall) : Outcome Aggregate := do
  let column ← call.column.mapM ColumnRef.lower
  .ok ⟨call.function, column, call.name⟩

/-- The projection entry that a computed column denotes. -/
def ComputedColumn.lower (c : ComputedColumn) : Outcome ProjectionItem := do
  let child ← c.child.lower
  .ok (.computed c.name c.relAlias child)

/-- The sort keys of an ordering. -/
def lowerOrder (entries : List OrderEntry) : Outcome (List SortKey) :=
  entries.mapM fun entry => do
    let column ← lowerColumn entry.column
    .ok ⟨column, .bool entry.ascending⟩

/-- The join condition that a qualifier denotes: a natural join, possibly over listed columns only,
or a join on an expression. -/
def JoinQualifier.lower : JoinQualifier → Outcome JoinCondition
  | .absent => .ok (.natural none)
  | .columns names => .ok (.natural (some names))
  | .condition t => t.lower.map JoinCondition.theta

end Query

/-- The join condition that a bare value denotes: nothing or a sequence of columns. -/
def JoinCondition.ofValue : Value → Outcome JoinCondition
  | .null => .ok (.natural none)
  | .list columns | .tuple columns => .ok (.natural (some columns))
  | v => .error (.unsupported ("join condition " ++ v.literal))

end LogicalPlan
