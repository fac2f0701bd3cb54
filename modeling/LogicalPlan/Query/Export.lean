import LogicalPlan.Query.Sql
import LogicalPlan.Query.Algebra

/-!
# Exports of queries

A query is exported field by field, its origin first. Field names of several words are joined by
underscores in the literal form and by capitals in the exported members.
-/

namespace LogicalPlan

namespace Query

/-- The characters of a name whose words are joined by capitals instead of underscores. -/
def joinByCapitals : List Char → List Char
  | [] => []
  | ['_'] => []
  | '_' :: c :: cs => c.toUpper :: joinByCapitals cs
  | c :: cs => c :: joinByCapitals cs

/-- A field name as it is exported. -/
def exportedName (name : String) : String :=
  String.ofList (joinByCapitals name.toList)

/-- A node with its fields as an exported value. -/
def exported (kind : String) (fields : Fields) : Value :=
  let literal := kind ++ "("
    ++ joinTexts ", " (fields.map fun f => f.1 ++ "=" ++ f.2.literal) ++ ")"
  .record kind (.shown literal) literal (fields.map (·.2))
    (Members.ofFields (fields.map fun f => (exportedName f.1, f.2)))

/-- The fields of an origin. -/
def originFields (origin : Origin) : Fields :=
  [("code_info", SourceSpan.optionToValue origin.span),
    ("wrapped_in_parentheses", .bool origin.parenthesized)]

/-- The fields of a header. -/
def headerFields (header : Header) : Fields :=
  originFields header.origin ++ [("metadata", .object header.metadata)]

/-- A part that may be missing. -/
def optional {α : Type} (toValue : α → Value) (part : Option α) : Value :=
  (part.map toValue).getD .null

namespace Term

mutual

/-- A parsed expression as an exported value. -/
def toValue : Term → Value
  | .mk origin datatype func args =>
    exported "ValueExprAst" (originFields origin
      ++ [("datatype", datatype), ("func", func), ("args", .tuple (argumentValues args))])

/-- A parsed argument as an exported value. -/
def argumentValue : TermArgument → Value
  | .literal v => v
  | .nested t => toValue t

/-- Parsed arguments as exported values. -/
def argumentValues : List TermArgument → List Value
  | [] => []
  | a :: as => argumentValue a :: argumentValues as

end

end Term

/-- A column reference as an exported value. -/
def ColumnRef.toValue (c : ColumnRef) : Value :=
  exported "ColumnNameAst" (originFields c.origin ++ [("name", c.name), ("rel_alias", c.relAlias)])

/-- A computed column as an exported value. -/
def ComputedColumn.toValue (c : ComputedColumn) : Value :=
  exported "NamedColumnExpr" (originFields c.origin
    ++ [("name", c.name), ("rel_alias", c.relAlias), ("child", c.child.toValue)])

/-- An aggregate call as an exported value. -/
def AggregateCall.toValue (call : AggregateCall) : Value :=
  exported "AggregateFunctionAst" (originFields call.origin
    ++ [("aggregate", call.function), ("column", optional ColumnRef.toValue call.column),
      ("name", call.name)])

/-- An entry of an ordering as an exported value. -/
def OrderEntry.toValue (entry : OrderEntry) : Value :=
  exported "OrderByEntry" (originFields entry.origin
    ++ [("column", optional ColumnRef.toValue entry.column), ("asc", .bool entry.ascending)])

/-- A join qualifier as an exported value. -/
def JoinQualifier.toValue : JoinQualifier → Value
  | .absent => .null
  | .columns names => .tuple names
  | .condition t => t.toValue

/-- An entry of a SELECT list as an exported value. -/
def SelectItem.toValue : SelectItem → Value
  | .column origin name relAlias label =>
    exported "SelectColumn" (originFields origin
      ++ [("name", name), ("rel_alias", relAlias), ("alias", label)])
  | .aggregate call => call.toValue
  | .computed c => c.toValue

/-- A SELECT clause as an exported value. -/
def SelectClause.toValue (clause : SelectClause) : Value :=
  exported "SelectClause" (originFields clause.origin
    ++ [("distinct", .bool clause.distinct), ("arg", .tuple (clause.items.map SelectItem.toValue))])

/-- A WHERE or HAVING clause as an exported value. -/
def ConditionClause.toValue (clause : ConditionClause) : Value :=
  exported "ConditionClause" (originFields clause.origin ++ [("arg", clause.condition.toValue)])

/-- Grouping columns as an exported value. -/
def groupByValue (columns : List (Option ColumnRef)) : Value :=
  .tuple (columns.map (optional ColumnRef.toValue))

/-- The fields of a unary SQL node. -/
def SqlUnary.fields (child : Value) : SqlUnary → Fields
  | .renameRelation relAlias => [("child", child), ("new_rel_alias", relAlias)]
  | .subquery relAlias => [("statement", child), ("rel_alias", relAlias)]
  | .orderBy entries => [("child", child), ("arg", .tuple (entries.map OrderEntry.toValue))]
  | .limit count offset => [("child", child), ("limit", count), ("offset", offset)]

/-- The fields of a binary SQL node beside its inputs. -/
def SqlBinary.fields : SqlBinary → Fields
  | .join _ qualifier => [("cond", qualifier.toValue)]
  | .cross | .natural => []
  | .set _ keepsAll => [("all", .bool keepsAll)]

/-- A SQL query as an exported value. -/
def Sql.toValue : Sql → Value
  | .relation origin name relAlias =>
    exported "Relation" (originFields origin ++ [("name", name), ("rel_alias", relAlias)])
  | .statement origin clauses source =>
    exported "Statement" (originFields origin
      ++ [("select", clauses.select.toValue), ("from_", source.toValue),
        ("where", optional ConditionClause.toValue clauses.filter),
        ("group_by", optional groupByValue clauses.groupBy),
        ("having", optional ConditionClause.toValue clauses.having),
        ("num_aggregation_columns", clauses.aggregateCount)])
  | .unary origin op child =>
    exported op.kindName (originFields origin ++ op.fields child.toValue)
  | .binary origin op left right =>
    exported op.kindName (originFields origin
      ++ [("child", left.toValue), ("child2", right.toValue)] ++ op.fields)

/-- A declared column as an exported value. -/
def TableColumn.toValue (c : TableColumn) : Value :=
  exported "TableColumn" [("name", c.name), ("rel_alias", c.relAlias), ("type", c.type)]

/-- An entry of a projection as an exported value. -/
def ProjectionEntry.toValue : ProjectionEntry → Value
  | .column ref => ref.toValue
  | .computed c => c.toValue

/-- A renaming as an exported value. -/
def ColumnRenaming.toValue (r : ColumnRenaming) : Value :=
  exported "ColumnRenaming" [("src", optional ColumnRef.toValue r.source), ("dst", r.target)]

/-- The fields of a unary algebra node beside its input. -/
def AlgebraUnary.fields : AlgebraUnary → Fields
  | .selection condition => [("arg", condition.toValue)]
  | .projection entries => [("arg", .tuple (entries.map ProjectionEntry.toValue))]
  | .orderBy entries => [("arg", .tuple (entries.map OrderEntry.toValue))]
  | .groupBy groups aggregates =>
    [("group", groupByValue groups), ("aggregate", .tuple (aggregates.map AggregateCall.toValue))]
  | .renameColumns renamings => [("arg", .tuple (renamings.map ColumnRenaming.toValue))]
  | .renameRelation relAlias => [("new_rel_alias", relAlias)]

/-- The fields of a binary algebra node beside its inputs. -/
def AlgebraBinary.fields : AlgebraBinary → Fields
  | .theta condition => [("arg", condition.toValue)]
  | .outer _ qualifier => [("arg", qualifier.toValue)]
  | _ => []

/-- A relational algebra query as an exported value. -/
def Algebra.toValue : Algebra → Value
  | .relation header name => exported "Relation" (headerFields header ++ [("name", name)])
  | .table header t =>
    exported "Table" (headerFields header
      ++ [("name", t.name), ("columns", .tuple (t.columns.map TableColumn.toValue)),
        ("rows", .tuple (t.rows.map Value.tuple))])
  | .unary header op child =>
    exported op.kindName (headerFields header ++ ("child", child.toValue) :: op.fields)
  | .binary header op left right =>
    exported op.kindName (headerFields header
      ++ [("child", left.toValue), ("child2", right.toValue)] ++ op.fields)

/-- A SQL query in its root as an exported value. -/
def Sql.rootValue (q : Sql) : Value :=
  exported "SqlRoot" [("child", q.toValue)]

/-- A relational algebra query in its root as an exported value. -/
def Algebra.rootValue (q : Algebra) : Value :=
  exported "RelalgRoot" [("child", q.toValue)]

end Query

end LogicalPlan
