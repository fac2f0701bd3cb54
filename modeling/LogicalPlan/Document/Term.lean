import LogicalPlan.Document.Source
import LogicalPlan.Query.Basic

/-!
# Loading value expressions and shared parts

Arguments of constants and column references are literals. For all other functions an argument that
is an object is a nested expression, and any other argument is kept as it is.
-/

namespace LogicalPlan

namespace Document

open Query

mutual

/-- A value expression. -/
def loadTerm (doc : Value) : Outcome Term := do
  let ⟨members, _⟩ ← membersOf doc
  let func ← requireValue members "func"
  let args ← match h : members.get? "args" with
    | none => .ok []
    | some (.list items) =>
      if Term.takesLiterals func then .ok (items.map TermArgument.literal)
      else
        have := Members.weight_of_get? h
        loadArguments items
    | some raw => do
      let items ← raw.items
      .ok (items.map TermArgument.literal)
  let datatype ← requireValue members "datatype"
  let origin ← loadOrigin members
  .ok (.mk origin datatype func args)
termination_by 2 * doc.weight
decreasing_by simp only [Value.weight] at *; omega

/-- The arguments of a function of nested expressions. -/
def loadArguments (items : List Value) : Outcome (List TermArgument) :=
  match items with
  | [] => .ok []
  | .object members :: rest => do
    let first ← loadTerm (.object members)
    let others ← loadArguments rest
    .ok (.nested first :: others)
  | v :: rest => do
    let others ← loadArguments rest
    .ok (.literal v :: others)
termination_by 2 * Value.itemsWeight items + 1
decreasing_by
  · simp only [Value.itemsWeight]; omega
  · have := Value.weight_pos (.object members); simp only [Value.itemsWeight]; omega
  · have := Value.weight_pos v; simp only [Value.itemsWeight]; omega

end

/-- A column reference, unless it is null. -/
def loadColumn (doc : Value) : Outcome (Option ColumnRef) :=
  match doc with
  | .null => .ok none
  | doc => do
    let members ← nodeWith "name" doc
    let name ← requireValue members "name"
    let origin ← loadOrigin members
    .ok (some ⟨origin, name, attributeOf members "relAlias"⟩)

/-- A computed column. -/
def loadComputedColumn (members : Members) : Outcome ComputedColumn := do
  let name ← requireValue members "name"
  let child ← requireValue members "child"
  let child ← loadTerm child
  let origin ← loadOrigin members
  .ok ⟨origin, name, attributeOf members "relAlias", child⟩

/-- A call of an aggregate function. -/
def loadAggregate (doc : Value) : Outcome AggregateCall := do
  let members ← nodeWith "aggFunction" doc
  let function ← requireValue members "aggFunction"
  let column ← loadColumn (attributeOf members "col")
  let name ← requireValue members "name"
  let origin ← loadOrigin members
  .ok ⟨origin, function, column, name⟩

/-- An entry of an ordering; it ascends unless it says otherwise. -/
def loadOrderEntry (doc : Value) : Outcome OrderEntry := do
  let members ← nodeWith "col" doc
  let column ← requireValue members "col"
  let column ← loadColumn column
  let origin ← loadOrigin members
  .ok ⟨origin, column, flag members "asc" true⟩

/-- The entries of an ordering, which may be wrapped in an object. -/
def loadOrderEntries (doc : Value) : Outcome (List OrderEntry) := do
  let entries ← match doc with
    | .object members =>
      match Members.get? members "value" with
      | some entries => .ok entries
      | none => .error (.illTyped .noKey)
    | entries => .ok entries
  let items ← entries.items
  items.mapM loadOrderEntry

/-- What a document says about the condition of a join: nothing, a list of columns or an expression.
-/
def loadQualifier (doc : Value) : Outcome JoinQualifier :=
  match doc with
  | .null => .ok .absent
  | .list names => .ok (.columns names)
  | doc => do
    let condition ← loadTerm doc
    .ok (.condition condition)

end Document

end LogicalPlan
