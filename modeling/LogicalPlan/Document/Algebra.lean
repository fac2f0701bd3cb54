import LogicalPlan.Document.Term
import LogicalPlan.Query.Algebra

/-!
# Loading relational algebra queries

A node is told by its `type`. Projection entries, groupings and renamings are loaded before the
input of their operator, all other attributes after the inputs, and the header of a node last.
-/

namespace LogicalPlan

namespace Document

open Query

/-- The header of a node: its origin and its metadata. -/
def loadHeader (members : Members) : Outcome Header := do
  let origin ← loadOrigin members
  let metadata ← (attributeOf members "metaData").toMembers
  .ok ⟨origin, metadata⟩

/-- A declared column of an inline relation; its type is unknown by default. -/
def loadTableColumn (doc : Value) : Outcome TableColumn := do
  let members ← nodeWith "name" doc
  let name ← requireValue members "name"
  .ok ⟨name, attributeOf members "relAlias", (members.get? "type").getD (.string "null")⟩

/-- An inline relation. -/
def loadTable (members : Members) : Outcome Table := do
  let columns ← requireValue members "columns"
  let columns ← columns.items
  let columns ← columns.mapM loadTableColumn
  let rows ← ((members.get? "rows").getD (.list [])).items
  let rows ← rows.mapM Value.items
  let name ← requireValue members "name"
  .ok ⟨name, columns, rows⟩

/-- An entry of a projection. -/
def loadProjectionEntry (doc : Value) : Outcome ProjectionEntry := do
  let members ← node doc
  match attributeOf members "type" with
  | .string "columnName" | .string "column" => do
    let name ← requireValue members "name"
    let origin ← loadOrigin members
    .ok (.column ⟨origin, name, attributeOf members "relAlias"⟩)
  | .string "namedColumnExpr" => (loadComputedColumn members).map .computed
  | type => .error (.document (.unknownProjectionEntry type members))

/-- A column and its new name. -/
def loadRenaming (doc : Value) : Outcome ColumnRenaming := do
  let members ← nodeWith "src" doc
  let source ← requireValue members "src"
  let source ← loadColumn source
  let target ← requireValue members "dst"
  .ok ⟨source, target⟩

/-- The items of an attribute, each loaded in turn; a missing attribute has none. -/
def loadItems {α : Type} (load : Value → Outcome α) (members : Members) (key : String) :
    Outcome (List α) := do
  let items ← ((members.get? key).getD (.list [])).items
  items.mapM load

/-- An outer join. -/
def loadOuterJoin (side : OuterSide) (members : Members) : Outcome AlgebraBinary :=
  (loadQualifier (attributeOf members "arg")).map (.outer side)

/-- How the operator of a binary node is loaded, if the type names one. -/
def algebraBinary? (type : Value) : Option (Members → Outcome AlgebraBinary) :=
  match type with
  | .string "union" => some fun _ => .ok .union
  | .string "intersect" => some fun _ => .ok .intersect
  | .string "difference" => some fun _ => .ok .difference
  | .string "division" => some fun _ => .ok .division
  | .string "thetaJoin" => some fun members => do
    let condition ← requireValue members "arg"
    (loadTerm condition).map .theta
  | .string "crossJoin" => some fun _ => .ok .cross
  | .string "naturalJoin" => some fun _ => .ok .natural
  | .string "leftSemiJoin" => some fun _ => .ok .leftSemi
  | .string "rightSemiJoin" => some fun _ => .ok .rightSemi
  | .string "antiJoin" => some fun _ => .ok .anti
  | .string "leftOuterJoin" => some (loadOuterJoin .left)
  | .string "rightOuterJoin" => some (loadOuterJoin .right)
  | .string "fullOuterJoin" => some (loadOuterJoin .full)
  | _ => none

/-- How the operator of a unary node is loaded before its input, if the type names one. -/
def algebraUnaryFirst? (type : Value) : Option (Members → Outcome AlgebraUnary) :=
  match type with
  | .string "projection" => some fun members => do
    let entries ← requireValue members "arg"
    let entries ← entries.items
    (entries.mapM loadProjectionEntry).map .projection
  | .string "groupBy" => some fun members => do
    let groups ← loadItems loadColumn members "group"
    let aggregates ← loadItems loadAggregate members "aggregate"
    .ok (.groupBy groups aggregates)
  | .string "renameColumns" => some fun members => do
    let entries ← requireValue members "arg"
    let entries ← entries.items
    (entries.mapM loadRenaming).map .renameColumns
  | _ => none

/-- How the operator of a unary node is loaded after its input, if the type names one. -/
def algebraUnaryLast? (type : Value) : Option (Members → Outcome AlgebraUnary) :=
  match type with
  | .string "selection" => some fun members => do
    let condition ← requireValue members "arg"
    (loadTerm condition).map .selection
  | .string "orderBy" => some fun members => do
    let entries ← requireValue members "arg"
    (loadOrderEntries entries).map .orderBy
  | .string "renameRelation" => some fun members =>
    (requireValue members "newRelAlias").map .renameRelation
  | _ => none

/-- A relational algebra query. -/
def loadAlgebra (doc : Value) : Outcome Algebra := do
  let ⟨members, _⟩ ← membersOf doc
  let type ← requireValue members "type"
  if !type.isHashable then wrongType
  else
    match algebraBinary? type with
    | some load =>
      let ⟨left, _⟩ ← require members "child"
      let left ← loadAlgebra left
      let ⟨right, _⟩ ← require members "child2"
      let right ← loadAlgebra right
      let op ← load members
      let header ← loadHeader members
      .ok (.binary header op left right)
    | none =>
      match algebraUnaryFirst? type with
      | some load =>
        let op ← load members
        let ⟨child, _⟩ ← require members "child"
        let child ← loadAlgebra child
        let header ← loadHeader members
        .ok (.unary header op child)
      | none =>
        match algebraUnaryLast? type with
        | some load =>
          let ⟨child, _⟩ ← require members "child"
          let child ← loadAlgebra child
          let op ← load members
          let header ← loadHeader members
          .ok (.unary header op child)
        | none =>
          match type with
          | .string "relation" =>
            let name ← requireValue members "name"
            let header ← loadHeader members
            .ok (.relation header name)
          | .string "table" =>
            let table ← loadTable members
            let header ← loadHeader members
            .ok (.table header table)
          | type => .error (.document (.unknownAlgebraNode type))
termination_by doc.weight
decreasing_by all_goals omega

/-- The relational algebra query inside a root document. -/
def loadAlgebraRoot (doc : Value) : Outcome Algebra := do
  let ⟨members, _⟩ ← membersOf doc
  let child ← requireValue members "child"
  loadAlgebra child

end Document

end LogicalPlan
