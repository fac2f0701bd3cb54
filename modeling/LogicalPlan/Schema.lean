import LogicalPlan.Column

/-!
# Schemas

A schema is the ordered list of the columns of a relation. A reference by name resolves to the one
column that it matches; it is an error if no column or more than one column matches.
-/

namespace LogicalPlan

/-- A column of a schema. The alias tells the relation that the column belongs to. -/
structure SchemaColumn where
  name : Value
  relAlias : Value
  type : Value
  deriving DecidableEq, Inhabited

/-- The columns of a relation in order. -/
structure Schema where
  columns : List SchemaColumn
  deriving DecidableEq, Inhabited

namespace SchemaColumn

/-- A reference fits a column: the names agree, and the alias too if the reference has one. -/
def accepts (col : SchemaColumn) (c : Column) : Bool :=
  (c.relAlias == .null || c.relAlias.same col.relAlias) && c.name.same col.name

/-- The column under another name. -/
def renamed (col : SchemaColumn) (name : Value) : SchemaColumn :=
  { col with name }

/-- The column as part of another relation. -/
def withAlias (col : SchemaColumn) (relAlias : Value) : SchemaColumn :=
  { col with relAlias }

/-- The text of a column. -/
def text (col : SchemaColumn) : String :=
  if col.relAlias.isTruthy then col.relAlias.text ++ "." ++ col.name.text else col.name.text

/-- The literal form of a column. -/
def literal (col : SchemaColumn) : String :=
  "SchemaColumn(name=" ++ col.name.literal ++ ", rel_alias=" ++ col.relAlias.literal ++ ", type="
    ++ col.type.literal ++ ")"

/-- The column as an exported value. -/
def toValue (col : SchemaColumn) : Value :=
  .record "SchemaColumn" (.shown col.text) col.literal [col.name, col.relAlias, col.type]
    (Members.ofFields [("name", col.name), ("relAlias", col.relAlias), ("type", col.type)])

/-- The column with its fields in normal form. -/
def normal (col : SchemaColumn) : SchemaColumn :=
  ⟨col.name.normal, col.relAlias.normal, col.type.normal⟩

/-- What tells qualified columns apart. -/
def key (col : SchemaColumn) : Value :=
  .tuple [col.relAlias, col.name]

/-- Two column types can meet at one position: they agree or one of them is unknown. -/
def unifies (a b : SchemaColumn) : Bool :=
  a.type.same b.type || a.type.same (.string "null") || b.type.same (.string "null")

end SchemaColumn

namespace Schema

/-- The number of columns. -/
def size (s : Schema) : Nat :=
  s.columns.length

/-- The names of the columns. -/
def names (s : Schema) : List Value :=
  s.columns.map (·.name)

/-- The text of a schema. -/
def text (s : Schema) : String :=
  "[" ++ joinTexts ", " (s.columns.map SchemaColumn.text) ++ "]"

/-- The literal form of a schema. -/
def literal (s : Schema) : String :=
  "Schema([" ++ joinTexts ", " (s.columns.map SchemaColumn.literal) ++ "])"

/-- The schema as an exported value. -/
def toValue (s : Schema) : Value :=
  let columns := s.columns.map SchemaColumn.toValue
  .record "Schema" (.shown s.text) s.literal columns
    (Members.ofFields [("columns", .list columns)])

/-- The schema with all fields in normal form. -/
def normal (s : Schema) : Schema :=
  ⟨s.columns.map SchemaColumn.normal⟩

/-- Two schemas count as the same schema. -/
def same (s t : Schema) : Bool :=
  decide (s.normal = t.normal)

/-- What tells schemas apart when they are used as keys. -/
def signature (s : Schema) : Value :=
  .tuple (s.columns.map fun col => .tuple [col.name, col.relAlias, col.type])

/-- The schema with one more column at its end. -/
def addColumn (s : Schema) (col : SchemaColumn) : Schema :=
  ⟨s.columns ++ [col]⟩

/-- The positions of the columns that fit a reference, counted from the given start. -/
def candidates (c : Column) (start : Nat) : List SchemaColumn → List Nat
  | [] => []
  | col :: cols =>
    if col.accepts c then start :: candidates c (start + 1) cols else candidates c (start + 1) cols

/-- The position, from zero, of the column that a reference denotes. -/
def indexOf (s : Schema) (c : Column) (span : Option SourceSpan) : Outcome Nat :=
  match c.name.toInt? with
  | some i =>
    if 1 ≤ i ∧ i ≤ s.size then .ok (i.toNat - 1)
    else
      .error (.query Message.columnIndexOutOfRange
        (Members.ofFields [("index", c.name), ("length", .int s.size)]) span)
  | none =>
    let params := Members.ofFields [("column", .string c.text), ("schema", .string s.text)]
    match candidates c 0 s.columns with
    | [] => .error (.query Message.columnNotFound params span)
    | [i] => .ok i
    | _ => .error (.query Message.columnAmbiguous params span)

/-- The column that a reference denotes. -/
def resolve (s : Schema) (c : Column) (span : Option SourceSpan) : Outcome SchemaColumn := do
  let i ← s.indexOf c span
  match s.columns[i]? with
  | some col => .ok col
  | none => .error (.illTyped .noIndex)

/-- All columns, or all columns of a relation if an alias is given. -/
def selectAll (s : Schema) (relAlias : Value) (span : Option SourceSpan) :
    Outcome (List SchemaColumn) :=
  if relAlias = .null then .ok s.columns
  else
    match s.columns.filter fun col => col.relAlias.same relAlias with
    | [] =>
      .error (.query Message.columnNotFound
        (Members.ofFields [("column", .string (relAlias.text ++ ".*")), ("schema", .string s.text)])
        span)
    | selected => .ok selected

/-- The schema with all columns moved to one relation. -/
def withAlias (s : Schema) (relAlias : Value) : Schema :=
  ⟨s.columns.map (·.withAlias relAlias)⟩

/-- Check columns against the keys seen before and against each other. -/
def uniqueAfter (text : String) (span : Option SourceSpan) (seen : List Value) :
    List SchemaColumn → Outcome Unit
  | [] => .ok ()
  | col :: cols =>
    if !col.key.isHashable then wrongType
    else if seen.any (·.same col.key) then
      .error (.query Message.columnNotUnique
        (Members.ofFields [("column", .string col.text), ("schema", .string text)]) span)
    else uniqueAfter text span (col.key :: seen) cols

/-- No qualified column occurs twice. -/
def assertUnique (s : Schema) (span : Option SourceSpan) : Outcome Unit :=
  uniqueAfter s.text span [] s.columns

/-- The columns of both schemas, provided that no qualified column occurs twice. -/
def concat (s t : Schema) (span : Option SourceSpan) : Outcome Schema := do
  let combined : Schema := ⟨s.columns ++ t.columns⟩
  combined.assertUnique span
  .ok combined

/-- The name is among the names. -/
def hasName (names : List Value) (name : Value) : Bool :=
  names.any (·.same name)

/-- The names without repetitions, in the order of their first occurrence. -/
def distinctNames (names : List Value) : List Value :=
  names.foldl (fun seen name => if hasName seen name then seen else seen ++ [name]) []

/-- The names that occur in both schemas, in the order of the first one. -/
def sharedNames (s t : Schema) : Outcome (List Value) :=
  if t.names.all Value.isHashable && s.names.all Value.isHashable then
    .ok (distinctNames (s.names.filter (hasName t.names)))
  else wrongType

/-- The schemas can meet in a set operation: as many columns, and unifying types at each position.
-/
def isUnifiable (s t : Schema) : Bool :=
  s.size == t.size && (s.columns.zip t.columns).all fun (a, b) => a.unifies b

end Schema

end LogicalPlan
