import LogicalPlan.Plan.Basic

/-!
# Data frames

A data frame is a table whose columns have a storage. If only rows are known, the storage of a
column is inferred from its cells: a column of numbers is stored as integers if it can be, else as
doubles, and a column of mixed cells keeps its cells as they are. The storage decides the column
type of the relation that a frame becomes.
-/

namespace LogicalPlan

/-- How the cells of a frame column are stored. -/
inductive Storage where
  | boolean
  | integer
  | single
  | double
  | instant
  /-- Cells of any kind. -/
  | mixed
  deriving DecidableEq, Inhabited

namespace Storage

/-- The column type that a storage stands for. -/
def typeName : Storage → String
  | .boolean => "boolean"
  | .integer | .single | .double => "number"
  | .instant => "date"
  | .mixed => "string"

/-- The number as a double; other values stay as they are. -/
def asDouble : Value → Value
  | .int i => .float (Double.ofInt i)
  | v => v

/-- The cell as it is stored. Numbers lose what their storage cannot hold, and texts of instants are
read. -/
def store (storage : Storage) (cell : Value) : Value :=
  match storage, cell with
  | .double, v => asDouble v
  | .single, v =>
    match asDouble v with
    | .float x => .float x.toSingle
    | v => v
  | .instant, .string s =>
    match instantOfIso s with
    | .ok (d, t) => .instant d t
    | .error _ => .string s
  | _, v => v

/-- The value is missing. -/
def isMissing (v : Value) : Bool :=
  v == .null

/-- The value is a truth value. -/
def isBoolean : Value → Bool
  | .bool _ => true
  | _ => false

/-- The integer that a value is. -/
def integer? : Value → Option Int
  | .int i => some i
  | _ => none

/-- The distance from universal time of an instant, if it has one. -/
def instantOffset? : Value → Option (Option Int)
  | .instant _ t => some t.offset
  | _ => none

/-- The integers in front of the first missing cell fit words of 64 bits, signed or unsigned ones.
-/
def fitsWords (cells : List Value) : Bool :=
  let leading := (cells.takeWhile fun c => !isMissing c).filterMap integer?
  leading.all (fun i => decide (-Int.pow 2 63 ≤ i ∧ i < Int.pow 2 64))
    && !(leading.any (fun i => decide (i < 0)) && leading.any fun i => decide (Int.pow 2 63 ≤ i))

/-- All items are equal. -/
def areAlike : List (Option Int) → Bool
  | [] => true
  | x :: xs => xs.all (· == x)

/-- The storage that cells ask for. -/
def infer (cells : List Value) : Storage :=
  let present := cells.filter fun c => !isMissing c
  if present.isEmpty then .mixed
  else if cells.all isBoolean then .boolean
  else if present.all (fun c => (integer? c).isSome || c.isDouble) && fitsWords cells then
    if present.length == cells.length && !present.any Value.isDouble then .integer else .double
  else if present.all (fun c => (instantOffset? c).isSome)
      && areAlike (present.filterMap instantOffset?) then .instant
  else .mixed

end Storage

/-- A column of a frame. -/
structure FrameColumn where
  name : Value
  storage : Storage
  deriving DecidableEq, Inhabited

/-- A table with stored columns. Every row has one cell per column. -/
structure Frame where
  columns : List FrameColumn
  rows : List (List Value)
  deriving DecidableEq, Inhabited

namespace Frame

/-- The cells in a column; rows that are too short lack a cell. -/
def cellsAt (rows : List (List Value)) (i : Nat) : List Value :=
  rows.map fun row => (row[i]?).getD .null

/-- The frame of columns with their cells. Without columns there are no rows. -/
def ofColumns (columns : List (FrameColumn × List Value)) : Frame :=
  let stored := columns.map fun (c, cells) => cells.map c.storage.store
  let height := (stored.map List.length).foldl max 0
  { columns := columns.map Prod.fst
    rows := (List.range height).map fun i => cellsAt stored i }

/-- The length of the longest row. -/
def width (rows : List (List Value)) : Nat :=
  (rows.map List.length).foldl max 0

/-- The frame of named columns and rows with inferred storages. The longest row needs one cell per
column. -/
def ofRows (names : List Value) (rows : List (List Value)) : Outcome Frame :=
  if rows.isEmpty || width rows == names.length then
    .ok (ofColumns (names.mapIdx fun i name =>
      let cells := cellsAt rows i
      (⟨name, Storage.infer cells⟩, cells)))
  else .error (.argument (.frameWidth names.length (width rows)))

/-- The frame as an exported value. -/
def toValue (frame : Frame) : Value :=
  .ofFields [("columns", .list (frame.columns.map (·.name))),
    ("types", .list (frame.columns.map fun c => .string c.storage.typeName)),
    ("rows", .list (frame.rows.map Value.list))]

/-- A column shares its name with another one. -/
def isRepeated (frame : Frame) (name : Value) : Bool :=
  1 < (frame.columns.filter fun c => c.name.same name).length

/-- The column type of a column; columns that share a name are not told apart. -/
def columnType (frame : Frame) (c : FrameColumn) : String :=
  if frame.isRepeated c.name then Storage.mixed.typeName else c.storage.typeName

end Frame

namespace Relation

/-- The relation with the columns and rows of a frame. -/
def ofFrame (name : Value) (frame : Frame) : Relation where
  name
  schema := some ⟨frame.columns.map fun c =>
    ⟨.string c.name.text, name, .string (frame.columnType c)⟩⟩
  rows := frame.rows

/-- The rows of a relation as a frame with the names of its columns. -/
def toFrame (r : Relation) : Outcome Frame :=
  match r.schema with
  | none => .error (.noSchema r.name)
  | some schema => Frame.ofRows (schema.names.map fun name => .string name.text) r.rows

end Relation

end LogicalPlan
