import LogicalPlan.Value.Basic
import LogicalPlan.Text.Shortest
import LogicalPlan.Text.Quoted

/-!
# Texts of values

A value has a literal form, which quotes texts and spells out calendar values, and a text, which
differs from the literal only for texts, calendar values and records at the top level.
-/

namespace LogicalPlan

/-- The texts with a separator between neighbours. -/
def joinTexts (separator : String) : List String → String
  | [] => ""
  | [s] => s
  | s :: t :: rest => s ++ separator ++ joinTexts separator (t :: rest)

/-- The days, seconds and microseconds of a duration. Only the days can be negative. -/
def durationParts (microseconds : Int) : List Int :=
  [Int.fdiv microseconds 86400000000, Int.fdiv (Int.fmod microseconds 86400000000) 1000000,
    Int.fmod microseconds 1000000]

/-- The literal of a duration by its parts; those that are zero are left out. -/
def durationLiteral (microseconds : Int) : String :=
  let parts := ["days", "seconds", "microseconds"].zip (durationParts microseconds)
  let shown := (parts.filter fun p => p.2 != 0).map fun p => p.1 ++ "=" ++ toString p.2
  "datetime.timedelta(" ++ (if shown.isEmpty then "0" else joinTexts ", " shown) ++ ")"

/-- The literal of a distance from universal time. -/
def offsetLiteral (microseconds : Int) : String :=
  if microseconds = 0 then "datetime.timezone.utc"
  else "datetime.timezone(" ++ durationLiteral microseconds ++ ")"

/-- The literal that builds a calendar value from its fields. -/
def calendarLiteral (builder : String) (fields : List Nat) (offset : Option Int) : String :=
  let zone := match offset with
    | none => []
    | some distance => ["tzinfo=" ++ offsetLiteral distance]
  "datetime." ++ builder ++ "(" ++ joinTexts ", " (fields.map toString ++ zone) ++ ")"

namespace Value

mutual

/-- The literal form of a value. -/
def literal : Value → String
  | .null => "None"
  | .bool b => if b then "True" else "False"
  | .int i => toString i
  | .float x => x.toText
  | .string s => quotedLiteral s
  | .bytes octets => octetLiteral octets
  | .date d => calendarLiteral "date" d.fields none
  | .time t => calendarLiteral "time" t.fields t.offset
  | .instant d t => calendarLiteral "datetime" (d.fields ++ t.fields) t.offset
  | .list items => "[" ++ joinTexts ", " (itemLiterals items) ++ "]"
  | .tuple items =>
    match itemLiterals items with
    | [item] => "(" ++ item ++ ",)"
    | texts => "(" ++ joinTexts ", " texts ++ ")"
  | .set items =>
    match itemLiterals items with
    | [] => "frozenset()"
    | texts => "frozenset(\x7b" ++ joinTexts ", " texts ++ "\x7d)"
  | .object members => "\x7b" ++ joinTexts ", " (memberLiterals members) ++ "\x7d"
  | .record _ _ literal _ _ => literal

/-- The literal forms of a list of values. -/
def itemLiterals : List Value → List String
  | [] => []
  | v :: vs => literal v :: itemLiterals vs

/-- The literal forms of members: the key, a colon and the value. -/
def memberLiterals : List (Value × Value) → List String
  | [] => []
  | (k, v) :: ms => (literal k ++ ": " ++ literal v) :: memberLiterals ms

end

/-- The text of a value. An object without a text shows its literal form. -/
def text : Value → String
  | .string s => s
  | .date d => d.toIso
  | .time t => t.toIso
  | .instant d t => d.toIso ++ " " ++ t.toIso
  | .record _ text literal _ _ => text.getD literal
  | v => v.literal

/-- The text of a value, or the reason why an object has none. -/
def text? : Value → Except TypeFault String
  | .record _ text _ _ _ => text.result
  | v => .ok v.text

end Value

end LogicalPlan
