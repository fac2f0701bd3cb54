import LogicalPlan.Value.Text

/-!
# Writing JSON

Values are written in member order unless sorting is asked for. With an indentation every item
starts a line of its own. Dates and times become texts in ISO form, tuples and sets become arrays,
records become objects of their members; strings of octets have no JSON form. Keys that are numbers,
truth values or null are written as texts; other keys have no JSON form either.
-/

namespace LogicalPlan

namespace Json

/-- The choices of a JSON writer. -/
structure Format where
  /-- The indentation of one level, if items start lines of their own. -/
  indent : Option String := none
  /-- The separator between items. -/
  itemSeparator : String := ", "
  /-- The separator between a key and its value. -/
  keySeparator : String := ": "
  /-- Members are written in the order of their keys. -/
  sortKeys : Bool := false
  /-- Characters outside printable ASCII are escaped. -/
  asciiOnly : Bool := true
  deriving Inhabited

/-- Four hexadecimal digits after the escape mark. -/
def unitEscape (n : Nat) : List Char :=
  '\\' :: 'u' :: Quoted.hexPair (n / 256) ++ Quoted.hexPair n

/-- The escapes of the UTF-16 units of a code point. -/
def codePointEscape (n : Nat) : List Char :=
  if n < 65536 then unitEscape n
  else unitEscape (55296 + (n - 65536) / 1024) ++ unitEscape (56320 + (n - 65536) % 1024)

/-- The character as it is written inside a JSON text. -/
def escape (asciiOnly : Bool) (c : Char) : List Char :=
  if c = '\\' then ['\\', '\\']
  else if c = Quoted.doubleQuote then ['\\', c]
  else if c = '\n' then ['\\', 'n']
  else if c = '\r' then ['\\', 'r']
  else if c = '\t' then ['\\', 't']
  else if c.toNat = 8 then ['\\', 'b']
  else if c.toNat = 12 then ['\\', 'f']
  else if c.toNat < 32 || (asciiOnly && 126 < c.toNat) then codePointEscape c.toNat
  else [c]

/-- The JSON text of a string. -/
def quote (asciiOnly : Bool) (s : String) : String :=
  String.ofList
    (Quoted.doubleQuote :: s.toList.flatMap (escape asciiOnly) ++ [Quoted.doubleQuote])

/-- Items between brackets, either on one line or each on a line of its own. -/
def bracket (format : Format) (depth : Nat) (opening closing : String) (items : List String) :
    String :=
  if items.isEmpty then opening ++ closing
  else
    match format.indent with
    | none => opening ++ joinTexts format.itemSeparator items ++ closing
    | some unit =>
      let line := fun n => "\n" ++ String.join (List.replicate n unit)
      opening ++ line (depth + 1) ++ joinTexts (format.itemSeparator ++ line (depth + 1)) items
        ++ line depth ++ closing

/-- The text that stands for a key, if the key is a text, a number, a truth value or null. -/
def keyText? : Value → Option String
  | .null => some "null"
  | .bool b => some (if b then "true" else "false")
  | .int i => some (toString i)
  | .float x => some x.toText
  | .string s => some s
  | _ => none

/-- The text that a key is. -/
def textKey? : Value → Option String
  | .string s => some s
  | _ => none

/-- The number that a key stands for, as an integer and an exponent of two. -/
def numberKey? : Value → Option (Int × Int)
  | .float x => some (x.signedSignificand, x.exponent)
  | v => v.toInt?.map (·, 0)

/-- One number is smaller than another one. -/
def numberBefore (x y : Int × Int) : Bool :=
  let e := min x.2 y.2
  decide (x.1 * Int.pow 2 (x.2 - e).toNat < y.1 * Int.pow 2 (y.2 - e).toNat)

/-- Entries that are all keyed by texts or all by numbers, in the order of their keys. Other keys
have no order, but a single entry needs none. -/
def sortEntries? {α : Type} (entries : List (Value × α)) : Option (List (Value × α)) :=
  let texts := entries.mapM fun m => (textKey? m.1).map (·, m)
  let numbers := entries.mapM fun m => (numberKey? m.1).map (·, m)
  match texts, numbers with
  | some texts, _ => some ((Value.sortByKey (fun s t => decide (s < t)) texts).map Prod.snd)
  | _, some numbers => some ((Value.sortByKey numberBefore numbers).map Prod.snd)
  | none, none => if entries.length ≤ 1 then some entries else none

/-- The JSON text of entries whose values are written already. -/
def writeEntries? (format : Format) (depth : Nat) (entries : List (Value × String)) :
    Option String := do
  let ordered ← if format.sortKeys then sortEntries? entries else some entries
  let texts ← ordered.mapM fun m => (keyText? m.1).map fun key =>
    quote format.asciiOnly key ++ format.keySeparator ++ m.2
  some (bracket format depth "\x7b" "\x7d" texts)

mutual

/-- The JSON text of a value at a nesting depth, if it has one. -/
def write? (format : Format) (depth : Nat) : Value → Option String
  | .null => some "null"
  | .bool b => some (if b then "true" else "false")
  | .int i => some (toString i)
  | .float x => some x.toText
  | .string s => some (quote format.asciiOnly s)
  | .bytes _ => none
  | .date d => some (quote format.asciiOnly d.toIso)
  | .time t => some (quote format.asciiOnly t.toIso)
  | .instant d t => some (quote format.asciiOnly (d.toIso ++ "T" ++ t.toIso))
  | .list items | .tuple items | .set items =>
    (writeItems? format (depth + 1) items).map (bracket format depth "[" "]")
  | .object members | .record _ _ _ _ members =>
    (writeMembers? format (depth + 1) members).bind (writeEntries? format depth)

/-- The JSON texts of a list of values. -/
def writeItems? (format : Format) (depth : Nat) : List Value → Option (List String)
  | [] => some []
  | v :: vs => do
    let text ← write? format depth v
    let texts ← writeItems? format depth vs
    some (text :: texts)

/-- The keys of members with the JSON texts of their values. -/
def writeMembers? (format : Format) (depth : Nat) :
    List (Value × Value) → Option (List (Value × String))
  | [] => some []
  | (k, v) :: ms => do
    let text ← write? format depth v
    let texts ← writeMembers? format depth ms
    some ((k, text) :: texts)

end

/-- The JSON text of a value on one line. -/
def compact? (v : Value) : Option String :=
  write? {} 0 v

end Json

end LogicalPlan
