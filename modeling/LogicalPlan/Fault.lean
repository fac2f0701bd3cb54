import LogicalPlan.Source
import LogicalPlan.Message
import LogicalPlan.Value.Calendar.Reader

/-!
# Faults

A compilation fails for a reason that is recorded as a cause. Faulty queries are reported by message
key, parameters and position; all other causes point to a defective document, tree or argument.
-/

namespace LogicalPlan

/-- Why a parser document cannot be loaded. -/
inductive DocumentFault where
  | notObject (found : Value)
  | missingAttribute (key : String) (node : Members)
  | incompleteSpan (node : Members)
  | unknownSelectEntry (type : Value) (node : Members)
  | unknownProjectionEntry (type : Value) (node : Members)
  | unknownSqlNode (type : Value)
  | unknownAlgebraNode (type : Value)
  deriving DecidableEq

/-- Which contract between parser, compiler and plan is broken. -/
inductive Violation where
  | unpositionedQuery (kind : String)
  | unpositionedOperator (literal : String)
  | unpositionedExpression (literal label : String)
  | notATree (label : String)
  | unknownJoinCondition (text : String)
  | stated (message : String)
  deriving DecidableEq

/-- Which argument an operation cannot accept. -/
inductive ArgumentFault where
  | columnNameRequired
  | directionCount (columns directions : Nat)
  | rowWidth (row : List Value) (schema : String) (relation : Value)
  | pairWidth (position width : Nat)
  | frameWidth (columns cells : Nat)
  | unmatchedBrace (brace : Char)
  | unfinishedField
  | calendar (cause : CalendarFault)
  deriving DecidableEq

/-- Why an operation fails. -/
inductive Fault where
  | query (key : String) (params : Members) (span : Option SourceSpan)
  | violation (cause : Violation) (span : Option SourceSpan)
  | unsupported (construct : String)
  | document (cause : DocumentFault)
  | noSchema (relation : Value)
  | argument (cause : ArgumentFault)
  | illTyped (cause : TypeFault)
  deriving DecidableEq

instance : Inhabited Fault := ⟨.illTyped .wrongType⟩

/-- The text of a document fault. -/
def DocumentFault.message : DocumentFault → String
  | .notObject found => "Expected a JSON object, but got " ++ found.literal
  | .missingAttribute key node =>
    "Node of type '" ++ ((node.get? "type").getD .null).text ++ "' is missing the '" ++ key
      ++ "' attribute: " ++ (Value.object node).literal
  | .incompleteSpan node =>
    "Code info without start or end position: " ++ (Value.object node).literal
  | .unknownSelectEntry type node =>
    "Unknown SELECT list entry '" ++ type.text ++ "': " ++ (Value.object node).literal
  | .unknownProjectionEntry type node =>
    "Unknown projection entry '" ++ type.text ++ "': " ++ (Value.object node).literal
  | .unknownSqlNode type => "Unknown SQL node type '" ++ type.text ++ "'"
  | .unknownAlgebraNode type => "Unknown relational algebra node type '" ++ type.text ++ "'"

/-- The text of a violation without its position. -/
def Violation.message : Violation → String
  | .unpositionedQuery kind => "Syntax node without source position: " ++ kind
  | .unpositionedOperator literal => "Operator without source position: " ++ literal
  | .unpositionedExpression literal label =>
    "Expression without source position: " ++ literal ++ " in " ++ label
  | .notATree label => "Operator graph rooted at " ++ label ++ " is not a tree"
  | .unknownJoinCondition text => "Unknown join condition: " ++ text
  | .stated message => message

/-- The text of a calendar fault. -/
def CalendarFault.message : CalendarFault → String
  | .malformed text => "Invalid isoformat string: " ++ quotedLiteral text
  | .year y => "year " ++ toString y ++ " is out of range"
  | .month => "month must be in 1..12"
  | .day => "day is out of range for month"
  | .hour => "hour must be in 0..23"
  | .minute => "minute must be in 0..59"
  | .second => "second must be in 0..59"
  | .offset distance =>
    "offset must be a timedelta strictly between -timedelta(hours=24) and timedelta(hours=24), not "
      ++ durationLiteral distance ++ "."

/-- The text of an argument fault. -/
def ArgumentFault.message : ArgumentFault → String
  | .columnNameRequired => "Column name is required"
  | .directionCount columns directions =>
    "Expected one sort direction per column, but got " ++ toString columns ++ " columns and "
      ++ toString directions ++ " directions"
  | .rowWidth row schema relation =>
    "Row " ++ (Value.tuple row).literal ++ " does not match schema " ++ schema ++ " of relation "
      ++ relation.text
  | .pairWidth position width =>
    "dictionary update sequence element #" ++ toString position ++ " has length " ++ toString width
      ++ "; 2 is required"
  | .frameWidth columns cells =>
    toString columns ++ " columns passed, passed data had " ++ toString cells ++ " columns"
  | .unmatchedBrace brace =>
    "Single '" ++ String.singleton brace ++ "' encountered in format string"
  | .unfinishedField => "expected '\x7d' before end of string"
  | .calendar cause => cause.message

/-- The text of a fault. The text of ill-typed values is left open. -/
def Fault.message : Fault → String
  | .query key params _ =>
    match Message.resolve key params with
    | .ok text => text
    | .error _ => Message.withParams key params
  | .violation cause none => cause.message
  | .violation cause (some span) => cause.message ++ " (at " ++ span.display ++ ")"
  | .unsupported construct => "Not implemented: " ++ construct
  | .document cause => cause.message
  | .noSchema relation => "Relation " ++ relation.text ++ " does not have a schema"
  | .argument cause => cause.message
  | .illTyped _ => ""

/-- The fault points to a defect instead of a faulty query or argument. -/
def Fault.isDefect : Fault → Bool
  | .violation _ _ | .unsupported _ => true
  | _ => false

/-- The result of an operation that can fail. -/
abbrev Outcome (α : Type) := Except Fault α

/-- The fault of a query, or the reason why its message cannot be produced. -/
def Fault.ofQuery (key : String) (params : Members) (span : Option SourceSpan) : Fault :=
  match Message.resolve key params with
  | .ok _ => .query key params span
  | .error cause => .illTyped cause

/-- The value has the wrong type for an operation. -/
def wrongType {α : Type} : Outcome α :=
  .error (.illTyped .wrongType)

/-- The value lacks a field or a method. -/
def noAttribute {α : Type} : Outcome α :=
  .error (.illTyped .noAttribute)

namespace Value

/-- The text of a value, unless it is an object without one. -/
def shown (v : Value) : Outcome String :=
  v.text?.mapError Fault.illTyped

/-- The items that iteration over a value yields: characters of a text, keys of an object. -/
def items : Value → Outcome (List Value)
  | .list items | .tuple items | .set items => .ok items
  | .string s => .ok (s.toList.map fun c => .string (String.singleton c))
  | .object members => .ok (members.map Prod.fst)
  | .bytes octets => .ok (octets.map fun o => .int o.toNat)
  | _ => wrongType

/-- The entry that a pair of an assignment list stands for. -/
def assignment (position : Nat) (pair : Value) : Outcome (Value × Value) := do
  match ← pair.items with
  | [key, value] => if key.isHashable then .ok (key, value) else wrongType
  | cells => .error (.argument (.pairWidth position cells.length))

/-- The members with the pairs of a list, counted from a position, assigned up to the first item
that is no such pair, and the fault that stopped them. -/
def assignPairs (members : Members) (position : Nat) : List Value → Members × Outcome Unit
  | [] => (members, .ok ())
  | pair :: rest =>
    match assignment position pair with
    | .ok (key, value) => assignPairs (members.put key value) (position + 1) rest
    | .error fault => (members, .error fault)

/-- The members overlaid with a value that is an object, a list of pairs or nothing at all. Pairs
before a bad one stay. -/
def overlay (members : Members) (v : Value) : Members × Outcome Unit :=
  if !v.isTruthy then (members, .ok ())
  else
    match v with
    | .object other => (members.merge other, .ok ())
    | v =>
      match v.items with
      | .ok pairs => assignPairs members 0 pairs
      | .error fault => (members, .error fault)

/-- The members of a value that is an object, a list of pairs or nothing at all. -/
def toMembers (v : Value) : Outcome Members :=
  match v with
  | .object members => .ok members
  | v => (overlay [] v).2.map fun _ => (overlay [] v).1

/-- The items without those that repeat an earlier one. -/
def distinct (seen : List Value) : List Value → List Value
  | [] => []
  | v :: vs => if seen.any (·.same v) then distinct seen vs else v :: distinct (v :: seen) vs

/-- The set of items, which all must be able to be keys. -/
def makeSet (items : List Value) : Outcome Value :=
  if items.all isHashable then .ok (.set (distinct [] items)) else wrongType

/-- The number nearest to a number, which may be an integer or a truth value. -/
def toDouble (v : Value) : Outcome Double :=
  match v with
  | .float x => .ok x
  | v =>
    match v.toInt? with
    | none => wrongType
    | some i =>
      match Double.ofInt? i with
      | some x => .ok x
      | none => .error (.illTyped .outOfRange)

/-- The value is a number with a fraction part. -/
def isDouble : Value → Bool
  | .float _ => true
  | _ => false

/-- The sum of two numbers, or the concatenation of two texts or sequences. -/
def add (v w : Value) : Outcome Value :=
  match v, w with
  | .string a, .string b => .ok (.string (a ++ b))
  | .list a, .list b => .ok (.list (a ++ b))
  | .tuple a, .tuple b => .ok (.tuple (a ++ b))
  | .bytes a, .bytes b => .ok (.bytes (a ++ b))
  | v, w =>
    if v.isDouble || w.isDouble then do
      let x ← v.toDouble
      let y ← w.toDouble
      .ok (.float (x.add y))
    else
      match v.toInt?, w.toInt? with
      | some i, some j => .ok (.int (i + j))
      | _, _ => wrongType

/-- The value is a number above zero. -/
def isPositive (v : Value) : Outcome Bool :=
  match v with
  | .float x => .ok x.isPositive
  | v =>
    match v.toInt? with
    | some i => .ok (decide (0 < i))
    | none => wrongType

end Value

end LogicalPlan
