import LogicalPlan.Fault
import LogicalPlan.Json.Reader

/-!
# Attributes of parser documents

A document is an object or the JSON text of one. Attributes are read by key; what is read is lighter
than the document, so documents can be loaded by recursion on their weight. A value of the wrong
type fails in the way in which it is used.
-/

namespace LogicalPlan

namespace Document

/-- Members that are lighter than a bound. -/
abbrev MembersBelow (bound : Nat) := { members : Members // Value.membersWeight members < bound }

/-- A value that is lighter than a bound. -/
abbrev ValueBelow (bound : Nat) := { v : Value // v.weight < bound }

/-- The members of a document, which may be given as JSON text. -/
def membersOf (doc : Value) : Outcome (MembersBelow doc.weight) :=
  match doc with
  | .object members => .ok ⟨members, by simp only [Value.weight]; omega⟩
  | .string text =>
    match h : Json.read? text with
    | none => .error (.illTyped .notJson)
    | some (.object members) =>
      .ok ⟨members, by have := Json.weight_of_read? h; simp only [Value.weight] at *; omega⟩
    | some found => .error (.document (.notObject found))
  | _ => wrongType

/-- The value of an attribute that has to be there. -/
def require (members : Members) (key : String) :
    Outcome (ValueBelow (Value.membersWeight members)) :=
  match h : members.get? key with
  | some v => .ok ⟨v, Members.weight_of_get? h⟩
  | none => .error (.document (.missingAttribute key members))

/-- The value of an attribute, or null. -/
def attributeOf (members : Members) (key : String) : Value :=
  (members.get? key).getD .null

/-- The value of an attribute counts as true. -/
def flag (members : Members) (key : String) (missing : Bool) : Bool :=
  ((members.get? key).map Value.isTruthy).getD missing

/-- A text occurs inside another one. -/
def occursIn (part : List Char) : List Char → Bool
  | [] => part.isEmpty
  | c :: cs => part.isPrefixOf (c :: cs) || occursIn part cs

/-- A value that is no object contains a key: as an item or as a part of a text. Other values cannot
be searched. -/
def contains (v : Value) (key : String) : Outcome Bool :=
  match v with
  | .string s => .ok (occursIn key.toList s.toList)
  | .list items | .tuple items | .set items => .ok (items.any (·.same (.string key)))
  | .object members => .ok (Members.get? members key).isSome
  | _ => wrongType

/-- The members of a node whose first use is to ask for a key. -/
def nodeWith (key : String) (doc : Value) : Outcome Members :=
  match doc with
  | .object members => .ok members
  | doc => do
    let found ← contains doc key
    if found then wrongType else noAttribute

/-- The members of a node whose first use is to read an attribute that may be missing. -/
def node (doc : Value) : Outcome Members :=
  match doc with
  | .object members => .ok members
  | _ => noAttribute

/-- The value of a required attribute of a node whose members are known. -/
def requireValue (members : Members) (key : String) : Outcome Value := do
  let v ← require members key
  .ok v.val

end Document

end LogicalPlan
