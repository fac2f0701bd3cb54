import LogicalPlan.Fault

/-!
# Assignments inside nested values

A path of keys and positions leads into nested objects and lists. Assigning at a path replaces what
it leads to and leaves everything beside it alone.
-/

namespace LogicalPlan

/-- The position in a list that an integer denotes; negative ones count from the end. -/
def positionIn (length : Nat) (i : Int) : Outcome Nat :=
  let j := if i < 0 then i + length else i
  if 0 ≤ j ∧ j < length then .ok j.toNat else .error (.illTyped .noIndex)

namespace Value

/-- The item of a sequence that a key denotes, with its position. -/
def itemAt (items : List Value) (key : Value) : Outcome (Nat × Value) :=
  match key.toInt? with
  | none => wrongType
  | some i => do
    let position ← positionIn items.length i
    .ok (position, (items[position]?).getD .null)

/-- The value with another one assigned at a path. Only the last key of a path may be missing.
Texts, octets and tuples can be entered, but nothing in them can be replaced. -/
def assignAt (v : Value) (path : List Value) (new : Value) : Outcome Value :=
  match path, v with
  | [], _ => .ok new
  | key :: rest, .object members =>
    if key.isHashable then do
      let inner ← match rest, Members.find? members key with
        | [], _ => .ok .null
        | _, some inner => .ok inner
        | _, none => .error (.illTyped .noKey)
      let inner ← assignAt inner rest new
      .ok (.object (Members.put members key inner))
    else wrongType
  | key :: rest, .list items => do
    let (position, inner) ← itemAt items key
    let inner ← assignAt inner rest new
    .ok (.list (items.set position inner))
  | key :: next :: rest, .tuple items => do
    let (position, inner) ← itemAt items key
    let inner ← assignAt inner (next :: rest) new
    .ok (.tuple (items.set position inner))
  | key :: next :: rest, .string s => do
    let (_, inner) ← itemAt (s.toList.map fun c => .string (String.singleton c)) key
    let _ ← assignAt inner (next :: rest) new
    wrongType
  | key :: _ :: _, .bytes octets => do
    let _ ← itemAt (octets.map fun o => .int o.toNat) key
    wrongType
  | _, _ => wrongType

end Value

/-- The members with a value assigned at a path, which must have a key. -/
def Members.assignAt (members : Members) (path : List Value) (new : Value) : Outcome Members := do
  match path, ← Value.assignAt (.object members) path new with
  | _ :: _, .object assigned => .ok assigned
  | _, _ => .error (.illTyped .noIndex)

end LogicalPlan
