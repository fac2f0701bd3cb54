import LogicalPlan.Document.Access

/-!
# Loading source positions

A position record has a text and two end points, either directly or inside a `location` object. The
fields of a point default to the start of the text.
-/

namespace LogicalPlan

namespace Document

/-- A point; offsets count from zero, lines and columns from one. -/
def loadPoint (doc : Value) : Outcome SourcePoint := do
  let members ← node doc
  .ok {
    offset := (members.get? "offset").getD (.int 0)
    line := (members.get? "line").getD (.int 1)
    column := (members.get? "column").getD (.int 1) }

/-- The end points that a value offers, if it offers both. -/
def endPoints (location : Value) : Outcome (Option (Value × Value)) :=
  match location with
  | .object members =>
    match Members.get? members "start", Members.get? members "end" with
    | some start, some stop => .ok (some (start, stop))
    | _, _ => .ok none
  | location => do
    let hasStart ← contains location "start"
    let hasStop ← contains location "end"
    if hasStart && hasStop then wrongType else .ok none

/-- A position record; everything that counts as false stands for a missing one. -/
def loadSpan (doc : Value) : Outcome (Option SourceSpan) :=
  if !doc.isTruthy then .ok none
  else do
    let members ← node doc
    match ← endPoints ((members.get? "location").getD (.object members)) with
    | none => .error (.document (.incompleteSpan members))
    | some (start, stop) =>
      let start ← loadPoint start
      let stop ← loadPoint stop
      .ok (some ⟨(members.get? "text").getD (.string ""), start, stop⟩)

/-- The origin of a node. -/
def loadOrigin (members : Members) : Outcome Origin := do
  let span ← loadSpan (attributeOf members "codeInfo")
  .ok ⟨span, flag members "wrappedInParentheses" false⟩

end Document

end LogicalPlan
