import LogicalPlan.Lowering.Traced
import LogicalPlan.Plan.Positions

/-!
# Annotations and the catalog

Every operator receives the annotations of the query node that it was made for. Base relations come
from a catalog; a reference yields a relation with its own notes, so annotating it leaves the
catalog alone.
-/

namespace LogicalPlan

/-- What a compilation checks and reports. -/
structure Settings where
  /-- Report the steps in a log. -/
  verbose : Bool := false
  /-- Check the input of every selection of a statement. -/
  checkSchemas : Bool := true
  /-- Check that the finished plan has positions everywhere. -/
  verifyPositions : Bool := true
  deriving DecidableEq, Inhabited

/-- The relations that queries can refer to, with the notes that come along. -/
abbrev Catalog := List (String × Notes × Relation)

namespace Catalog

/-- The relation of a name, as a plan. Names other than texts are never found. -/
def find? (catalog : Catalog) : Value → Option Plan
  | .string name => (List.lookup name catalog).map fun (notes, base) => .relation notes base
  | _ => none

/-- The plan that a reference to a relation denotes. -/
def lookUp (catalog : Catalog) (verbose : Bool) (name : Value) (span : Option SourceSpan) :
    Traced Plan :=
  if !name.isHashable then Traced.ofOutcome wrongType
  else
    match catalog.find? name with
    | none =>
      let params := Members.ofFields [("name", name)]
      Traced.ofOutcome (.error (.query Message.relationNotFound params span))
    | some plan => do
      Traced.write verbose
        [.ok "Resolved relation", .ok name.text, .ok "at", .ok (SourceSpan.optionToValue span).text]
      pure plan

end Catalog

/-- The position of a query node, which the parser has to provide. -/
def Origin.require (origin : Origin) (kind : String) : Outcome SourceSpan :=
  match origin.span with
  | some span => .ok span
  | none => .error (.violation (.unpositionedQuery kind) none)

/-- The plan with the annotations of a query node at its root. An explicit position overrides the
one of the node. -/
def Plan.annotate (p : Plan) (kind : String) (origin : Origin) (metadata : Members)
    (override : Option SourceSpan) : Outcome Plan := do
  let span ← match override with
    | some span => .ok span
    | none => origin.require kind
  .ok (p.withNotes (p.notes.overlay span origin.parenthesized metadata))

/-- The plan, provided that it has positions everywhere if that is to be verified. -/
def Plan.verifiedIf (wanted : Bool) (p : Plan) : Outcome Plan := do
  if wanted then p.verifyPositions
  .ok p

end LogicalPlan
