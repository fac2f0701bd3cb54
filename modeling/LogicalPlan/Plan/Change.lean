import LogicalPlan.Plan.Basic

/-!
# Changes of notes

What is noted at a node can be changed piece by piece. A change that fails stops the changes after
it, and what was changed before it stays: `applyUntil` is the only way in which notes are left half
changed.
-/

namespace LogicalPlan

/-- A change of the notes at a node. -/
inductive NotesChange where
  /-- Another position, or none. -/
  | span (s : Option SourceSpan)
  /-- Metadata that are laid over the present ones. -/
  | metadata (v : Value)
  /-- Whether the node stood in parentheses. -/
  | parenthesized (b : Bool)
  /-- One more warning. -/
  | warning (w : Warning)
  deriving Inhabited

namespace Notes

/-- The notes after a change, and what stopped it halfway. -/
def apply (notes : Notes) : NotesChange → Notes × Outcome Unit
  | .span s => ({ notes with span := s }, .ok ())
  | .metadata v =>
    let (metadata, outcome) := Value.overlay notes.metadata v
    ({ notes with metadata }, outcome)
  | .parenthesized b => ({ notes with parenthesized := b }, .ok ())
  | .warning w => (notes.warn w, .ok ())

/-- The notes after the changes up to the first one that fails or is not known, and the fault that
stopped them. -/
def applyUntil (notes : Notes) : List (Outcome NotesChange) → Notes × Outcome Unit
  | [] => (notes, .ok ())
  | .error fault :: _ => (notes, .error fault)
  | .ok change :: rest =>
    match notes.apply change with
    | (notes, .ok ()) => applyUntil notes rest
    | (notes, .error fault) => (notes, .error fault)

@[simp] theorem applyUntil_nil (notes : Notes) : notes.applyUntil [] = (notes, .ok ()) :=
  rfl

@[simp] theorem applyUntil_error (notes : Notes) (fault : Fault)
    (rest : List (Outcome NotesChange)) :
    notes.applyUntil (.error fault :: rest) = (notes, .error fault) :=
  rfl

end Notes

end LogicalPlan
