import LogicalPlan.Log

/-!
# Traced computations

A compilation step yields an outcome and, on request, log entries that report it. Entries that were
written before a failure remain. The log never influences the outcome, except that an entry whose
text cannot be produced fails the step that writes it.
-/

namespace LogicalPlan

/-- An outcome together with the log entries that were written on the way. -/
structure Traced (α : Type) where
  log : List LogEntry
  result : Outcome α

namespace Traced

instance {α : Type} : Inhabited (Traced α) := ⟨⟨[], .error default⟩⟩

/-- Continue with the outcome of a computation, unless it failed. -/
def bind {α β : Type} (t : Traced α) (next : α → Traced β) : Traced β :=
  match t.result with
  | .error fault => ⟨t.log, .error fault⟩
  | .ok a => ⟨t.log ++ (next a).log, (next a).result⟩

instance : Monad Traced where
  pure a := ⟨[], .ok a⟩
  bind := Traced.bind

/-- An outcome with an empty log. -/
def ofOutcome {α : Type} (outcome : Outcome α) : Traced α :=
  ⟨[], outcome⟩

instance : MonadLift (Except Fault) Traced where
  monadLift := ofOutcome

/-- Write an entry if the log is wanted. Its texts are produced only then. -/
def write (wanted : Bool) (parts : List (Outcome String)) : Traced Unit :=
  if wanted then
    let (entry, outcome) := LogEntry.ofParts parts
    ⟨[entry], outcome⟩
  else ⟨[], .ok ()⟩

@[simp] theorem result_pure {α : Type} (a : α) : (pure a : Traced α).result = .ok a :=
  rfl

@[simp] theorem log_pure {α : Type} (a : α) : (pure a : Traced α).log = [] :=
  rfl

@[simp] theorem result_bind {α β : Type} (t : Traced α) (next : α → Traced β) :
    (t >>= next).result = t.result >>= fun a => (next a).result := by
  cases h : t.result <;> simp [Bind.bind, Traced.bind, Except.bind, h]

@[simp] theorem result_ofOutcome {α : Type} (outcome : Outcome α) :
    (ofOutcome outcome).result = outcome :=
  rfl

@[simp] theorem result_lift {α : Type} (outcome : Outcome α) :
    (liftM outcome : Traced α).result = outcome :=
  rfl

@[simp] theorem log_ofOutcome {α : Type} (outcome : Outcome α) : (ofOutcome outcome).log = [] :=
  rfl

@[simp] theorem write_unwanted (parts : List (Outcome String)) :
    write false parts = ⟨[], .ok ()⟩ :=
  rfl

end Traced

end LogicalPlan
