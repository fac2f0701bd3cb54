/-!
# Texts of structured objects

A structured object that is carried as a value shows a text of its own. The text is made when the
object becomes a value, and for some objects this fails; the cause is kept and reported where the
text is asked for.
-/

namespace LogicalPlan

/-- How a value of the wrong type fails where it is first used. -/
inductive TypeFault where
  | wrongType
  | noAttribute
  | noKey
  | noIndex
  | notJson
  | outOfRange
  deriving DecidableEq

/-- The text of a structured object, or the reason why there is none. -/
inductive ObjectText where
  | shown (text : String)
  | failed (cause : TypeFault)
  deriving DecidableEq

instance : Inhabited ObjectText := ⟨.shown ""⟩

/-- The text, or another one if there is none. -/
def ObjectText.getD (text : ObjectText) (missing : String) : String :=
  match text with
  | .shown s => s
  | .failed _ => missing

/-- The text as a result that can fail. -/
def ObjectText.result : ObjectText → Except TypeFault String
  | .shown s => .ok s
  | .failed cause => .error cause

end LogicalPlan
