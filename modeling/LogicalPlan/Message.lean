import LogicalPlan.Text.Template

/-!
# Messages

Diagnostics carry a message key and parameters instead of a final text. The catalog holds an English
template for every key that the compiler reports. A key without template is shown as it is, followed
by its parameters; a template that lacks a parameter is shown unfilled in the same way. A parameter
without a text leaves the whole message without a text.
-/

namespace LogicalPlan

namespace Message

/-- A query refers to a relation that does not exist. -/
def relationNotFound := "db.messages.translate.error-relation-not-found"

/-- A statement keeps duplicates although relations are sets. -/
def distinctMissing := "db.messages.translate.warning-distinct-missing"

/-- A set operation is marked to keep duplicates although relations are sets. -/
def allIgnored := "db.messages.translate.warning-ignored-all-on-set-operators"

/-- No column matches a reference. -/
def columnNotFound := "db.messages.exec.error-column-not-found-name"

/-- A position lies outside of a schema. -/
def columnIndexOutOfRange := "db.messages.exec.error-column-index-out-of-range"

/-- Several columns match a reference. -/
def columnAmbiguous := "db.messages.exec.error-column-ambiguous"

/-- A schema contains a qualified column twice. -/
def columnNotUnique := "db.messages.exec.error-column-not-unique"

/-- The operands of a set operation have different shapes. -/
def schemasNotUnifiable := "db.messages.exec.error-schemas-not-unifiable"

/-- A join column is missing from one operand. -/
def joinColumnMissing := "db.messages.exec.error-natural-join-column-missing"

/-- The columns of a divisor are not properly contained in the dividend. -/
def divisionInvalid := "db.messages.exec.error-division-schema-invalid"

/-- The English templates of all keys. -/
def catalog : List (String × String) := [
  (relationNotFound, "cannot find relation \"\x7bname\x7d\""),
  (distinctMissing,
    "DISTINCT is missing: the result is evaluated with bag semantics and may contain duplicates"),
  (allIgnored, "ALL is ignored for set operators: the result is computed with set semantics"),
  (columnNotFound, "column \"\x7bcolumn\x7d\" not found in \x7bschema\x7d"),
  (columnIndexOutOfRange,
    "column index [\x7bindex\x7d] is out of range, the schema has \x7blength\x7d columns"),
  (columnAmbiguous, "column \"\x7bcolumn\x7d\" is ambiguous in \x7bschema\x7d"),
  (columnNotUnique, "column \"\x7bcolumn\x7d\" is contained more than once in \x7bschema\x7d"),
  (schemasNotUnifiable, "the schemas \x7bleft\x7d and \x7bright\x7d are not unifiable"),
  (joinColumnMissing,
    "column \"\x7bcolumn\x7d\" used in the join condition is not part of both relations"),
  (divisionInvalid,
    "the schema \x7bright\x7d of the divisor must be a proper subset of the schema \x7bleft\x7d")]

/-- A text followed by the parameters of its message. -/
def withParams (text : String) (params : Members) : String :=
  text ++ " " ++ (Value.object params).literal

/-- The display text of a message. It fails if a parameter that belongs into it has no text. -/
def resolve (key : String) (params : Members) : Except TypeFault String :=
  match catalog.lookup key with
  | none => .ok (if params.isEmpty then key else withParams key params)
  | some template =>
    match Template.fill template params with
    | .ok text => .ok text
    | .error (.textless cause) => .error cause
    | .error _ => .ok (withParams template params)

end Message

end LogicalPlan
