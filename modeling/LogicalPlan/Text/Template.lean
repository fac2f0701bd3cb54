import LogicalPlan.Value.Text

/-!
# Message templates

A template is a text with named fields between braces; a doubled brace stands for a single one.
Filling a template replaces every field by the text of the parameter of that name.
-/

namespace LogicalPlan

/-- The reasons why a template cannot be filled. -/
inductive TemplateFault where
  /-- There is no parameter for a field. -/
  | missing (name : String)
  /-- A field is empty or a number, but parameters have names. -/
  | numbered
  /-- The parameter for a field has no text. -/
  | textless (cause : TypeFault)
  /-- A brace is neither doubled nor part of a field. -/
  | unmatched (brace : Char)
  /-- The last field is not closed. -/
  | unfinished
  deriving DecidableEq

namespace Template

/-- The brace that opens a field. -/
def opening : Char := '\x7b'

/-- The brace that closes a field. -/
def closing : Char := '\x7d'

/-- Fill the rest of a template, given the reversed name of the field that has been entered. -/
def fillFrom (params : Members) : Option (List Char) → List Char → Except TemplateFault (List Char)
  | none, [] => .ok []
  | some _, [] => .error .unfinished
  | none, [c] => if c = opening ∨ c = closing then .error (.unmatched c) else .ok [c]
  | none, c :: d :: rest =>
    if c = opening ∧ d = opening ∨ c = closing ∧ d = closing then
      (fillFrom params none rest).map (c :: ·)
    else if c = opening then fillFrom params (some []) (d :: rest)
    else if c = closing then .error (.unmatched c)
    else (fillFrom params none (d :: rest)).map (c :: ·)
  | some name, c :: rest =>
    if c = closing then
      let field := String.ofList name.reverse
      if name.all Char.isDigit then .error .numbered
      else
        match params.get? field with
        | none => .error (.missing field)
        | some v =>
          match v.text? with
          | .error cause => .error (.textless cause)
          | .ok text => (fillFrom params none rest).map (text.toList ++ ·)
    else fillFrom params (some (c :: name)) rest

/-- The template with its fields replaced by parameters. -/
def fill (template : String) (params : Members) : Except TemplateFault String :=
  (fillFrom params none template.toList).map String.ofList

end Template

end LogicalPlan
