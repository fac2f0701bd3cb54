import LogicalPlan.Fault

/-!
# Column references

A column is referenced by its name or by its position in a schema, counted from one; truth values
are positions too. The name `*` stands for all columns. A reference can be qualified by a relation
alias.
-/

namespace LogicalPlan

/-- A column reference. The alias is null if the reference is not qualified. -/
structure Column where
  name : Value
  relAlias : Value
  deriving DecidableEq, Inhabited

namespace Column

/-- The reference with the given name and alias. The name must not be empty, an empty alias counts
as none, and both must be fit to be keys. -/
def make (name relAlias : Value) : Outcome Column :=
  if name = .null ∨ name = .string "" then .error (.argument .columnNameRequired)
  else
    let relAlias := if relAlias.isTruthy then relAlias else .null
    if name.isHashable && relAlias.isHashable then .ok ⟨name, relAlias⟩ else wrongType

/-- The name must be there, and an empty alias counts as none. -/
theorem eq_of_make {name relAlias : Value} {c : Column} (h : make name relAlias = .ok c) :
    c = ⟨name, if relAlias.isTruthy then relAlias else .null⟩ := by
  unfold make at h
  split at h
  · cases h
  dsimp only at h
  generalize (if relAlias.isTruthy then relAlias else .null) = qualifier at h ⊢
  split at h
  · exact (Except.ok.inj h).symm
  · cases h

/-- The reference stands for all columns of a relation. -/
def isWildcard (c : Column) : Bool :=
  c.name == .string "*"

/-- The reference is a position. -/
def isIndex (c : Column) : Bool :=
  c.name.toInt?.isSome

/-- The text of a reference: positions stand in brackets. -/
def text (c : Column) : String :=
  let name := if c.isIndex then "[" ++ c.name.text ++ "]" else c.name.text
  if c.relAlias.isTruthy then c.relAlias.text ++ "." ++ name else name

/-- The literal form of a reference. -/
def literal (c : Column) : String :=
  "Column(name=" ++ c.name.literal ++ ", rel_alias=" ++ c.relAlias.literal ++ ")"

/-- What stands for a reference in a key. -/
def keyParts (c : Column) : List Value :=
  [c.name, c.relAlias]

/-- The reference as an exported value. -/
def toValue (c : Column) : Value :=
  .record "Column" (.shown c.text) c.literal c.keyParts
    (Members.ofFields [("name", c.name), ("relAlias", c.relAlias)])

/-- The reference with its fields in normal form. -/
def normal (c : Column) : Column :=
  ⟨c.name.normal, c.relAlias.normal⟩

/-- Two references count as the same reference. -/
def same (c d : Column) : Bool :=
  decide (c.normal = d.normal)

/-- What tells references apart when they are used as keys. -/
def signature (c : Column) : Value :=
  .tuple c.keyParts

/-- A column that may be missing as an exported value. -/
def optionToValue (c : Option Column) : Value :=
  (c.map toValue).getD .null

end Column

end LogicalPlan
