import LogicalPlan.Expr.Basic

/-!
# Limits as conditions

There is no operator for limits. The condition compares the row number instead: rows after the
offset are kept, and at most as many of them as the limit says.
-/

namespace LogicalPlan

/-- The limit does not restrict the number of rows. -/
def isLimitAll (limit : Value) : Bool :=
  limit.same (.int (-1))

/-- The number of the current row. -/
def rowNumber (origin : Origin) : Expr :=
  .apply origin (.string "number") (.string "rownum") []

/-- A constant number. -/
def numberConstant (origin : Origin) (v : Value) : Expr :=
  .apply origin (.string "number") Expr.constantName [.literal v]

/-- A truth value computed from two expressions. -/
def booleanOf (origin : Origin) (operator : String) (left right : Expr) : Expr :=
  .apply origin (.string "boolean") (.string operator) [.nested left, .nested right]

/-- The condition that keeps the rows of a limit and an offset. All of its parts get the given
position. -/
def limitCondition (limit offset : Value) (span : Option SourceSpan) : Outcome Expr :=
  let origin : Origin := ⟨span, false⟩
  let above := booleanOf origin ">" (rowNumber origin) (numberConstant origin offset)
  if isLimitAll limit then .ok above
  else do
    let last ← limit.add offset
    let within := booleanOf origin "<=" (rowNumber origin) (numberConstant origin last)
    .ok (booleanOf origin "and" above within)

end LogicalPlan
