import LogicalPlan.Plan.Label

/-!
# Positions of plans

A complete plan knows a source position for every operator and every expression in it. The first gap
in preorder is reported.
-/

namespace LogicalPlan

/-- All parts of an expression at a node of a plan have a position. -/
def Expr.verifyPositions (e : Expr) (node : Plan) : Outcome Unit :=
  e.walk.forM fun part =>
    match part.span with
    | some _ => .ok ()
    | none => do
      let label ← node.label
      .error (.violation (.unpositionedExpression part.literal label) node.span)

/-- The root of a plan and its expressions have positions. -/
def Plan.verifyRoot (node : Plan) : Outcome Unit :=
  match node.span with
  | none => .error (.violation (.unpositionedOperator node.literal) none)
  | some _ => node.expressions.forM (·.verifyPositions node)

/-- All operators and expressions of a plan have positions. -/
def Plan.verifyPositions (p : Plan) : Outcome Unit :=
  p.walk.forM Plan.verifyRoot

end LogicalPlan
