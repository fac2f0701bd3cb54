import LogicalPlan.Plan.Positions
import LogicalPlan.Proofs.Outcome
import LogicalPlan.Proofs.Plan.Walk

/-!
# Plans with positions

The verification of positions looks at every operator of a plan and at every part of its
expressions, and it fails as soon as one of them has no position.
-/

namespace LogicalPlan

open Outcome

/-- The expression and all expressions nested in it have positions. -/
def Expr.IsPositioned (e : Expr) : Prop :=
  ∀ part ∈ e.walk, part.span ≠ none

theorem Expr.verifyPositions_eq_ok {e : Expr} {node : Plan} :
    e.verifyPositions node = .ok () ↔ e.IsPositioned := by
  unfold verifyPositions IsPositioned
  rw [forM_eq_ok]
  refine forall₂_congr fun part _ => ?_
  cases part.span with
  | some span => simp
  | none => cases node.label <;> simp

namespace Plan

theorem verifyRoot_eq_ok {node : Plan} :
    node.verifyRoot = .ok () ↔ node.span ≠ none ∧ ∀ e ∈ node.expressions, e.IsPositioned := by
  unfold verifyRoot
  cases node.span with
  | none => simp
  | some span =>
      simp only [forM_eq_ok, Expr.verifyPositions_eq_ok, ne_eq, reduceCtorEq, not_false_eq_true,
        true_and]

/-- The expressions of all nodes of the plan. -/
def allExpressions (p : Plan) : List Expr :=
  p.walk.flatMap expressions

theorem allExpressions_withNotes (notes : Notes) (p : Plan) :
    (p.withNotes notes).allExpressions = p.allExpressions := by
  rw [allExpressions, allExpressions, walk_eq, walk_eq p, List.flatMap_cons, List.flatMap_cons,
    expressions_withNotes, children_withNotes]

/-- Verification succeeds exactly if all operators and all their expressions have positions. -/
theorem verifyPositions_eq_ok {p : Plan} :
    p.verifyPositions = .ok () ↔
      (∀ node ∈ p.walk, node.span ≠ none) ∧ ∀ e ∈ p.allExpressions, e.IsPositioned := by
  unfold verifyPositions allExpressions
  simp only [forM_eq_ok, verifyRoot_eq_ok, List.forall_mem_flatMap, forall₂_and]

end Plan

end LogicalPlan
