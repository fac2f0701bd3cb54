import Mathlib.Data.List.Basic
import LogicalPlan.Plan.Basic

/-!
# Nodes of plans

The nodes of a plan are the root and the nodes of its inputs, in preorder. What inputs inherit from
the operator above them holds of all nodes as soon as it holds of the root.
-/

namespace LogicalPlan

namespace Plan

@[simp] theorem children_withNotes (notes : Notes) (p : Plan) :
    (p.withNotes notes).children = p.children := by
  cases p <;> rfl

@[simp] theorem expressions_withNotes (notes : Notes) (p : Plan) :
    (p.withNotes notes).expressions = p.expressions := by
  cases p <;> rfl

theorem walk_eq (p : Plan) : p.walk = p :: p.children.flatMap walk := by
  cases p <;> simp [walk, children]

/-- A property holds of all plans if every plan gets it from its inputs. -/
theorem children_induction {motive : Plan → Prop}
    (step : ∀ p, (∀ q ∈ p.children, motive q) → motive p) (p : Plan) : motive p := by
  induction p with
  | relation notes base => exact step _ nofun
  | unary notes op input ih => exact step _ (List.forall_mem_singleton.mpr ih)
  | binary notes op left right ihl ihr =>
      refine step _ fun q hq => ?_
      rcases List.mem_pair.mp hq with rfl | rfl
      · exact ihl
      · exact ihr

theorem mem_walk_self (p : Plan) : p ∈ p.walk := by
  rw [walk_eq]
  exact List.mem_cons_self

theorem walk_subset_of_mem_children {p q : Plan} (hq : q ∈ p.children) : q.walk ⊆ p.walk := by
  intro node hnode
  rw [walk_eq]
  exact List.mem_cons_of_mem _ (List.mem_flatMap.mpr ⟨q, hq, hnode⟩)

/-- A property that inputs inherit holds of all nodes of a plan that has it. -/
theorem of_mem_walk {motive : Plan → Prop} (inherit : ∀ p, motive p → ∀ q ∈ p.children, motive q)
    {p node : Plan} (hp : motive p) (hnode : node ∈ p.walk) : motive node := by
  induction p with
  | relation notes base =>
      rw [List.mem_singleton.mp hnode]
      exact hp
  | unary notes op input ih =>
      rcases List.mem_cons.mp hnode with rfl | hnode
      · exact hp
      · exact ih (inherit _ hp input (by simp [children])) hnode
  | binary notes op left right ihl ihr =>
      rcases List.mem_cons.mp hnode with rfl | hnode
      · exact hp
      · rcases List.mem_append.mp hnode with hnode | hnode
        · exact ihl (inherit _ hp left (by simp [children])) hnode
        · exact ihr (inherit _ hp right (by simp [children])) hnode

/-- The nodes of a node of a plan are nodes of the plan. -/
theorem walk_subset_of_mem_walk {p node : Plan} (hnode : node ∈ p.walk) : node.walk ⊆ p.walk := by
  refine of_mem_walk (motive := fun q => q.walk ⊆ p.walk) ?_ (List.Subset.refl _) hnode
  intro q hq below hbelow
  exact List.Subset.trans (walk_subset_of_mem_children hbelow) hq

end Plan

end LogicalPlan
