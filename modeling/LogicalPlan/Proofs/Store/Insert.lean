import Mathlib.Data.List.Flatten
import LogicalPlan.Proofs.Graph.Exploration
import LogicalPlan.Proofs.Outcome
import LogicalPlan.Store

/-!
# Stored plans

A plan is stored in postorder, so its root is the last of its nodes. The nodes unfold to the plan
again and share nothing, hence the check of the stored root is the check of the plan.
-/

namespace LogicalPlan

open Outcome
open scoped List

/-- The number of nodes of a plan. -/
def Plan.size : Plan → Nat
  | .relation _ _ => 1
  | .unary _ _ input => input.size + 1
  | .binary _ _ left right => left.size + right.size + 1

theorem Plan.size_pos (p : Plan) : 0 < p.size := by
  cases p <;> simp [size]

namespace Store

/-- The number of the root of a plan that is stored from the given number on. -/
def rootFrom (start : Nat) (p : Plan) : Nat :=
  start + p.size - 1

theorem range'_size (start : Nat) (p : Plan) :
    List.range' start p.size = List.range' start (p.size - 1) ++ [rootFrom start p] := by
  obtain ⟨n, hn⟩ := Nat.exists_eq_add_of_lt p.size_pos
  simp [rootFrom, hn, List.range'_1_concat]

/-- The nodes from the given number on are the ones of the plan in postorder. -/
def Holds (s : Store) (start : Nat) : Plan → Prop
  | .relation notes base => s.nodes[start]? = some ⟨notes, .relation base⟩
  | .unary notes op input =>
    s.Holds start input ∧
      s.nodes[start + input.size]? = some ⟨notes, .unary op (rootFrom start input)⟩
  | .binary notes op left right =>
    s.Holds start left ∧ s.Holds (start + left.size) right ∧
      s.nodes[start + left.size + right.size]? =
        some ⟨notes, .binary op (rootFrom start left) (rootFrom (start + left.size) right)⟩

theorem Holds.append {s : Store} {start : Nat} {p : Plan} (h : s.Holds start p)
    (more : List StoredNode) : Holds { s with nodes := s.nodes ++ more } start p := by
  have kept {i : Nat} {node : StoredNode} (hi : s.nodes[i]? = some node) :
      (s.nodes ++ more)[i]? = some node := by
    rw [List.getElem?_append_left (List.getElem?_eq_some_iff.mp hi).1, hi]
  induction p generalizing start with
  | relation notes base => exact kept h
  | unary notes op input ih => exact ⟨ih h.1, kept h.2⟩
  | binary notes op left right ihl ihr => exact ⟨ihl h.1, ihr h.2.1, kept h.2.2⟩

/-- Inserting a plan stores its nodes behind the old ones. -/
theorem exists_insert_eq (s : Store) (p : Plan) :
    ∃ more : List StoredNode, more.length = p.size ∧
      s.insert p = (rootFrom s.nodes.length p, { s with nodes := s.nodes ++ more }) ∧
      Holds { s with nodes := s.nodes ++ more } s.nodes.length p := by
  induction p generalizing s with
  | relation notes base =>
      refine ⟨[⟨notes, .relation base⟩], rfl, rfl, ?_⟩
      simp [Holds]
  | unary notes op input ih =>
      obtain ⟨more, hlength, hinsert, hholds⟩ := ih s
      refine ⟨more ++ [⟨notes, .unary op (rootFrom s.nodes.length input)⟩], ?_, ?_, ?_⟩
      · simp [Plan.size, hlength]
      · simp only [insert, hinsert, add, rootFrom, Plan.size, List.append_assoc,
          List.length_append, hlength]
        rfl
      · rw [← List.append_assoc]
        exact ⟨hholds.append _, by simp [hlength]⟩
  | binary notes op left right ihl ihr =>
      obtain ⟨before, hbefore, hleft, hheld⟩ := ihl s
      obtain ⟨more, hlength, hright, hholds⟩ := ihr { s with nodes := s.nodes ++ before }
      simp only [List.length_append, hbefore] at hright hholds
      refine ⟨before ++ (more ++ [⟨notes, .binary op (rootFrom s.nodes.length left)
        (rootFrom (s.nodes.length + left.size) right)⟩]), ?_, ?_, ?_⟩
      · simp only [Plan.size, List.length_append, List.length_singleton, hbefore, hlength]
        omega
      · simp only [insert, hleft, hright, add, rootFrom, Plan.size, List.append_assoc,
          List.length_append, hbefore, hlength]
        congr 1
      · rw [← List.append_assoc, ← List.append_assoc]
        refine ⟨?_, hholds.append _, ?_⟩
        · exact (hheld.append more).append _
        · simp [hbefore, hlength, Nat.add_assoc]

theorem lookup_mapIdx {α β : Type} (f : α → β) (as : List α) (start i : Nat) :
    List.lookup i (as.mapIdx fun j a => (j + start, f a)) =
      if start ≤ i then as[i - start]?.map f else none := by
  induction as generalizing start with
  | nil => simp
  | cons a as ih =>
      have shifted : (fun (j : Nat) (b : α) => (j + 1 + start, f b)) =
          fun j b => (j + (start + 1), f b) := by
        funext j b
        rw [Nat.add_assoc, Nat.add_comm 1 start]
      rw [List.mapIdx_cons, List.lookup_cons, shifted, ih, Nat.zero_add]
      by_cases hi : i = start
      · simp [hi]
      · rw [beq_eq_false_iff_ne.mpr hi]
        by_cases hle : start ≤ i
        · obtain ⟨k, rfl⟩ := Nat.exists_eq_add_of_lt (Nat.lt_of_le_of_ne hle (Ne.symm hi))
          simp [show start + 1 ≤ start + k + 1 by omega, hle,
            show start + k + 1 - (start + 1) = k by omega,
              show start + k + 1 - start = k + 1 by omega]
        · simp [hle, show ¬ start + 1 ≤ i by omega]

/-- A stored node refers to its inputs. -/
theorem children_references {s : Store} {i : Nat} {node : StoredNode}
    (h : s.nodes[i]? = some node) :
    s.references.children i = node.children := by
  have found := lookup_mapIdx StoredNode.children s.nodes 0 i
  simp only [Nat.add_zero, Nat.zero_le, if_true, Nat.sub_zero, h, Option.map_some] at found
  simp [References.children, references, found]

section Held

variable {s : Store} {start : Nat} {p : Plan}

/-- The nodes of a stored plan unfold to it. -/
theorem Holds.plan?_eq (h : s.Holds start p) : s.plan? (rootFrom start p) = some p := by
  induction p generalizing start with
  | relation notes base =>
      unfold plan?
      have root :
          s.nodes[rootFrom start (.relation notes base)]? = some ⟨notes, .relation base⟩ := h
      rw [root]
  | unary notes op input ih =>
      have hpos := input.size_pos
      have root : s.nodes[rootFrom start (.unary notes op input)]? =
          some ⟨notes, .unary op (rootFrom start input)⟩ := h.2
      have below : rootFrom start input < rootFrom start (.unary notes op input) := by
        simp only [rootFrom, Plan.size]
        omega
      unfold plan?
      rw [root]
      simp only [below, dif_pos, ih h.1, Option.map_some]
  | binary notes op left right ihl ihr =>
      have hleft := left.size_pos
      have hright := right.size_pos
      have root : s.nodes[rootFrom start (.binary notes op left right)]? =
          some ⟨notes, .binary op (rootFrom start left) (rootFrom (start + left.size) right)⟩ := by
        rw [← h.2.2]
        congr 1
        simp only [rootFrom, Plan.size]
        omega
      have below : rootFrom start left < rootFrom start (.binary notes op left right) ∧
          rootFrom (start + left.size) right < rootFrom start (.binary notes op left right) := by
        simp only [rootFrom, Plan.size]
        omega
      unfold plan?
      rw [root]
      simp only [below, and_self, dif_pos, ihl h.1, ihr h.2.1, Option.bind_some, Option.map_some]

/-- Every node of a stored plan but its root is the input of exactly one of its nodes, once. -/
theorem Holds.flatMap_children (h : s.Holds start p) :
    ((List.range' start p.size).flatMap s.references.children).Perm
      (List.range' start (p.size - 1)) := by
  induction p generalizing start with
  | relation notes base => simp [Plan.size, children_references h, StoredNode.children]
  | unary notes op input ih =>
      have root : s.references.children (start + input.size) = [rootFrom start input] :=
        children_references h.2
      calc
        (List.range' start (input.size + 1)).flatMap s.references.children
            = (List.range' start input.size).flatMap s.references.children ++
                [rootFrom start input] := by
              rw [List.range'_1_concat, List.flatMap_append, List.flatMap_singleton, root]
        _ ~ List.range' start (input.size - 1) ++ [rootFrom start input] :=
              (ih h.1).append_right _
        _ = List.range' start input.size := (range'_size start input).symm
  | binary notes op left right ihl ihr =>
      have root : s.references.children (start + (left.size + right.size)) =
          [rootFrom start left, rootFrom (start + left.size) right] := by
        rw [← Nat.add_assoc]
        exact children_references h.2.2
      calc
        (List.range' start (left.size + right.size + 1)).flatMap s.references.children
            = (List.range' start left.size).flatMap s.references.children ++
                (List.range' (start + left.size) right.size).flatMap s.references.children ++
                [rootFrom start left, rootFrom (start + left.size) right] := by
              rw [List.range'_1_concat, List.flatMap_append, List.flatMap_singleton, root,
                ← List.range'_append_1, List.flatMap_append]
        _ ~ List.range' start (left.size - 1) ++
                List.range' (start + left.size) (right.size - 1) ++
                [rootFrom start left, rootFrom (start + left.size) right] :=
              ((ihl h.1).append (ihr h.2.1)).append_right _
        _ ~ (List.range' start (left.size - 1) ++ [rootFrom start left]) ++
                (List.range' (start + left.size) (right.size - 1) ++
                  [rootFrom (start + left.size) right]) := by
              rw [List.append_assoc, List.append_assoc]
              exact List.perm_middle.append_left _
        _ = List.range' start (left.size + right.size) := by
              rw [← range'_size, ← range'_size, List.range'_append_1]

/-- What can be reached from the root of a stored plan is a node of the plan. -/
theorem Holds.mem_of_reaches (h : s.Holds start p) {x : Nat}
    (hx : s.references.Reaches (rootFrom start p) x) : x ∈ List.range' start p.size := by
  have inputs : ∀ c ∈ (List.range' start p.size).flatMap s.references.children,
      c ∈ List.range' start p.size := by
    intro c hc
    have := h.flatMap_children.mem_iff.mp hc
    rw [range'_size]
    exact List.mem_append_left _ this
  induction hx with
  | refl =>
      rw [range'_size]
      exact List.mem_append_right _ (List.mem_singleton_self _)
  | tail _ hchild ih => exact inputs _ (List.mem_flatMap.mpr ⟨_, ih, hchild⟩)

/-- The nodes of a stored plan form a tree. -/
theorem Holds.isTree (h : s.Holds start p) : s.isTree (rootFrom start p) = true := by
  unfold Store.isTree
  rw [References.isTree_explore_iff]
  obtain ⟨visited, hnodup, hmem, hedges⟩ :=
    References.exists_visited s.references [rootFrom start p]
  have targets : (s.references.edgesFrom [rootFrom start p]).map Prod.snd =
      visited.flatMap s.references.children := by
    rw [hedges, List.map_flatMap]
    simp [Function.comp_def]
  have within : visited ⊆ List.range' start p.size := by
    intro x hx
    obtain ⟨-, w, hw, hreach⟩ := (hmem x).mp hx
    rw [List.mem_singleton.mp hw] at hreach
    exact h.mem_of_reaches hreach
  obtain ⟨sorted, hperm, hsub⟩ := hnodup.subperm within
  have bounded : (visited.flatMap s.references.children) <+~ List.range' start (p.size - 1) :=
    ((hperm.symm.flatMap_right _).subperm.trans (hsub.flatMap _).subperm).trans
      h.flatMap_children.subperm
  rw [targets]
  refine List.nodup_cons.mpr ⟨fun hroot => ?_, ?_⟩
  · have := List.mem_range'_1.mp (bounded.subset hroot)
    have := p.size_pos
    simp only [rootFrom] at *
    omega
  · obtain ⟨l, hl, hls⟩ := bounded
    exact (hl.nodup_iff).mp (hls.nodup List.nodup_range')

end Held

/-- The check of a stored plan is the check of the plan: its nodes form a tree. -/
theorem check_insert (s : Store) (p : Plan) : (s.insert p).2.check (s.insert p).1 = p.check := by
  obtain ⟨more, hlength, hinsert, hholds⟩ := s.exists_insert_eq p
  rw [hinsert]
  have unfolded := hholds.plan?_eq
  have stored : ∃ node, Store.node { s with nodes := s.nodes ++ more } (rootFrom s.nodes.length p) =
      .ok node := by
    cases hnode : (s.nodes ++ more)[rootFrom s.nodes.length p]? with
    | some found => exact ⟨found, by simp only [node, hnode]⟩
    | none =>
        unfold plan? at unfolded
        simp [hnode] at unfolded
  obtain ⟨root, hnode⟩ := stored
  simp only [check, hnode, ok_bind, hholds.isTree, if_true, plan, unfolded]

end Store

end LogicalPlan
