import Mathlib.Logic.Relation
import LogicalPlan.Graph
import LogicalPlan.Proofs.Repetitions

/-!
# Explored graphs

Exploring objects from waiting ones follows the references of every object that can be reached, and
of each of them once. Collecting the component of nodes leaves no edge with only one end in it.

## Implementation notes

The exploration drops the references of an object when it follows them. What remains reachable
without them is the content of `reaches_without`, on which the induction rests.
-/

namespace LogicalPlan

namespace References

variable {α : Type} [DecidableEq α] {refs : References α}

/-- An object can be reached from another one along references. -/
def Reaches (refs : References α) : α → α → Prop :=
  Relation.ReflTransGen fun u c => c ∈ refs.children u

theorem lookup_without (u v : α) :
    List.lookup v (refs.without u) = if v = u then none else List.lookup v refs := by
  induction refs with
  | nil => simp [without]
  | cons entry refs ih =>
      obtain ⟨w, cs⟩ := entry
      by_cases hw : w = u
      · subst hw
        have dropped : without ((w, cs) :: refs) w = without refs w := by simp [without]
        rw [dropped, ih]
        by_cases hv : v = w
        · simp [hv]
        · simp [hv, List.lookup_cons, beq_eq_false_iff_ne.mpr hv]
      · have kept : without ((w, cs) :: refs) u = (w, cs) :: without refs u := by
          simp [without, hw]
        rw [kept, List.lookup_cons, List.lookup_cons, ih]
        by_cases hv : v = w
        · subst hv
          simp [hw]
        · simp [beq_eq_false_iff_ne.mpr hv]

theorem children_without {u v : α} (h : v ≠ u) : (refs.without u).children v = refs.children v := by
  simp [children, lookup_without, h]

theorem children_without_self (u : α) : (refs.without u).children u = [] := by
  simp [children, lookup_without]

theorem Reaches.of_without {u v w : α} (h : (refs.without u).Reaches w v) : refs.Reaches w v := by
  induction h with
  | refl => exact .refl
  | @tail x c _ hchild ih =>
      by_cases hx : x = u
      · rw [hx, children_without_self] at hchild
        cases hchild
      · rw [children_without hx] at hchild
        exact ih.tail hchild

/-- What can be reached is an object itself, or can be reached without its references, possibly from
one of the objects that it refers to. -/
theorem Reaches.without {v w : α} (h : refs.Reaches w v) (u : α) :
    v = u ∨ (refs.without u).Reaches w v ∨ ∃ c ∈ refs.children u, (refs.without u).Reaches c v := by
  induction h with
  | refl => exact .inr (.inl .refl)
  | @tail x c _ hchild ih =>
      by_cases hx : x = u
      · subst hx
        exact .inr (.inr ⟨c, hchild, .refl⟩)
      · have step : c ∈ (refs.without u).children x := by rwa [children_without hx]
        rcases ih with hxu | hfrom | ⟨c', hc', hfrom⟩
        · exact absurd hxu hx
        · exact .inr (.inl (hfrom.tail step))
        · exact .inr (.inr ⟨c', hc', hfrom.tail step⟩)

/-- An object without an entry leads to no other object. -/
theorem exists_reaches_cons_of_lookup_eq_none {u v : α} {rest : List α}
    (hnone : List.lookup u refs = none) (hv : (List.lookup v refs).isSome = true) :
    (∃ w ∈ u :: rest, refs.Reaches w v) ↔ ∃ w ∈ rest, refs.Reaches w v := by
  constructor
  · rintro ⟨w, hw, hreach⟩
    rcases List.mem_cons.mp hw with rfl | hw
    · rcases Relation.ReflTransGen.cases_head hreach with rfl | ⟨c, hc, -⟩
      · rw [hnone] at hv
        cases hv
      · simp [children, hnone] at hc
    · exact ⟨w, hw, hreach⟩
  · rintro ⟨w, hw, hreach⟩
    exact ⟨w, List.mem_cons_of_mem _ hw, hreach⟩

/-- Once the references of an object are dropped, what it refers to has to wait in its place. -/
theorem exists_reaches_cons_iff {u v : α} (hv : v ≠ u) (rest : List α) :
    (∃ w ∈ u :: rest, refs.Reaches w v) ↔
      ∃ w ∈ rest ++ refs.children u, (refs.without u).Reaches w v := by
  constructor
  · rintro ⟨w, hw, hreach⟩
    rcases hreach.without u with hvu | hfrom | ⟨c, hc, hfrom⟩
    · exact absurd hvu hv
    · rcases List.mem_cons.mp hw with rfl | hw
      · rcases Relation.ReflTransGen.cases_head hfrom with rfl | ⟨c, hc, -⟩
        · exact absurd rfl hv
        · simp [children_without_self] at hc
      · exact ⟨w, List.mem_append_left _ hw, hfrom⟩
    · exact ⟨c, List.mem_append_right _ hc, hfrom⟩
  · rintro ⟨w, hw, hreach⟩
    rcases List.mem_append.mp hw with hw | hw
    · exact ⟨w, List.mem_cons_of_mem _ hw, hreach.of_without⟩
    · exact ⟨u, List.mem_cons_self, .head hw hreach.of_without⟩

/-- The exploration follows all references of the objects that can be reached from waiting ones.
Each of these objects is visited once. -/
theorem exists_visited (refs : References α) (waiting : List α) :
    ∃ visited : List α, visited.Nodup ∧
      (∀ v, v ∈ visited ↔ (List.lookup v refs).isSome = true ∧ ∃ w ∈ waiting, refs.Reaches w v) ∧
      refs.edgesFrom waiting = visited.flatMap fun u => (refs.children u).map fun c => (u, c) := by
  fun_induction edgesFrom refs waiting with
  | case1 refs => exact ⟨[], .nil, by simp, rfl⟩
  | case2 refs u rest hnone ih =>
      obtain ⟨visited, hnodup, hmem, hedges⟩ := ih
      refine ⟨visited, hnodup, fun v => ?_, hedges⟩
      rw [hmem]
      exact and_congr_right fun hv => (exists_reaches_cons_of_lookup_eq_none hnone hv).symm
  | case3 refs u rest cs hsome hlt ih =>
      obtain ⟨visited, hnodup, hmem, hedges⟩ := ih
      have hchildren : refs.children u = cs := by simp [children, hsome]
      have fresh : ∀ v ∈ visited, v ≠ u := by
        rintro v hv rfl
        have := ((hmem v).mp hv).1
        simp [lookup_without] at this
      refine ⟨u :: visited, List.nodup_cons.mpr ⟨fun hu => fresh u hu rfl, hnodup⟩, fun v => ?_, ?_⟩
      · rw [List.mem_cons, hmem, lookup_without]
        by_cases hv : v = u
        · subst hv
          simp only [true_or, true_iff]
          exact ⟨by simp [hsome], v, List.mem_cons_self, .refl⟩
        · simp only [hv, if_false, false_or]
          rw [exists_reaches_cons_iff hv, hchildren]
      · have same : visited.flatMap (fun v => ((refs.without u).children v).map fun c => (v, c)) =
            visited.flatMap fun v => (refs.children v).map fun c => (v, c) := by
          rw [List.flatMap_def, List.flatMap_def]
          congr 1
          apply List.map_congr_left
          intro v hv
          rw [children_without (fresh v hv)]
        rw [List.flatMap_cons, hedges, same, hchildren]

end References

namespace Graph

variable {α : Type} [DecidableEq α]

theorem subset_component (edges : List (α × α)) (nodes : List α) :
    nodes ⊆ component edges nodes := by
  unfold component
  split
  · exact List.subset_append_left _ _
  · exact List.Subset.refl _

theorem touches_iff {nodes : List α} {e : α × α} :
    touches nodes e = true ↔ e.1 ∈ nodes ∨ e.2 ∈ nodes := by
  simp [touches]

/-- An edge with one end in the component of nodes has both ends there. -/
theorem mem_component_of_touches {edges : List (α × α)} {nodes : List α} {e : α × α}
    (he : e ∈ edges)
    (ht : touches (component edges nodes) e = true) :
    e.1 ∈ component edges nodes ∧ e.2 ∈ component edges nodes := by
  fun_induction component edges nodes with
  | case1 edges nodes hany hlt ih =>
      by_cases hmet : touches nodes e = true
      · have ends : ∀ u ∈ [e.1, e.2], u ∈ endsMet nodes edges := fun u hu =>
          List.mem_flatMap.mpr ⟨e, List.mem_filter.mpr ⟨he, hmet⟩, hu⟩
        have inside := subset_component (apart nodes edges) (endsMet nodes edges)
        exact ⟨List.mem_append_right _ (inside (ends e.1 (by simp))),
          List.mem_append_right _ (inside (ends e.2 (by simp)))⟩
      · have apart : e ∈ apart nodes edges := List.mem_filter.mpr ⟨he, by simp [hmet]⟩
        rw [touches_iff] at ht hmet
        have below :
            touches (component (Graph.apart nodes edges) (endsMet nodes edges)) e = true := by
          rw [touches_iff]
          simp only [List.mem_append] at ht
          rcases ht with (h | h) | (h | h)
          · exact absurd (.inl h) hmet
          · exact .inl h
          · exact absurd (.inr h) hmet
          · exact .inr h
        obtain ⟨h₁, h₂⟩ := ih apart below
        exact ⟨List.mem_append_right _ h₁, List.mem_append_right _ h₂⟩
  | case2 edges nodes hany =>
      exact absurd (List.any_eq_true.mpr ⟨e, he, ht⟩) hany

end Graph

namespace References

variable {α : Type} [DecidableEq α]

theorem isSome_lookup_of_mem_children {refs : References α} {u c : α} (h : c ∈ refs.children u) :
    (List.lookup u refs).isSome = true := by
  unfold children at h
  cases hu : List.lookup u refs with
  | none =>
      rw [hu] at h
      cases h
  | some cs => rfl

/-- Everything that can be reached from the root is connected with it. -/
theorem mem_component_of_reaches {refs : References α} {root v : α} (h : refs.Reaches root v) :
    v ∈ Graph.component (refs.edgesFrom [root]) [root] := by
  obtain ⟨visited, -, hmem, hedges⟩ := exists_visited refs [root]
  induction h with
  | refl => exact Graph.subset_component _ _ (List.mem_singleton_self _)
  | @tail x c hreach hchild ih =>
      have hvisited : x ∈ visited :=
        (hmem x).mpr ⟨isSome_lookup_of_mem_children hchild, root, List.mem_singleton_self _, hreach⟩
      have hedge : (x, c) ∈ refs.edgesFrom [root] := by
        rw [hedges]
        exact List.mem_flatMap.mpr ⟨x, hvisited, List.mem_map.mpr ⟨c, hchild, rfl⟩⟩
      exact (Graph.mem_component_of_touches hedge (Graph.touches_iff.mpr (.inl ih))).2

/-- Every edge of the exploration leads to an object that can be reached. -/
theorem reaches_of_mem_edgesFrom {refs : References α} {root : α} {e : α × α}
    (he : e ∈ refs.edgesFrom [root]) : refs.Reaches root e.2 := by
  obtain ⟨visited, -, hmem, hedges⟩ := exists_visited refs [root]
  rw [hedges] at he
  obtain ⟨u, hu, he⟩ := List.mem_flatMap.mp he
  obtain ⟨c, hc, rfl⟩ := List.mem_map.mp he
  obtain ⟨-, w, hw, hreach⟩ := (hmem u).mp hu
  rw [List.mem_singleton.mp hw] at hreach
  exact hreach.tail hc

/-- The explored objects form a tree exactly if no edge leads to the root and no two edges lead to
the same object. -/
theorem isTree_explore_iff (refs : References α) (root : α) :
    (refs.explore root).isTree = true ↔ (root :: (refs.edgesFrom [root]).map Prod.snd).Nodup := by
  have counted : (refs.edgesFrom [root]).length + 1 = (refs.explore root).nodes.length ↔
      (root :: (refs.edgesFrom [root]).map Prod.snd).Nodup := by
    rw [nodup_iff_length_eraseDups, eq_comm]
    simp [explore]
  unfold Graph.isTree
  simp only [Bool.and_eq_true, beq_iff_eq]
  rw [show (refs.explore root).edges = refs.edgesFrom [root] from rfl, counted]
  constructor
  · rintro ⟨⟨hnodup, -⟩, -⟩
    exact hnodup
  · intro hnodup
    refine ⟨⟨hnodup, ?_⟩, ?_⟩
    · rw [List.all_eq_true]
      intro u _
      have degree : (refs.explore root).inDegree u =
          ((refs.edgesFrom [root]).map Prod.snd).count u := by
        rw [List.count_eq_countP, List.countP_map, List.countP_eq_length_filter]
        rfl
      rw [decide_eq_true_iff, degree]
      exact List.nodup_iff_count_le_one.mp (List.nodup_cons.mp hnodup).2 u
    · have nodes : (refs.explore root).nodes =
          root :: (((refs.edgesFrom [root]).map Prod.snd).filter fun b => !b == root).eraseDups :=
        List.eraseDups_cons
      unfold Graph.isConnected
      rw [nodes]
      rw [List.all_eq_true]
      intro v hv
      rw [List.mem_eraseDups] at hv
      obtain ⟨e, he, rfl⟩ := List.mem_map.mp (List.mem_of_mem_filter hv)
      exact decide_eq_true (mem_component_of_reaches (reaches_of_mem_edgesFrom he))

end References

end LogicalPlan
