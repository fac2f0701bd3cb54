import Mathlib.Data.List.Count
import Mathlib.Data.List.Induction
import Mathlib.Data.List.Pairwise
import LogicalPlan.Proofs.Graph.Exploration

/-!
# Paths from the root

The exploration lists all objects that can be reached from the root, each once, and every reference
that one of them holds. Its tree test holds exactly if one path leads to each of these objects. A
path is a list of positions among the references of an object, so references that an object holds
twice are on different paths.

## Implementation notes

Both directions rest on `isTree_explore_iff`, by which no edge leads to the root and no two edges
lead to the same object. Two paths to the same object are compared from their ends, since the last
references on them are the same edge.
-/

namespace LogicalPlan

namespace Graph

variable {α : Type} [DecidableEq α]

/-! ### Arborescences -/

/-- The nodes are connected if the direction of edges is ignored. -/
def Linked (edges : List (α × α)) : α → α → Prop :=
  Relation.EqvGen fun u v => (u, v) ∈ edges

/-- The graph is weakly connected, it has one edge less than nodes, and at most one edge leads to
each of its nodes. -/
structure IsArborescence (g : Graph α) : Prop where
  connected : ∀ u ∈ g.nodes, ∀ v ∈ g.nodes, Linked g.edges u v
  counted : g.edges.length + 1 = g.nodes.length
  single : ∀ u ∈ g.nodes, g.inDegree u ≤ 1

/-- The component of nodes contains no node that is not linked to one of them. -/
theorem exists_linked_of_mem_component {edges : List (α × α)} {nodes : List α} {v : α}
    (hv : v ∈ component edges nodes) : ∃ u ∈ nodes, Linked edges u v := by
  fun_induction component edges nodes with
  | case1 edges nodes hany hlt ih =>
      rcases List.mem_append.mp hv with hv | hv
      · exact ⟨v, hv, .refl v⟩
      · obtain ⟨w, hw, hwv⟩ := ih hv
        have beyond : Linked edges w v := hwv.mono fun _ _ he => (List.mem_filter.mp he).1
        obtain ⟨e, hmet, hend⟩ := List.mem_flatMap.mp hw
        obtain ⟨he, htouches⟩ := List.mem_filter.mp hmet
        have edge : Linked edges e.1 e.2 := .rel _ _ he
        simp only [List.mem_cons, List.not_mem_nil, or_false] at hend
        rcases touches_iff.mp htouches with hfirst | hsecond <;> rcases hend with rfl | rfl
        · exact ⟨e.1, hfirst, beyond⟩
        · exact ⟨e.1, hfirst, edge.trans _ _ _ beyond⟩
        · exact ⟨e.2, hsecond, edge.symm.trans _ _ _ beyond⟩
        · exact ⟨e.2, hsecond, beyond⟩
  | case2 edges nodes hany => exact ⟨v, hv, .refl v⟩

theorem mem_component_iff_of_linked {edges : List (α × α)} {nodes : List α} {u v : α}
    (h : Linked edges u v) : u ∈ component edges nodes ↔ v ∈ component edges nodes := by
  induction h with
  | rel u v he =>
      constructor
      · intro hu
        exact (mem_component_of_touches he (touches_iff.mpr (.inl hu))).2
      · intro hv
        exact (mem_component_of_touches he (touches_iff.mpr (.inr hv))).1
  | refl => exact Iff.rfl
  | symm _ _ _ ih => exact ih.symm
  | trans _ _ _ _ _ ih₁ ih₂ => exact ih₁.trans ih₂

/-- The component of a node consists of the nodes that are linked to it. -/
theorem mem_component_singleton_iff {edges : List (α × α)} {u v : α} :
    v ∈ component edges [u] ↔ Linked edges u v := by
  constructor
  · intro hv
    obtain ⟨w, hw, hwv⟩ := exists_linked_of_mem_component hv
    rwa [← List.mem_singleton.mp hw]
  · intro h
    exact (mem_component_iff_of_linked h).mp (subset_component _ _ (List.mem_singleton_self u))

theorem isConnected_iff {g : Graph α} :
    g.isConnected = true ↔ g.nodes ≠ [] ∧ ∀ u ∈ g.nodes, ∀ v ∈ g.nodes, Linked g.edges u v := by
  unfold isConnected
  split
  case h_1 hnil => simp [hnil]
  case h_2 u us hcons =>
    simp only [hcons, List.all_eq_true, decide_eq_true_iff, mem_component_singleton_iff]
    constructor
    · intro h
      have linked : ∀ v ∈ u :: us, Linked g.edges u v := List.forall_mem_cons.mpr ⟨.refl u, h⟩
      exact ⟨List.cons_ne_nil _ _, fun v hv w hw => (linked v hv).symm.trans _ _ _ (linked w hw)⟩
    · rintro ⟨-, h⟩ v hv
      exact h u List.mem_cons_self v (List.mem_cons_of_mem _ hv)

/-- The tree test finds out whether the graph is an arborescence. -/
theorem isTree_iff_isArborescence {g : Graph α} : g.isTree = true ↔ g.IsArborescence := by
  unfold isTree
  simp only [Bool.and_eq_true, beq_iff_eq, List.all_eq_true, decide_eq_true_iff, isConnected_iff]
  constructor
  · rintro ⟨⟨counted, single⟩, -, connected⟩
    exact ⟨connected, counted, single⟩
  · rintro ⟨connected, counted, single⟩
    refine ⟨⟨counted, single⟩, ?_, connected⟩
    intro hnil
    rw [hnil] at counted
    cases counted

end Graph

namespace References

variable {α : Type} [DecidableEq α] {refs : References α} {root u v : α}

/-! ### Explored objects and references -/

/-- The edges of the exploration, object by object. An object that is left out refers to nothing. -/
theorem exists_reached (refs : References α) (root : α) :
    ∃ reached : List α, reached.Nodup ∧ (∀ u ∈ reached, refs.Reaches root u) ∧
      (∀ u c, refs.Reaches root u → c ∈ refs.children u → u ∈ reached) ∧
      (refs.explore root).edges =
        reached.flatMap fun u => (refs.children u).map fun c => (u, c) := by
  obtain ⟨reached, hnodup, hmem, hedges⟩ := exists_visited refs [root]
  simp only [List.mem_singleton, exists_eq_left] at hmem
  refine ⟨reached, hnodup, fun u hu => ((hmem u).mp hu).2, fun u c hreach hc => ?_, hedges⟩
  exact (hmem u).mpr ⟨isSome_lookup_of_mem_children hc, hreach⟩

theorem mem_edges_explore_iff {c : α} :
    (u, c) ∈ (refs.explore root).edges ↔ refs.Reaches root u ∧ c ∈ refs.children u := by
  obtain ⟨reached, -, hreach, hreached, hedges⟩ := exists_reached refs root
  simp only [hedges, List.mem_flatMap, List.mem_map, Prod.mk.injEq]
  constructor
  · rintro ⟨u, hu, c, hc, rfl, rfl⟩
    exact ⟨hreach u hu, hc⟩
  · rintro ⟨hu, hc⟩
    exact ⟨u, hreached u c hu hc, c, hc, rfl, rfl⟩

/-- The exploration lists the objects that can be reached. -/
theorem mem_nodes_explore_iff : v ∈ (refs.explore root).nodes ↔ refs.Reaches root v := by
  unfold explore
  rw [List.mem_eraseDups, List.mem_cons, List.mem_map]
  constructor
  · rintro (rfl | ⟨e, he, rfl⟩)
    · exact .refl
    · exact reaches_of_mem_edgesFrom he
  · intro h
    rcases Relation.ReflTransGen.cases_tail h with rfl | ⟨u, hu, hv⟩
    · exact .inl rfl
    · exact .inr ⟨(u, v), mem_edges_explore_iff.mpr ⟨hu, hv⟩, rfl⟩

/-- The exploration has one edge for each reference of an object that it reaches. -/
theorem count_edges_explore (h : refs.Reaches root u) (c : α) :
    (refs.explore root).edges.count (u, c) = (refs.children u).count c := by
  obtain ⟨reached, hnodup, -, hreached, hedges⟩ := exists_reached refs root
  by_cases hc : c ∈ refs.children u
  · have hu := hreached u c h hc
    have others : (u, c) ∉ (reached.erase u).flatMap fun v =>
        (refs.children v).map fun c => (v, c) := by
      intro hmem
      obtain ⟨v, hv, hedge⟩ := List.mem_flatMap.mp hmem
      obtain ⟨_, _, heq⟩ := List.mem_map.mp hedge
      cases heq
      exact hnodup.not_mem_erase hv
    rw [hedges, ((List.perm_cons_erase hu).flatMap_right _).count_eq, List.flatMap_cons,
      List.count_append, List.count_eq_zero.mpr others, Nat.add_zero]
    exact List.count_map_of_injective _ _ (fun _ _ heq => (Prod.mk.inj heq).2) c
  · have absent : (u, c) ∉ (refs.explore root).edges := fun he => hc (mem_edges_explore_iff.mp he).2
    rw [List.count_eq_zero.mpr absent, List.count_eq_zero.mpr hc]

/-! ### Paths -/

/-- The object at the end of a path. The path lists for each step which of the references of an
object is followed. -/
def follow (refs : References α) : α → List Nat → Option α
  | u, [] => some u
  | u, i :: path =>
    match (refs.children u)[i]? with
    | some c => refs.follow c path
    | none => none

theorem follow_append_singleton_eq_some_iff {path : List Nat} {i : Nat} :
    refs.follow u (path ++ [i]) = some v ↔
      ∃ w, refs.follow u path = some w ∧ (refs.children w)[i]? = some v := by
  induction path generalizing u with
  | nil =>
      simp only [List.nil_append, follow, Option.some.injEq, exists_eq_left']
      cases (refs.children u)[i]? <;> simp
  | cons j path ih =>
      simp only [List.cons_append, follow]
      cases (refs.children u)[j]? with
      | none => simp
      | some c => exact ih

theorem reaches_iff_exists_follow : refs.Reaches u v ↔ ∃ path, refs.follow u path = some v := by
  constructor
  · intro h
    induction h with
    | refl => exact ⟨[], rfl⟩
    | @tail w c _ hc ih =>
        obtain ⟨path, hpath⟩ := ih
        obtain ⟨i, hi⟩ := List.mem_iff_getElem?.mp hc
        exact ⟨path ++ [i], follow_append_singleton_eq_some_iff.mpr ⟨w, hpath, hi⟩⟩
  · rintro ⟨path, hpath⟩
    induction path using List.reverseRecOn generalizing v with
    | nil =>
        cases hpath
        exact .refl
    | append_singleton path i ih =>
        obtain ⟨w, hw, hi⟩ := follow_append_singleton_eq_some_iff.mp hpath
        exact (ih hw).tail (List.mem_of_getElem? hi)

/-- The objects that edges of the exploration lead to, object by object. -/
theorem map_snd_flatMap_children (reached : List α) :
    (reached.flatMap fun u => (refs.children u).map fun c => (u, c)).map Prod.snd =
      reached.flatMap refs.children := by
  simp [List.map_flatMap, Function.comp_def]

/-- If no edge leads to the root and no two edges lead to the same object, no two paths do so. -/
theorem eq_of_follow_eq (h : (root :: (refs.explore root).edges.map Prod.snd).Nodup)
    {p q : List Nat} (hp : refs.follow root p = some v) (hq : refs.follow root q = some v) :
    p = q := by
  obtain ⟨reached, hnodup, -, hreached, hedges⟩ := exists_reached refs root
  rw [hedges, map_snd_flatMap_children] at h
  obtain ⟨hroot, hapart⟩ := List.nodup_cons.mp h
  obtain ⟨hsingle, hdisjoint⟩ := List.nodup_flatMap.mp hapart
  have entered {path : List Nat} {i : Nat} {c : α}
      (hpath : refs.follow root (path ++ [i]) = some c) :
      ∃ u ∈ reached, refs.follow root path = some u ∧ (refs.children u)[i]? = some c := by
    obtain ⟨u, hu, hi⟩ := follow_append_singleton_eq_some_iff.mp hpath
    have hreach := reaches_iff_exists_follow.mpr ⟨path, hu⟩
    exact ⟨u, hreached u c hreach (List.mem_of_getElem? hi), hu, hi⟩
  have ne_root {path : List Nat} {i : Nat} : refs.follow root (path ++ [i]) ≠ some root := by
    intro hpath
    obtain ⟨u, hu, -, hi⟩ := entered hpath
    exact hroot (List.mem_flatMap.mpr ⟨u, hu, List.mem_of_getElem? hi⟩)
  have : Std.Symm (Function.onFun List.Disjoint refs.children) :=
    ⟨fun _ _ h => List.disjoint_symm h⟩
  -- The last references on the paths are the same edge, so the paths in front of them end alike.
  induction p using List.reverseRecOn generalizing q v with
  | nil =>
      cases hp
      cases q using List.reverseRecOn with
      | nil => rfl
      | append_singleton q j => exact absurd hq ne_root
  | append_singleton p i ih =>
      cases q using List.reverseRecOn with
      | nil =>
          cases hq
          exact absurd hp ne_root
      | append_singleton q j =>
          obtain ⟨u, hu, hpu, hi⟩ := entered hp
          obtain ⟨w, hw, hqw, hj⟩ := entered hq
          have same : u = w := by
            by_contra hne
            exact hdisjoint.forall hu hw hne (List.mem_of_getElem? hi) (List.mem_of_getElem? hj)
          subst same
          have hij : i = j :=
            (List.getElem?_inj (List.getElem?_eq_some_iff.mp hi).1 (hsingle u hu)).mp
              (hi.trans hj.symm)
          rw [ih hpu hqw, hij]

/-- If no two paths lead to the same object, no edge leads to the root and no two edges do so. -/
theorem nodup_of_follow_eq
    (h : ∀ v p q, refs.follow root p = some v → refs.follow root q = some v → p = q) :
    (root :: (refs.explore root).edges.map Prod.snd).Nodup := by
  obtain ⟨reached, hnodup, hreach, -, hedges⟩ := exists_reached refs root
  rw [hedges, map_snd_flatMap_children]
  have entry {u c : α} (hu : u ∈ reached) : ∃ path, refs.follow root path = some u ∧
      ∀ i : Nat, (refs.children u)[i]? = some c → refs.follow root (path ++ [i]) = some c := by
    obtain ⟨path, hpath⟩ := reaches_iff_exists_follow.mp (hreach u hu)
    exact ⟨path, hpath, fun i hi => follow_append_singleton_eq_some_iff.mpr ⟨u, hpath, hi⟩⟩
  refine List.nodup_cons.mpr ⟨?root, List.nodup_flatMap.mpr ⟨?single, ?apart⟩⟩
  case root =>
    intro hmem
    obtain ⟨u, hu, hc⟩ := List.mem_flatMap.mp hmem
    obtain ⟨i, hi⟩ := List.mem_iff_getElem?.mp hc
    obtain ⟨path, -, extended⟩ := entry hu
    have := h root [] (path ++ [i]) rfl (extended i hi)
    simp at this
  case single =>
    intro u hu
    refine List.nodup_iff_getElem?_ne_getElem?.mpr fun i j hij hj heq => ?_
    have hc : (refs.children u)[j]? = some (refs.children u)[j] := List.getElem?_eq_getElem hj
    obtain ⟨path, -, extended⟩ := entry hu
    have same := List.append_inj' (h _ _ _ (extended i (heq.trans hc)) (extended j hc)) rfl
    exact (Nat.ne_of_lt hij) (List.singleton_inj.mp same.2)
  case apart =>
    refine hnodup.pairwise_of_forall_ne fun u hu w hw hne c hcu hcw => ?_
    obtain ⟨i, hi⟩ := List.mem_iff_getElem?.mp hcu
    obtain ⟨j, hj⟩ := List.mem_iff_getElem?.mp hcw
    obtain ⟨p, hp, extendedp⟩ := entry hu
    obtain ⟨q, hq, extendedq⟩ := entry hw
    have same := List.append_inj' (h c _ _ (extendedp i hi) (extendedq j hj)) rfl
    rw [same.1, hq] at hp
    exact hne (Option.some.inj hp).symm

/-- The exploration is exact. It lists the objects that can be reached, each once, and it has one
edge for each reference of such an object. The objects form a tree exactly if one path leads to each
of them; the tree test means that they form an arborescence. -/
theorem explore_exact (refs : References α) (root : α) :
    (refs.explore root).nodes.Nodup ∧
    (∀ v, v ∈ (refs.explore root).nodes ↔ refs.Reaches root v) ∧
    (∀ u c, (refs.Reaches root u →
        (refs.explore root).edges.count (u, c) = (refs.children u).count c) ∧
      (¬ refs.Reaches root u → (u, c) ∉ (refs.explore root).edges)) ∧
    ((refs.explore root).isTree = true ↔ (refs.explore root).IsArborescence) ∧
    ((refs.explore root).isTree = true ↔
      ∀ v, refs.Reaches root v → ∃! path, refs.follow root path = some v) := by
  refine ⟨nodup_eraseDups _, fun v => mem_nodes_explore_iff, fun u c => ⟨fun h => ?_, ?_⟩,
    Graph.isTree_iff_isArborescence, ?tree⟩
  · exact count_edges_explore h c
  · intro h he
    exact h (mem_edges_explore_iff.mp he).1
  case tree =>
    rw [isTree_explore_iff]
    constructor
    · intro hnodup v hv
      obtain ⟨path, hpath⟩ := reaches_iff_exists_follow.mp hv
      exact ⟨path, hpath, fun other hother => eq_of_follow_eq hnodup hother hpath⟩
    · intro hunique
      refine nodup_of_follow_eq fun v p q hp hq => ?_
      exact (hunique v (reaches_iff_exists_follow.mpr ⟨p, hp⟩)).unique hp hq

namespace Sample

/-- An object that refers to another one twice, which refers back: both references are edges, and
the other object is at the end of two paths. -/
theorem explore_twice :
    ((explore [(0, [1, 1]), (1, [0])] 0).edges.count (0, 1) = 2 ∧
      (explore [(0, [1, 1]), (1, [0])] 0).isTree ≠ true) := by
  obtain ⟨-, -, edges, -, tree⟩ := explore_exact [(0, [1, 1]), (1, [0])] 0
  refine ⟨(edges 0 1).1 .refl, fun h => ?_⟩
  have reached : Reaches [(0, [1, 1]), (1, [0])] 0 1 := .single (by decide)
  have same : [0] = [1] := (tree.mp h 1 reached).unique rfl rfl
  cases same

end Sample

end References

end LogicalPlan
