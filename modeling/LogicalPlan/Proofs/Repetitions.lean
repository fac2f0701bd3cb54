import Mathlib.Data.List.Nodup
import Mathlib.Data.List.Perm.Subperm

/-!
# Lists without repetitions

Two ways to leave repetitions out of a list: the first occurrence of each item stays, where items
are repetitions if they are equal or if a comparison takes them for the same.
-/

namespace LogicalPlan

section Equal

variable {α : Type} [DecidableEq α]

theorem eraseDups_sublist : ∀ l : List α, l.eraseDups.Sublist l
  | [] => .slnil
  | a :: as => by
    have hlt := Nat.lt_succ_of_le (List.length_filter_le (fun b => !b == a) as)
    rw [List.eraseDups_cons]
    exact ((eraseDups_sublist _).trans List.filter_sublist).cons_cons a
termination_by l => l.length

theorem nodup_eraseDups : ∀ l : List α, l.eraseDups.Nodup
  | [] => .nil
  | a :: as => by
    have hlt := Nat.lt_succ_of_le (List.length_filter_le (fun b => !b == a) as)
    rw [List.eraseDups_cons]
    refine List.nodup_cons.mpr ⟨fun ha => ?_, nodup_eraseDups _⟩
    simp at ha
termination_by l => l.length

/-- A list has no repetitions exactly if erasing them does not make it shorter. -/
theorem nodup_iff_length_eraseDups (l : List α) : l.Nodup ↔ l.eraseDups.length = l.length := by
  constructor
  · intro h
    have covered : l ⊆ l.eraseDups := fun _ ha => List.mem_eraseDups.mpr ha
    exact Nat.le_antisymm (eraseDups_sublist l).length_le (h.subperm covered).length_le
  · intro h
    rw [← (eraseDups_sublist l).eq_of_length h]
    exact nodup_eraseDups l

end Equal

section Compared

variable {α : Type} {same : α → α → Bool}

/-- Items that are left out count as the same as items that stay. -/
theorem any_foldl_distinct (h : ∀ a b c, same a b = true → same a c = same b c) (as seen : List α)
    (c : α) :
    (as.foldl (fun seen a => if seen.any (same · a) then seen else seen ++ [a]) seen).any
        (same · c) =
      (seen.any (same · c) || as.any (same · c)) := by
  induction as generalizing seen with
  | nil => exact (Bool.or_false _).symm
  | cons a as ih =>
      rw [List.foldl_cons, ih, List.any_cons]
      by_cases ha : seen.any (same · a) = true
      · rw [if_pos ha]
        cases hsame : same a c with
        | false => simp
        | true =>
            obtain ⟨b, hb, hba⟩ := List.any_eq_true.mp ha
            have found : seen.any (same · c) = true :=
              List.any_eq_true.mpr ⟨b, hb, (h b a c hba).trans hsame⟩
            simp [found]
      · rw [if_neg ha, List.any_append, Bool.or_assoc]
        simp

/-- The items that stay count as different. -/
theorem pairwise_foldl_distinct (as : List α) {seen : List α}
    (h : seen.Pairwise fun a b => same a b = false) :
    (as.foldl (fun seen a => if seen.any (same · a) then seen else seen ++ [a]) seen).Pairwise
      fun a b => same a b = false := by
  induction as generalizing seen with
  | nil => exact h
  | cons a as ih =>
      rw [List.foldl_cons]
      by_cases ha : seen.any (same · a) = true
      · rw [if_pos ha]
        exact ih h
      · rw [if_neg ha]
        apply ih
        refine List.pairwise_append.mpr ⟨h, List.pairwise_singleton _ _, fun b hb c hc => ?_⟩
        rw [List.mem_singleton.mp hc]
        exact Bool.eq_false_iff.mpr fun hsame => ha (List.any_eq_true.mpr ⟨b, hb, hsame⟩)

/-- No items are made up. -/
theorem foldl_distinct_subset (as seen : List α) :
    as.foldl (fun seen a => if seen.any (same · a) then seen else seen ++ [a]) seen ⊆
      seen ++ as := by
  induction as generalizing seen with
  | nil => simp
  | cons a as ih =>
      rw [List.foldl_cons]
      apply List.Subset.trans (ih _)
      split
      · exact List.append_subset.mpr ⟨List.subset_append_left _ _,
          List.Subset.trans (List.subset_cons_self a as) (List.subset_append_right _ _)⟩
      · rw [List.append_assoc, List.singleton_append]
        exact List.Subset.refl _

end Compared

end LogicalPlan
