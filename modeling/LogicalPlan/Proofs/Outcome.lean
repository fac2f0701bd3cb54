import Mathlib.Data.List.Forall2
import LogicalPlan.Lowering.Traced

/-!
# Laws of outcomes

Two relations carry the statements about operations that can fail. `Yields` bounds one outcome: its
value has a property, or its fault reports a faulty query at an admitted position. `Alike` compares
two outcomes up to the positions that their faults report.

## Implementation notes

Each relation comes with a rule for binding and rules for lists, so a proof about a function follows
the steps of its definition and does not split on outcomes itself.
-/

namespace LogicalPlan

namespace Outcome

variable {α β γ : Type}

@[simp] theorem pure_eq (a : α) : (pure a : Outcome α) = .ok a :=
  rfl

@[simp] theorem ok_bind (a : α) (f : α → Outcome β) : (Except.ok a >>= f) = f a :=
  rfl

@[simp] theorem error_bind (fault : Fault) (f : α → Outcome β) :
    (Except.error fault >>= f) = .error fault :=
  rfl

theorem bind_eq_ok {x : Outcome α} {f : α → Outcome β} {b : β} :
    (x >>= f) = .ok b ↔ ∃ a, x = .ok a ∧ f a = .ok b := by
  cases x with
  | error fault => simp
  | ok a => simp

theorem map_eq_ok {x : Outcome α} {f : α → β} {b : β} :
    x.map f = .ok b ↔ ∃ a, x = .ok a ∧ f a = b := by
  cases x with
  | error fault => simp [Except.map]
  | ok a => simp [Except.map]

theorem map_eq_bind (x : Outcome α) (f : α → β) : x.map f = x >>= fun a => .ok (f a) := by
  cases x <;> rfl

theorem discard_eq_bind (x : Outcome α) : discard x = x >>= fun _ => .ok () := by
  cases x <;> rfl

theorem discard_eq_ok {x : Outcome α} : discard x = .ok () ↔ ∃ a, x = .ok a := by
  simp [discard_eq_bind, bind_eq_ok]

/-- A list is mapped successfully exactly if every item is. -/
theorem mapM_eq_ok {f : α → Outcome β} {as : List α} {bs : List β} :
    as.mapM f = .ok bs ↔ List.Forall₂ (fun a b => f a = .ok b) as bs := by
  induction as generalizing bs with
  | nil => simp [eq_comm]
  | cons a as ih =>
      simp only [List.mapM_cons, bind_eq_ok, ih, List.forall₂_cons_left_iff]
      constructor
      · rintro ⟨b, hb, cs, hcs, h⟩
        cases h
        exact ⟨b, cs, hb, hcs, rfl⟩
      · rintro ⟨b, cs, hb, hcs, rfl⟩
        exact ⟨b, hb, cs, hcs, rfl⟩

/-- Every item of a mapped list comes from an item of the list. -/
theorem exists_of_mem_mapM {f : α → Outcome β} {as : List α} {bs : List β} {b : β}
    (h : as.mapM f = .ok bs) (hb : b ∈ bs) : ∃ a ∈ as, f a = .ok b := by
  obtain ⟨i, hi, rfl⟩ := List.getElem_of_mem hb
  obtain ⟨hlength, hget⟩ := List.forall₂_iff_get.mp (mapM_eq_ok.mp h)
  exact ⟨_, List.getElem_mem (hlength ▸ hi), hget i (hlength ▸ hi) hi⟩

/-- Every item of a list that is mapped successfully is. -/
theorem exists_of_mapM_eq_ok {f : α → Outcome β} {as : List α} {bs : List β} {a : α}
    (h : as.mapM f = .ok bs) (ha : a ∈ as) : ∃ b ∈ bs, f a = .ok b := by
  obtain ⟨i, hi, rfl⟩ := List.getElem_of_mem ha
  obtain ⟨hlength, hget⟩ := List.forall₂_iff_get.mp (mapM_eq_ok.mp h)
  exact ⟨_, List.getElem_mem (hlength ▸ hi), hget i hi (hlength ▸ hi)⟩

/-- Mapping a list keeps the positions of its items. -/
theorem getElem?_of_mapM_eq_ok {f : α → Outcome β} {as : List α} {bs : List β} {i : Nat} {a : α}
    (h : as.mapM f = .ok bs) (ha : as[i]? = some a) : ∃ b, bs[i]? = some b ∧ f a = .ok b := by
  obtain ⟨hi, rfl⟩ := List.getElem?_eq_some_iff.mp ha
  obtain ⟨hlength, hget⟩ := List.forall₂_iff_get.mp (mapM_eq_ok.mp h)
  exact ⟨_, List.getElem?_eq_getElem (hlength ▸ hi), hget i hi (hlength ▸ hi)⟩

/-- A check of all items succeeds exactly if it does for each of them. -/
theorem forM_eq_ok {f : α → Outcome Unit} {as : List α} :
    as.forM f = .ok () ↔ ∀ a ∈ as, f a = .ok () := by
  induction as with
  | nil => simp
  | cons a as ih =>
      simp only [List.forM_eq_forM, List.forM_cons, bind_eq_ok, List.mem_cons, forall_eq_or_imp]
        at ih ⊢
      constructor
      · rintro ⟨⟨⟩, ha, has⟩
        exact ⟨ha, ih.mp has⟩
      · rintro ⟨ha, has⟩
        exact ⟨(), ha, ih.mpr has⟩

/-- A check of all items fails as it does for one of them. -/
theorem forM_eq_error {f : α → Outcome Unit} {as : List α} {fault : Fault}
    (h : as.forM f = .error fault) : ∃ a ∈ as, f a = .error fault := by
  induction as with
  | nil => cases h
  | cons a as ih =>
      rw [List.forM_eq_forM, List.forM_cons] at h
      cases ha : f a with
      | error other =>
          rw [ha, error_bind] at h
          exact ⟨a, by simp, ha.trans h⟩
      | ok u =>
          rw [ha, ok_bind] at h
          obtain ⟨b, hb, hfault⟩ := ih h
          exact ⟨b, by simp [hb], hfault⟩

end Outcome

/-- The fault reports a faulty query at a position with the given property. -/
-- Otherwise goals about the fault of a fixed message are evaluated down to the text of its
-- template.
@[irreducible]
def Fault.IsLocated (P : SourceSpan → Prop) : Fault → Prop
  | .query _ _ (some span) => P span
  | _ => False

/-- A position is known and has the given property. -/
def IsPlaced (P : SourceSpan → Prop) (span : Option SourceSpan) : Prop :=
  ∃ s, span = some s ∧ P s

theorem isLocated_query {P : SourceSpan → Prop} {span : Option SourceSpan} {key : String}
    {params : Members} (h : IsPlaced P span) : (Fault.query key params span).IsLocated P := by
  obtain ⟨s, rfl, hs⟩ := h
  simpa only [Fault.IsLocated] using hs

namespace Outcome

variable {α β γ : Type} {P : SourceSpan → Prop}

/-- The value of an outcome has the property `Q`, or its fault reports a faulty query at a position
with the property `P`. -/
def Yields (P : SourceSpan → Prop) (Q : α → Prop) : Outcome α → Prop
  | .ok a => Q a
  | .error fault => fault.IsLocated P

@[simp] theorem yields_ok {Q : α → Prop} {a : α} :
    Yields P Q (Except.ok a : Outcome α) ↔ Q a :=
  Iff.rfl

@[simp] theorem yields_error {Q : α → Prop} {fault : Fault} :
    Yields P Q (Except.error fault : Outcome α) ↔ fault.IsLocated P :=
  Iff.rfl

theorem Yields.bind {Q : α → Prop} {R : β → Prop} {x : Outcome α} {f : α → Outcome β}
    (hx : Yields P Q x) (hf : ∀ a, Q a → Yields P R (f a)) : Yields P R (x >>= f) := by
  cases x with
  | error fault => exact hx
  | ok a => exact hf a hx

theorem Yields.mono {Q R : α → Prop} {x : Outcome α} (hx : Yields P Q x) (h : ∀ a, Q a → R a) :
    Yields P R x := by
  cases x with
  | error fault => exact hx
  | ok a => exact h a hx

theorem Yields.map {Q : α → Prop} {R : β → Prop} {x : Outcome α} {f : α → β}
    (hx : Yields P Q x) (h : ∀ a, Q a → R (f a)) : Yields P R (x.map f) := by
  cases x with
  | error fault => exact hx
  | ok a => exact h a hx

theorem Yields.discard {Q : α → Prop} {x : Outcome α} (hx : Yields P Q x) :
    Yields P (fun _ => True) (Functor.discard x) := by
  rw [discard_eq_bind]
  exact hx.bind fun _ _ => trivial

theorem Yields.mapM {Q : β → Prop} {f : α → Outcome β} {as : List α}
    (h : ∀ a ∈ as, Yields P Q (f a)) : Yields P (fun bs => ∀ b ∈ bs, Q b) (as.mapM f) := by
  induction as with
  | nil => simp
  | cons a as ih =>
      rw [List.mapM_cons]
      apply (h a (by simp)).bind
      intro b hb
      apply (ih fun c hc => h c (by simp [hc])).bind
      intro bs hbs
      simpa using ⟨hb, hbs⟩

theorem Yields.forM {f : α → Outcome Unit} {as : List α}
    (h : ∀ a ∈ as, Yields P (fun _ => True) (f a)) : Yields P (fun _ => True) (as.forM f) := by
  induction as with
  | nil => simp
  | cons a as ih =>
      rw [List.forM_eq_forM, List.forM_cons]
      apply (h a (by simp)).bind
      intro _ _
      exact ih fun c hc => h c (by simp [hc])

theorem Yields.foldlM {Q : β → Prop} {f : β → α → Outcome β} {as : List α} {b : β} (hb : Q b)
    (h : ∀ a ∈ as, ∀ b, Q b → Yields P Q (f b a)) : Yields P Q (as.foldlM f b) := by
  induction as generalizing b with
  | nil => exact hb
  | cons a as ih =>
      rw [List.foldlM_cons]
      apply (h a (by simp) b hb).bind
      intro c hc
      exact ih hc fun d hd => h d (by simp [hd])

theorem Yields.and {Q R : α → Prop} {x : Outcome α} (hx : Yields P Q x)
    (h : ∀ a, x = .ok a → R a) : Yields P (fun a => Q a ∧ R a) x := by
  cases x with
  | error fault => exact hx
  | ok a => exact ⟨hx, h a rfl⟩

/-- What all values of an outcome satisfy can be assumed of them. -/
theorem Yields.assuming {Q R : α → Prop} {x : Outcome α} (h : ∀ a, x = .ok a → R a)
    (hx : Yields P (fun a => R a → Q a) x) : Yields P Q x := by
  cases x with
  | error fault => exact hx
  | ok a => exact hx (h a rfl)

theorem Yields.ite {Q : α → Prop} {c : Prop} [Decidable c] {x y : Outcome α}
    (hx : c → Yields P Q x) (hy : ¬c → Yields P Q y) : Yields P Q (if c then x else y) := by
  split
  case isTrue h => exact hx h
  case isFalse h => exact hy h

theorem Yields.weaken {P' : SourceSpan → Prop} {Q : α → Prop} {x : Outcome α} (hx : Yields P Q x)
    (h : ∀ s, P s → P' s) : Yields P' Q x := by
  cases x with
  | error fault =>
      rw [yields_error] at hx ⊢
      unfold Fault.IsLocated at hx ⊢
      split at hx
      · exact h _ hx
      · exact hx.elim
  | ok a => exact hx

theorem not_isLocated_nowhere (fault : Fault) : ¬fault.IsLocated fun _ => False := by
  unfold Fault.IsLocated
  split <;> exact id

/-- The outcome is a value with the property `Q`: no position is admitted for a fault. -/
abbrev Gives (Q : α → Prop) (x : Outcome α) : Prop :=
  Yields (fun _ => False) Q x

theorem gives_iff {Q : α → Prop} {x : Outcome α} : Gives Q x ↔ ∃ a, x = .ok a ∧ Q a := by
  cases x with
  | error fault =>
      simp [Gives, not_isLocated_nowhere fault]
  | ok a => simp [Gives]

theorem Gives.exists_ok {Q : α → Prop} {x : Outcome α} (hx : Gives Q x) : ∃ a, x = .ok a := by
  obtain ⟨a, ha, -⟩ := gives_iff.mp hx
  exact ⟨a, ha⟩

theorem Gives.yields {Q : α → Prop} {x : Outcome α} (hx : Gives Q x) : Yields P Q x :=
  hx.weaken fun _ => False.elim

end Outcome

/-- The fault without the position that it reports. -/
def Fault.placeless : Fault → Fault
  | .query key params _ => .query key params none
  | .violation cause _ => .violation cause none
  | fault => fault

namespace Outcome

variable {α β : Type}

/-- The outcomes have the same value, or their faults differ at most in the reported position. -/
def Alike (x y : Outcome α) : Prop :=
  x.mapError Fault.placeless = y.mapError Fault.placeless

theorem Alike.refl (x : Outcome α) : Alike x x :=
  rfl

theorem Alike.symm {x y : Outcome α} (h : Alike x y) : Alike y x :=
  Eq.symm h

theorem Alike.trans {x y z : Outcome α} (h : Alike x y) (h' : Alike y z) : Alike x z :=
  Eq.trans h h'

theorem alike_error {f g : Fault} (h : f.placeless = g.placeless) :
    Alike (Except.error f : Outcome α) (.error g) :=
  congrArg Except.error h

/-- Alike outcomes have one value, or faults that differ at most in the reported position. -/
theorem alike_iff {x y : Outcome α} :
    Alike x y ↔ (∃ a, x = .ok a ∧ y = .ok a) ∨
      ∃ f g, x = .error f ∧ y = .error g ∧ f.placeless = g.placeless := by
  cases x <;> cases y <;> simp [Alike, Except.mapError, eq_comm]

/-- Alike outcomes succeed with the same values. -/
theorem Alike.eq_ok {x y : Outcome α} {a : α} (h : Alike x y) (hx : x = .ok a) : y = .ok a := by
  subst hx
  cases y with
  | error fault => cases h
  | ok b =>
      cases h
      rfl

theorem Alike.bind {x y : Outcome α} {f g : α → Outcome β} (h : Alike x y)
    (hf : ∀ a, Alike (f a) (g a)) : Alike (x >>= f) (y >>= g) := by
  cases x with
  | error fault =>
      cases y with
      | error fault' => exact alike_error (Except.error.inj h)
      | ok b => cases h
  | ok a =>
      cases h.eq_ok rfl
      exact hf a

theorem Alike.ite {c : Prop} [Decidable c] {x x' y y' : Outcome α} (hx : Alike x x')
    (hy : Alike y y') : Alike (if c then x else y) (if c then x' else y') := by
  split
  · exact hx
  · exact hy

theorem Alike.map {x y : Outcome α} (h : Alike x y) (f : α → β) :
    Alike (x.map f) (y.map f) := by
  rw [map_eq_bind, map_eq_bind]
  exact h.bind fun _ => .refl _

theorem Alike.discard {x y : Outcome α} (h : Alike x y) :
    Alike (Functor.discard x) (Functor.discard y) := by
  rw [discard_eq_bind, discard_eq_bind]
  exact h.bind fun _ => .refl _

theorem Alike.mapM {f g : α → Outcome β} (as : List α) (h : ∀ a, Alike (f a) (g a)) :
    Alike (as.mapM f) (as.mapM g) := by
  induction as with
  | nil => exact .refl _
  | cons a as ih =>
      rw [List.mapM_cons, List.mapM_cons]
      exact (h a).bind fun b => ih.bind fun bs => .refl _

theorem Alike.forM {f g : α → Outcome Unit} (as : List α) (h : ∀ a, Alike (f a) (g a)) :
    Alike (as.forM f) (as.forM g) := by
  induction as with
  | nil => exact .refl _
  | cons a as ih =>
      simp only [List.forM_eq_forM, List.forM_cons] at ih ⊢
      exact (h a).bind fun _ => ih

end Outcome

end LogicalPlan
