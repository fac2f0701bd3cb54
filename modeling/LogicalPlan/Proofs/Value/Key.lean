import LogicalPlan.Proofs.Value.Equality

/-!
# Equal keys agree

A value that is fit to be a key has the residue of its normal form. Equal keys therefore have the
same residue.
-/

namespace LogicalPlan

namespace Value

mutual

/-- The value is fit to be a key, so that equal ones have the same residue: it is no list and no
object and contains none. Equality of times of day rounds their distances from universal time to
whole seconds, but residues do not, so a time at another distance is not fit. -/
def IsKey : Value → Prop
  | .time t => t.HasWholeOffset
  | .list _ | .object _ => False
  | .tuple items | .set items => AreKeys items
  | .record _ _ _ key _ => AreKeys key
  | _ => True

/-- All items are fit to be keys. -/
def AreKeys : List Value → Prop
  | [] => True
  | v :: vs => IsKey v ∧ AreKeys vs

end

mutual

theorem isHashable_of_isKey : ∀ {v : Value}, v.IsKey → v.isHashable = true
  | .null, _ | .bool _, _ | .int _, _ | .float _, _ | .string _, _ | .bytes _, _ | .date _, _
  | .time _, _ | .instant _ _, _ => rfl
  | .list _, h => h.elim
  | .object _, h => h.elim
  | .tuple _, h => areHashable_of_areKeys h
  | .set _, h => areHashable_of_areKeys h
  | .record _ _ _ _ _, h => areHashable_of_areKeys h

theorem areHashable_of_areKeys : ∀ {items : List Value}, AreKeys items → areHashable items = true
  | [], _ => rfl
  | _ :: _, h => by
      rw [areHashable, isHashable_of_isKey h.1, areHashable_of_areKeys h.2]
      rfl

end

theorem areHashable_eq_all (items : List Value) : areHashable items = items.all isHashable := by
  induction items with
  | nil => rfl
  | cons v vs ih => rw [areHashable, ih, List.all_cons]

mutual

/-- A value can be a key exactly if its normal form can. -/
theorem isHashable_normal : ∀ v : Value, v.normal.isHashable = v.isHashable
  | .null | .bool _ | .int _ | .string _ | .bytes _ | .date _ | .time _ | .instant _ _
  | .list _ | .object _ => rfl
  | .float x => by
      rw [normal]
      cases x.toInt? <;> rfl
  | .tuple items => areHashable_normalItems items
  | .set items => by
      rw [normal, isHashable, isHashable, ← areHashable_normalItems items, areHashable_eq_all,
        areHashable_eq_all, (sortItems_perm _).all_eq]
  | .record _ _ _ key _ => areHashable_normalItems key

theorem areHashable_normalItems : ∀ items : List Value,
    areHashable (normalItems items) = areHashable items
  | [] => rfl
  | v :: vs => by
      rw [normalItems, areHashable, areHashable, isHashable_normal v, areHashable_normalItems vs]

end

/-- Of values that count as the same one, both can be keys or none. -/
theorem isHashable_congr {v w : Value} (h : v.same w = true) : v.isHashable = w.isHashable := by
  rw [← isHashable_normal v, same_iff.mp h, isHashable_normal w]

theorem residues_eq_map (items : List Value) : residues items = items.map residue := by
  induction items with
  | nil => rfl
  | cons v vs ih => rw [residues, ih, List.map_cons]

mutual

/-- There are no records in residues. -/
theorem bare_residue : ∀ {v : Value}, v.IsKey → bare (residue v) = residue v
  | .null, _ | .bool _, _ | .int _, _ | .date _, _ => rfl
  | .float x, _ => by
      rw [residue, doubleResidue]
      split <;> rfl
  | .string s, _ => by
      rw [residue]
      split <;> rfl
  | .bytes octets, _ => by
      rw [residue]
      split <;> rfl
  | .time t, _ => by
      rw [residue]
      cases t.universalMicroseconds? <;> rfl
  | .instant d t, _ => by
      rw [residue]
      cases t.universalMicroseconds? <;> rfl
  | .list _, h => h.elim
  | .object _, h => h.elim
  | .tuple items, h => by
      rw [residue, bare, bareItems_of_forall (bare_residues h)]
  | .set items, h => by
      rw [residue, bare, bareItems_of_forall]
      intro v hv
      exact bare_residues h v ((sortItems_perm _).mem_iff.mp hv)
  | .record _ _ _ key _, h => by
      rw [residue, bare, bareItems_of_forall (bare_residues h)]

theorem bare_residues : ∀ {items : List Value}, AreKeys items → ∀ v ∈ residues items, bare v = v
  | [], _ => by simp [residues]
  | _ :: _, h => List.forall_mem_cons.mpr ⟨bare_residue h.1, bare_residues h.2⟩

end

theorem residue_time {t : TimeOfDay} (h : t.HasWholeOffset) :
    residue (.time t.comparable) = residue (.time t) := by
  rw [residue, residue, TimeOfDay.comparable_eq h, t.universalMicroseconds?_universal]
  cases hoffset : t.offset with
  | none => rw [TimeOfDay.universal, hoffset]
  | some offset => rw [TimeOfDay.universalMicroseconds?, hoffset]; rfl

/-- At a distance of half a second, equal times of day have different residues. -/
example : same (.time ⟨0, 0, 0, 0, some 500000⟩) (.time ⟨0, 0, 0, 0, some 0⟩) = true ∧
    residue (.time ⟨0, 0, 0, 0, some 500000⟩) ≠ residue (.time ⟨0, 0, 0, 0, some 0⟩) := by
  decide

theorem residue_instant {d : Date} {t : TimeOfDay} (hd : d.IsValid) (ht : t.IsValid) :
    residue (.instant (t.universalInstant d).1 (t.universalInstant d).2) =
      residue (.instant d t) := by
  have residues := congrArg (Option.map durationResidue)
    (TimeOfDay.universalInstant_microseconds hd ht)
  rw [Option.map_map, Option.map_map] at residues
  rw [residue, residue]
  cases hoffset : t.offset with
  | none => simp [TimeOfDay.universalInstant, TimeOfDay.universal, hoffset]
  | some offset =>
      have known : t.universalMicroseconds? = some (t.sinceMidnight - offset) := by
        rw [TimeOfDay.universalMicroseconds?, hoffset, Option.map_some]
      rw [known, Option.map_some] at residues
      rw [known, Option.map_some, Option.getD_some]
      exact (congrArg (Option.getD · _) residues).trans (Option.getD_some ..)

mutual

/-- The residue of a key is the one of its normal form. -/
theorem residue_normal : ∀ {v : Value}, v.IsProper → v.IsKey → residue (normal v) = residue v
  | .null, _, _ | .int _, _, _ | .string _, _, _ | .bytes _, _, _ | .date _, _, _ => rfl
  | .bool b, _, _ => by cases b <;> rfl
  | .float x, _, _ => by
      rw [normal]
      cases hx : x.toInt? with
      | none => rfl
      | some i => exact (doubleResidue_eq hx).symm
  | .time _, _, h => residue_time h
  | .instant _ _, hproper, _ => residue_instant hproper.1 hproper.2
  | .list _, _, h => h.elim
  | .object _, _, h => h.elim
  | .tuple items, hproper, h => by
      rw [normal, residue, residue, residues_normalItems hproper h]
  | .set items, hproper, h => by
      -- Items are in another order before residues are taken, which are sorted once more.
      have perm : (residues (sortItems (normalItems items))).Perm (residues items) := by
        rw [← residues_normalItems hproper.1 h, residues_eq_map, residues_eq_map]
        exact (sortItems_perm _).map residue
      rw [normal, residue, residue, ((sortItems_eq_iff ?_).mpr perm.symm)]
      intro v hv w hw heq
      have := bare_eq_of_code heq
      rwa [bare_residues h v hv, bare_residues h w hw] at this
  | .record _ _ _ key _, hproper, h => by
      rw [normal, residue, residue, residues_normalItems hproper.1 h]

theorem residues_normalItems : ∀ {items : List Value}, AreProper items → AreKeys items →
    residues (normalItems items) = residues items
  | [], _, _ => rfl
  | _ :: _, hproper, h => by
      rw [normalItems, residues, residues, residue_normal hproper.1 h.1,
        residues_normalItems hproper.2 h.2]

end

/-- Keys with the same normal form agree. -/
theorem keysAgree_of_normal {v w : Value} (hv : v.IsProper) (hw : w.IsProper) (hkey : v.IsKey)
    (hkey' : w.IsKey) (h : normal v = normal w) : keysAgree v w = .ok true := by
  have residues : residue v = residue w := by
    rw [← residue_normal hv hkey, h, residue_normal hw hkey']
  rw [keysAgree, isHashable_of_isKey hkey, isHashable_of_isKey hkey', residues]
  simp

end Value

end LogicalPlan
