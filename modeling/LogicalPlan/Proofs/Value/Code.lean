import Mathlib.Data.List.Perm.Subperm
import Mathlib.Data.List.Sort
import LogicalPlan.Value.Basic

/-!
# Codes tell values apart

The code of a value determines the value up to the texts of records, whatever follows the code.
Entries with different keys are therefore sorted into one list, in whatever order they were given.
-/

namespace LogicalPlan

namespace Value

/-! ### Values without the texts of records -/

mutual

/-- The value without the texts of its records. -/
def bare : Value → Value
  | .list items => .list (bareItems items)
  | .tuple items => .tuple (bareItems items)
  | .set items => .set (bareItems items)
  | .object members => .object (bareMembers members)
  | .record kind _ _ key members =>
    .record kind default "" (bareItems key) (bareMembers members)
  | v => v

/-- The items without the texts of their records. -/
def bareItems : List Value → List Value
  | [] => []
  | v :: vs => bare v :: bareItems vs

/-- The members without the texts of their records. -/
def bareMembers : List (Value × Value) → List (Value × Value)
  | [] => []
  | (k, v) :: ms => (bare k, bare v) :: bareMembers ms

end

/-! ### Codes -/

theorem eq_of_toNat {a b : Bool} (h : a.toNat = b.toNat) : a = b := by
  cases a <;> cases b <;> first | rfl | cases h

theorem textCode_unambiguous {s t : String} {r r' : List ℕ}
    (h : textCode s ++ r = textCode t ++ r') : s = t ∧ r = r' := by
  simp only [textCode, List.cons_append, List.cons.injEq] at h
  obtain ⟨hlength, h⟩ := h
  obtain ⟨hchars, rfl⟩ := List.append_inj h
    (by rw [List.length_map, List.length_map, String.length_toList, String.length_toList, hlength])
  have injective : Function.Injective Char.toNat := fun c d hcd => Char.toNat_inj.mp hcd
  exact ⟨String.toList_inj.mp (List.map_injective_iff.mpr injective hchars), rfl⟩

theorem signCode_unambiguous {i j : ℤ} {r r' : List ℕ} (h : signCode i ++ r = signCode j ++ r') :
    i = j ∧ r = r' := by
  simp only [signCode, List.cons_append, List.nil_append, List.cons.injEq] at h
  obtain ⟨hsign, habs, rfl⟩ := h
  refine ⟨?_, rfl⟩
  split_ifs at hsign <;> omega

/-- The presence of a distance is known before the code of a time starts. -/
theorem timeCode_unambiguous {t u : TimeOfDay} {r r' : List ℕ}
    (hoffset : t.offset.isSome = u.offset.isSome) (h : timeCode t ++ r = timeCode u ++ r') :
    t = u ∧ r = r' := by
  obtain ⟨hour, minute, second, microsecond, offset⟩ := t
  obtain ⟨hour', minute', second', microsecond', offset'⟩ := u
  simp only [timeCode, List.cons_append, List.nil_append, List.cons.injEq] at h
  obtain ⟨rfl, rfl, rfl, rfl, h⟩ := h
  cases offset with
  | none =>
      cases offset' with
      | none => exact ⟨rfl, h⟩
      | some => cases hoffset
  | some o =>
      cases offset' with
      | none => cases hoffset
      | some o' =>
          obtain ⟨rfl, rfl⟩ := signCode_unambiguous h
          exact ⟨rfl, rfl⟩

theorem date_unambiguous {d e : Date} {r r' : List ℕ} (h : d.fields ++ r = e.fields ++ r') :
    d = e ∧ r = r' := by
  obtain ⟨year, month, day⟩ := d
  obtain ⟨year', month', day'⟩ := e
  simp only [Date.fields, List.cons_append, List.nil_append, List.cons.injEq] at h
  obtain ⟨rfl, rfl, rfl, rfl⟩ := h
  exact ⟨rfl, rfl⟩

mutual

/-- The code of a value tells the value without the texts of records, whatever follows. -/
theorem code_unambiguous : ∀ {v w : Value} {r r' : List ℕ}, code v ++ r = code w ++ r' →
    bare v = bare w ∧ r = r'
  -- Codes start with the number of the kind, so values of two kinds are told apart by it.
  | .null, w, _, _, h => by
      cases w with
      | null => exact ⟨rfl, by simpa [code] using h⟩
      | _ => simp [code] at h
  | .bool a, w, _, _, h => by
      cases w with
      | bool b =>
          simp only [code, List.cons_append, List.nil_append, List.cons.injEq, true_and] at h
          exact ⟨by rw [eq_of_toNat h.1], h.2⟩
      | _ => simp [code] at h
  | .int i, w, _, _, h => by
      cases w with
      | int j =>
          simp only [code, List.cons_append, List.cons.injEq, true_and] at h
          obtain ⟨rfl, rest⟩ := signCode_unambiguous h
          exact ⟨rfl, rest⟩
      | _ => simp [code] at h
  | .float x, w, _, _, h => by
      cases w with
      | float y =>
          simp only [code, List.cons_append, List.nil_append, List.cons.injEq, true_and] at h
          have hbits : x = y := congrArg Double.mk (UInt64.toNat_inj.mp h.1)
          exact ⟨by rw [hbits], h.2⟩
      | _ => simp [code] at h
  | .string s, w, _, _, h => by
      cases w with
      | string t =>
          simp only [code, List.cons_append, List.cons.injEq, true_and] at h
          obtain ⟨rfl, rest⟩ := textCode_unambiguous h
          exact ⟨rfl, rest⟩
      | _ => simp [code] at h
  | .bytes a, w, _, _, h => by
      cases w with
      | bytes b =>
          simp only [code, List.cons_append, List.cons.injEq, true_and] at h
          obtain ⟨hoctets, rest⟩ := List.append_inj h.2 (by simpa using h.1)
          have injective : Function.Injective UInt8.toNat := fun c d hcd => UInt8.toNat_inj.mp hcd
          exact ⟨by rw [List.map_injective_iff.mpr injective hoctets], rest⟩
      | _ => simp [code] at h
  | .date d, w, _, _, h => by
      cases w with
      | date e =>
          simp only [code, List.cons_append, List.cons.injEq, true_and] at h
          obtain ⟨rfl, rest⟩ := date_unambiguous h
          exact ⟨rfl, rest⟩
      | _ => simp [code] at h
  | .time t, w, _, _, h => by
      cases w with
      | time u =>
          simp only [code, List.cons_append, List.cons.injEq, true_and] at h
          obtain ⟨rfl, rest⟩ := timeCode_unambiguous (eq_of_toNat h.1) h.2
          exact ⟨rfl, rest⟩
      | _ => simp [code] at h
  | .instant d t, w, _, _, h => by
      cases w with
      | instant e u =>
          simp only [code, List.cons_append, List.append_assoc, List.cons.injEq, true_and] at h
          obtain ⟨rfl, htime⟩ := date_unambiguous h.2
          obtain ⟨rfl, rest⟩ := timeCode_unambiguous (eq_of_toNat h.1) htime
          exact ⟨rfl, rest⟩
      | _ => simp [code] at h
  | .list items, w, _, _, h => by
      cases w with
      | list others =>
          simp only [code, List.cons_append, List.cons.injEq, true_and] at h
          obtain ⟨hitems, rest⟩ := itemsCode_unambiguous h.1 h.2
          exact ⟨congrArg list hitems, rest⟩
      | _ => simp [code] at h
  | .tuple items, w, _, _, h => by
      cases w with
      | tuple others =>
          simp only [code, List.cons_append, List.cons.injEq, true_and] at h
          obtain ⟨hitems, rest⟩ := itemsCode_unambiguous h.1 h.2
          exact ⟨congrArg tuple hitems, rest⟩
      | _ => simp [code] at h
  | .set items, w, _, _, h => by
      cases w with
      | set others =>
          simp only [code, List.cons_append, List.cons.injEq, true_and] at h
          obtain ⟨hitems, rest⟩ := itemsCode_unambiguous h.1 h.2
          exact ⟨congrArg set hitems, rest⟩
      | _ => simp [code] at h
  | .object members, w, _, _, h => by
      cases w with
      | object others =>
          simp only [code, List.cons_append, List.cons.injEq, true_and] at h
          obtain ⟨hmembers, rest⟩ := membersCode_unambiguous h.1 h.2
          exact ⟨congrArg object hmembers, rest⟩
      | _ => simp [code] at h
  | .record kind _ _ key members, w, _, _, h => by
      cases w with
      | record kind' _ _ key' members' =>
          simp only [code, List.cons_append, List.append_assoc, List.cons.injEq, true_and] at h
          obtain ⟨rfl, hparts⟩ := textCode_unambiguous h
          obtain ⟨hkeys, hparts⟩ := List.cons.inj hparts
          obtain ⟨hkey, hparts⟩ := itemsCode_unambiguous hkeys hparts
          obtain ⟨hlength, hparts⟩ := List.cons.inj hparts
          obtain ⟨hmembers, rest⟩ := membersCode_unambiguous hlength hparts
          exact ⟨by rw [bare, bare, hkey, hmembers], rest⟩
      | _ => simp [code] at h

theorem itemsCode_unambiguous : ∀ {vs ws : List Value} {r r' : List ℕ}, vs.length = ws.length →
    itemsCode vs ++ r = itemsCode ws ++ r' → bareItems vs = bareItems ws ∧ r = r'
  | [], [], _, _, _, h => ⟨rfl, h⟩
  | [], _ :: _, _, _, hlength, _ => by cases hlength
  | _ :: _, [], _, _, hlength, _ => by cases hlength
  | v :: vs, w :: ws, _, _, hlength, h => by
      -- Nothing separates items: what follows the code of one is the code of the others.
      rw [itemsCode, itemsCode, List.append_assoc, List.append_assoc] at h
      obtain ⟨hitem, h⟩ := code_unambiguous h
      obtain ⟨hitems, rest⟩ := itemsCode_unambiguous (Nat.succ.inj hlength) h
      exact ⟨by rw [bareItems, bareItems, hitem, hitems], rest⟩

theorem membersCode_unambiguous : ∀ {ms ns : List (Value × Value)} {r r' : List ℕ},
    ms.length = ns.length → membersCode ms ++ r = membersCode ns ++ r' →
      bareMembers ms = bareMembers ns ∧ r = r'
  | [], [], _, _, _, h => ⟨rfl, h⟩
  | [], _ :: _, _, _, hlength, _ => by cases hlength
  | _ :: _, [], _, _, hlength, _ => by cases hlength
  | (k, v) :: ms, (l, w) :: ns, _, _, hlength, h => by
      simp only [membersCode, List.append_assoc] at h
      obtain ⟨hkey, h⟩ := code_unambiguous h
      obtain ⟨hvalue, h⟩ := code_unambiguous h
      obtain ⟨hmembers, rest⟩ := membersCode_unambiguous (Nat.succ.inj hlength) h
      exact ⟨by rw [bareMembers, bareMembers, hkey, hvalue, hmembers], rest⟩

end

/-- Values with the same code are the same without the texts of records. -/
theorem bare_eq_of_code {v w : Value} (h : code v = code w) : bare v = bare w :=
  (code_unambiguous (congrArg (· ++ []) h)).1

/-! ### Sorting by codes -/

section Sorting

variable {κ α : Type} (lt : κ → κ → Bool)

theorem insertSorted_perm (m : κ × α) (ms : List (κ × α)) :
    (insertSorted lt m ms).Perm (m :: ms) := by
  induction ms with
  | nil => exact .refl _
  | cons n ms ih =>
      unfold insertSorted
      split
      · exact (ih.cons n).trans (.swap m n ms)
      · exact .refl _

/-- Sorting keeps the entries. -/
theorem sortByKey_perm (ms : List (κ × α)) : (sortByKey lt ms).Perm ms := by
  induction ms with
  | nil => exact .refl _
  | cons m ms ih => exact (insertSorted_perm lt m _).trans (ih.cons m)

end Sorting

section Codes

theorem not_keyBefore_of_keyBefore {k l : Value} (h : keyBefore k l = true) :
    keyBefore l k = false :=
  decide_eq_false (List.lt_asymm (of_decide_eq_true h))

theorem not_keyBefore_trans {k l m : Value} (h : keyBefore l k = false)
    (h' : keyBefore m l = false) : keyBefore m k = false :=
  decide_eq_false <| List.not_lt.mpr <|
    List.le_trans (List.not_lt.mp (of_decide_eq_false h)) (List.not_lt.mp (of_decide_eq_false h'))

theorem code_eq_of_not_keyBefore {k l : Value} (h : keyBefore k l = false)
    (h' : keyBefore l k = false) : code k = code l :=
  List.le_antisymm (List.not_lt.mp (of_decide_eq_false h')) (List.not_lt.mp (of_decide_eq_false h))

variable {α : Type}

/-- No entry is followed by one with a smaller code. -/
def AreSorted (ms : List (Value × α)) : Prop :=
  ms.Pairwise fun m n => keyBefore n.1 m.1 = false

theorem insertSorted_areSorted (m : Value × α) {ms : List (Value × α)} (hms : AreSorted ms) :
    AreSorted (insertSorted keyBefore m ms) := by
  induction ms with
  | nil => exact List.pairwise_singleton _ _
  | cons n ms ih =>
      obtain ⟨hn, hrest⟩ := List.pairwise_cons.mp hms
      unfold insertSorted
      split
      case isTrue hbefore =>
        refine List.pairwise_cons.mpr ⟨?_, ih hrest⟩
        intro k hk
        rcases List.mem_cons.mp ((insertSorted_perm keyBefore m ms).mem_iff.mp hk) with rfl | hk
        · exact not_keyBefore_of_keyBefore hbefore
        · exact hn k hk
      case isFalse hbefore =>
        have first : keyBefore n.1 m.1 = false := Bool.eq_false_iff.mpr hbefore
        refine List.pairwise_cons.mpr ⟨?_, hms⟩
        intro k hk
        rcases List.mem_cons.mp hk with rfl | hk
        · exact first
        · exact not_keyBefore_trans first (hn k hk)

theorem sortByKey_areSorted (ms : List (Value × α)) : AreSorted (sortByKey keyBefore ms) := by
  induction ms with
  | nil => exact .nil
  | cons m ms ih => exact insertSorted_areSorted m ih

/-- Entries that are told apart by their codes are sorted into the same list exactly if they are the
same up to their order. -/
theorem sortByKey_eq_iff {ms ns : List (Value × α)}
    (hcode : ∀ m ∈ ms, ∀ n ∈ ms, code m.1 = code n.1 → m = n) :
    sortByKey keyBefore ms = sortByKey keyBefore ns ↔ ms.Perm ns := by
  constructor
  · intro h
    exact (sortByKey_perm keyBefore ms).symm.trans (h ▸ sortByKey_perm keyBefore ns)
  · intro h
    have perm : (sortByKey keyBefore ms).Perm (sortByKey keyBefore ns) :=
      (sortByKey_perm keyBefore ms).trans (h.trans (sortByKey_perm keyBefore ns).symm)
    refine List.Perm.eq_of_pairwise ?_ (sortByKey_areSorted ms) (sortByKey_areSorted ns) perm
    intro m n hm hn hle hge
    have hm := (sortByKey_perm keyBefore ms).mem_iff.mp hm
    have hn := h.mem_iff.mpr ((sortByKey_perm keyBefore ns).mem_iff.mp hn)
    exact hcode m hm n hn (code_eq_of_not_keyBefore hge hle)

theorem sortItems_perm (items : List Value) : (sortItems items).Perm items := by
  have := (sortByKey_perm keyBefore (items.map fun v => (v, ()))).map Prod.fst
  simpa [sortItems, Function.comp_def] using this

/-- Items that are told apart by their codes are sorted into the same list exactly if they are the
same up to their order. -/
theorem sortItems_eq_iff {items others : List Value}
    (hcode : ∀ v ∈ items, ∀ w ∈ items, code v = code w → v = w) :
    sortItems items = sortItems others ↔ items.Perm others := by
  constructor
  · intro h
    exact (sortItems_perm items).symm.trans (h ▸ sortItems_perm others)
  · intro h
    refine congrArg (List.map Prod.fst) ((sortByKey_eq_iff ?_).mpr (h.map fun v => (v, ())))
    intro m hm n hn heq
    obtain ⟨v, hv, rfl⟩ := List.mem_map.mp hm
    obtain ⟨w, hw, rfl⟩ := List.mem_map.mp hn
    exact congrArg (·, ()) (hcode v hv w hw heq)

end Codes

/-! ### Normal forms have no texts of records -/

theorem bareItems_eq_map (items : List Value) : bareItems items = items.map bare := by
  induction items with
  | nil => rfl
  | cons v vs ih => rw [bareItems, ih, List.map_cons]

theorem bareMembers_eq_map (members : Members) :
    bareMembers members = members.map fun m => (bare m.1, bare m.2) := by
  induction members with
  | nil => rfl
  | cons m ms ih => rw [bareMembers, ih, List.map_cons]

theorem bareItems_of_forall {items : List Value} (h : ∀ v ∈ items, bare v = v) :
    bareItems items = items := by
  rw [bareItems_eq_map]
  exact (List.map_congr_left h).trans (List.map_id' items)

theorem bareMembers_of_forall {members : Members}
    (h : ∀ m ∈ members, bare m.1 = m.1 ∧ bare m.2 = m.2) : bareMembers members = members := by
  rw [bareMembers_eq_map]
  refine (List.map_congr_left fun m hm => ?_).trans (List.map_id' members)
  exact Prod.ext (h m hm).1 (h m hm).2

mutual

theorem bare_normal : ∀ v : Value, bare (normal v) = normal v
  | .null | .bool _ | .int _ | .string _ | .bytes _ | .date _ | .time _ | .instant _ _ => rfl
  | .float x => by
      rw [normal]
      cases x.toInt? <;> rfl
  | .list items => by
      rw [normal, bare, bareItems_of_forall (bare_normalItems items)]
  | .tuple items => by
      rw [normal, bare, bareItems_of_forall (bare_normalItems items)]
  | .set items => by
      rw [normal, bare, bareItems_of_forall]
      intro v hv
      exact bare_normalItems items v ((sortItems_perm _).mem_iff.mp hv)
  | .object members => by
      rw [normal, bare, bareMembers_of_forall]
      intro m hm
      exact bare_normalMembers members m ((sortByKey_perm _ _).mem_iff.mp hm)
  | .record kind text literal key members => by
      rw [normal, bare, bareItems_of_forall (bare_normalItems key),
        bareMembers_of_forall (bare_normalMembers members)]

theorem bare_normalItems : ∀ items : List Value, ∀ v ∈ normalItems items, bare v = v
  | [] => by simp [normalItems]
  | v :: vs => List.forall_mem_cons.mpr ⟨bare_normal v, bare_normalItems vs⟩

theorem bare_normalMembers : ∀ members : List (Value × Value), ∀ m ∈ normalMembers members,
    bare m.1 = m.1 ∧ bare m.2 = m.2
  | [] => by simp [normalMembers]
  | (k, v) :: ms => List.forall_mem_cons.mpr ⟨⟨bare_normal k, bare_normal v⟩, bare_normalMembers ms⟩

end

/-- Normal forms with the same code are the same. -/
theorem normal_eq_of_code {v w : Value} (h : code (normal v) = code (normal w)) :
    normal v = normal w := by
  rw [← bare_normal v, ← bare_normal w]
  exact bare_eq_of_code h

end Value

end LogicalPlan
