import LogicalPlan.Proofs.Value.Calendar
import LogicalPlan.Proofs.Value.Code
import LogicalPlan.Proofs.Value.Number

/-!
# Equality of values

Two values are equal part by part: numbers and truth values by the rational number that they are,
lists and tuples item by item, sets and objects without regard to order. Normal forms decide this
equality, so it is an equivalence.
-/

namespace LogicalPlan

namespace Double

/-- The number is infinite. -/
def isInfinite (x : Double) : Bool :=
  !x.isFinite && x.fractionField == 0

end Double

namespace Value

/-! ### Equality part by part -/

/-- The rational number that the value is; truth values are zero and one. -/
def toRat? : Value → Option ℚ
  | .bool b => some (if b then 1 else 0)
  | .int i => some i
  | .float x => if x.isFinite then some x.toRat else none
  | _ => none

/-- The values are the same rational number or the same infinite one. -/
def EqualsNumber (v w : Value) : Prop :=
  (∃ q, v.toRat? = some q ∧ w.toRat? = some q) ∨
    ∃ x : Double, x.isInfinite = true ∧ v = .float x ∧ w = .float x

mutual

/-- The values are equal. -/
def Equals : Value → Value → Prop
  | .null, .null => True
  | .string s, .string t => s = t
  | .bytes a, .bytes b => a = b
  | .date d, .date e => d = e
  | .time t, .time u => t.comparable = u.comparable
  | .instant d t, .instant e u => t.universalInstant d = u.universalInstant e
  | .list items, .list others => AreEqual items others
  | .tuple items, .tuple others => AreEqual items others
  | .set items, .set others => items.length = others.length ∧ AreAmong items others
  | .object members, .object others =>
    members.length = others.length ∧ AreMembersAmong members others
  | .record kind _ _ key members, .record kind' _ _ key' members' =>
    kind = kind' ∧ AreEqual key key' ∧ AreEqualMembers members members'
  | v, w => EqualsNumber v w

/-- The items are equal one by one. -/
def AreEqual : List Value → List Value → Prop
  | [], [] => True
  | v :: vs, w :: ws => Equals v w ∧ AreEqual vs ws
  | _, _ => False

/-- Each item has an equal one among the others. -/
def AreAmong : List Value → List Value → Prop
  | [], _ => True
  | v :: vs, others => (∃ w ∈ others, Equals v w) ∧ AreAmong vs others

/-- The members are equal one by one. -/
def AreEqualMembers : List (Value × Value) → List (Value × Value) → Prop
  | [], [] => True
  | (k, v) :: ms, (l, w) :: ns => Equals k l ∧ Equals v w ∧ AreEqualMembers ms ns
  | _, _ => False

/-- Each key has an equal one among the others, with an equal value. -/
def AreMembersAmong : List (Value × Value) → List (Value × Value) → Prop
  | [], _ => True
  | (k, v) :: ms, others =>
    (∃ n ∈ others, Equals k n.1 ∧ Equals v n.2) ∧ AreMembersAmong ms others

end

mutual

/-- No number in the value is undefined, the fields of instants are in their ranges, and the items
of sets and the keys of objects differ. -/
def IsProper : Value → Prop
  | .float x => x.isFinite = true ∨ x.isInfinite = true
  | .instant d t => d.IsValid ∧ t.IsValid
  | .list items | .tuple items => AreProper items
  | .set items => AreProper items ∧ items.Pairwise fun v w => ¬ v.Equals w
  | .object members =>
    AreProperMembers members ∧ members.Pairwise fun m n => ¬ m.1.Equals n.1
  | .record _ _ _ key members => AreProper key ∧ AreProperMembers members
  | _ => True

/-- All items are proper. -/
def AreProper : List Value → Prop
  | [] => True
  | v :: vs => IsProper v ∧ AreProper vs

/-- All keys and values are proper. -/
def AreProperMembers : List (Value × Value) → Prop
  | [] => True
  | (k, v) :: ms => IsProper k ∧ IsProper v ∧ AreProperMembers ms

end

theorem areProper_iff {items : List Value} : AreProper items ↔ ∀ v ∈ items, v.IsProper := by
  induction items with
  | nil => simp [AreProper]
  | cons v vs ih => rw [AreProper, ih, List.forall_mem_cons]

theorem areProperMembers_iff {members : Members} :
    AreProperMembers members ↔ ∀ m ∈ members, m.1.IsProper ∧ m.2.IsProper := by
  induction members with
  | nil => simp [AreProperMembers]
  | cons m ms ih => rw [AreProperMembers, ih, List.forall_mem_cons, and_assoc]

theorem areAmong_iff {items others : List Value} :
    AreAmong items others ↔ ∀ v ∈ items, ∃ w ∈ others, v.Equals w := by
  induction items with
  | nil => simp [AreAmong]
  | cons v vs ih => rw [AreAmong, ih, List.forall_mem_cons]

theorem areMembersAmong_iff {members others : Members} :
    AreMembersAmong members others ↔
      ∀ m ∈ members, ∃ n ∈ others, m.1.Equals n.1 ∧ m.2.Equals n.2 := by
  induction members with
  | nil => simp [AreMembersAmong]
  | cons m ms ih => rw [AreMembersAmong, ih, List.forall_mem_cons]

/-! ### Numbers -/

/-- The value is a number or a truth value. -/
def isNumeric : Value → Bool
  | .bool _ | .int _ | .float _ => true
  | _ => false

theorem EqualsNumber.symm {v w : Value} (h : EqualsNumber v w) : EqualsNumber w v := by
  rcases h with ⟨q, hv, hw⟩ | ⟨x, hx, hv, hw⟩
  · exact .inl ⟨q, hw, hv⟩
  · exact .inr ⟨x, hx, hw, hv⟩

theorem equalsNumber_iff {v w : Value} {q : ℚ} (hv : v.toRat? = some q) :
    EqualsNumber v w ↔ w.toRat? = some q := by
  constructor
  · rintro (⟨r, hr, hw⟩ | ⟨x, hx, rfl, rfl⟩)
    · rw [hw, ← hr, hv]
    · exact hv
  · intro hw
    exact .inl ⟨q, hv, hw⟩

/-- The normal form of a number is an integer where the number is one. -/
theorem normal_eq_int_iff {v : Value} (hv : v.isNumeric = true) {i : ℤ} :
    normal v = .int i ↔ v.toRat? = some (i : ℚ) := by
  cases v with
  | bool b => cases b <;> simp [normal, toRat?] <;> norm_cast
  | int j => simp [normal, toRat?]
  | float x =>
      rw [normal, toRat?]
      cases hx : x.isFinite
      · simp [Double.toInt?_eq_none hx]
      · rw [if_pos rfl, Option.some.injEq, ← Double.toInt?_eq_some_iff hx]
        cases x.toInt? <;> simp
  | _ => cases hv

/-- A number that is an integer equals what has this integer as its normal form. -/
theorem normal_eq_iff_of_int {v w : Value} (hv : v.isNumeric = true) (hw : w.isNumeric = true)
    {i : ℤ} (hi : normal v = .int i) : normal v = normal w ↔ EqualsNumber v w := by
  rw [equalsNumber_iff ((normal_eq_int_iff hv).mp hi), ← normal_eq_int_iff hw, hi, eq_comm]

/-- Among the other numbers, equal ones are the same. -/
theorem equalsNumber_iff_eq {x y : Double} (hx : x.toInt? = none)
    (hproper : x.isFinite = true ∨ x.isInfinite = true) :
    EqualsNumber (.float x) (.float y) ↔ x = y := by
  constructor
  · rintro (⟨q, hq, hq'⟩ | ⟨z, -, hz, hz'⟩)
    · simp only [toRat?, Option.ite_none_right_eq_some, Option.some.injEq] at hq hq'
      rcases Double.eq_of_toRat (hq.2.trans hq'.2.symm) with heq | ⟨hzero, -⟩
      · exact heq
      · have : x.toRat = (0 : ℤ) := by
          rw [Double.toRat_eq, x.isZero_iff.mp hzero]
          simp [Double.magnitude]
        rw [(Double.toInt?_eq_some_iff hq.1 0).mpr this] at hx
        cases hx
    · rw [float.inj hz, float.inj hz']
  · rintro rfl
    rcases hproper with hfinite | hinfinite
    · exact .inl ⟨x.toRat, by rw [toRat?, if_pos hfinite], by rw [toRat?, if_pos hfinite]⟩
    · exact .inr ⟨x, hinfinite, rfl, rfl⟩

theorem normal_float_of_none {x : Double} (hx : x.toInt? = none) :
    normal (.float x) = .float x := by
  rw [normal, hx]
  rfl

/-- Normal forms decide the equality of numbers. -/
theorem normal_eq_iff_equalsNumber {v w : Value} (hv : v.isNumeric = true)
    (hw : w.isNumeric = true) (hv' : v.IsProper) (hw' : w.IsProper) :
    normal v = normal w ↔ EqualsNumber v w := by
  have integer {u : Value} (hu : u.isNumeric = true) :
      (∃ i, normal u = .int i) ∨ ∃ x : Double, u = .float x ∧ x.toInt? = none := by
    cases u with
    | bool b => exact .inl ⟨_, rfl⟩
    | int i => exact .inl ⟨i, rfl⟩
    | float x =>
        cases hx : x.toInt? with
        | some i => exact .inl ⟨i, by rw [normal, hx]; rfl⟩
        | none => exact .inr ⟨x, rfl, hx⟩
    | _ => cases hu
  -- Only numbers that are no integers keep their representation, which is then unique.
  rcases integer hv with ⟨i, hi⟩ | ⟨x, rfl, hx⟩
  · exact normal_eq_iff_of_int hv hw hi
  · rcases integer hw with ⟨j, hj⟩ | ⟨y, rfl, hy⟩
    · rw [eq_comm, normal_eq_iff_of_int hw hv hj]
      exact ⟨EqualsNumber.symm, EqualsNumber.symm⟩
    · rw [normal_float_of_none hx, normal_float_of_none hy, float.injEq]
      exact (equalsNumber_iff_eq hx hv').symm

/-! ### Kinds of values -/

/-- The kind of a value; numbers and truth values are of one kind. -/
def shape : Value → ℕ
  | .null => 0
  | .bool _ | .int _ | .float _ => 1
  | .string _ => 2
  | .bytes _ => 3
  | .date _ => 4
  | .time _ => 5
  | .instant _ _ => 6
  | .list _ => 7
  | .tuple _ => 8
  | .set _ => 9
  | .object _ => 10
  | .record _ _ _ _ _ => 11

theorem shape_normal (v : Value) : shape (normal v) = shape v := by
  cases v with
  | float x =>
      rw [normal]
      cases x.toInt? <;> rfl
  | _ => rfl

theorem shape_of_isNumeric {v : Value} (h : v.isNumeric = true) : shape v = 1 := by
  cases v with
  | bool | int | float => rfl
  | _ => cases h

theorem isNumeric_of_toRat? {v : Value} {q : ℚ} (h : v.toRat? = some q) : v.isNumeric = true := by
  cases v with
  | bool | int | float => rfl
  | _ => cases h

theorem isNumeric_of_equalsNumber {v w : Value} (h : EqualsNumber v w) :
    v.isNumeric = true ∧ w.isNumeric = true := by
  rcases h with ⟨q, hv, hw⟩ | ⟨x, -, rfl, rfl⟩
  · exact ⟨isNumeric_of_toRat? hv, isNumeric_of_toRat? hw⟩
  · exact ⟨rfl, rfl⟩

theorem shape_of_equals {v w : Value} (h : v.Equals w) : shape v = shape w := by
  unfold Equals at h
  split at h
  case h_12 =>
    obtain ⟨hv, hw⟩ := isNumeric_of_equalsNumber h
    rw [shape_of_isNumeric hv, shape_of_isNumeric hw]
  all_goals rfl

/-- Values of different kinds differ, and so do their normal forms. -/
theorem iff_of_shape_ne {v w : Value} (h : shape v ≠ shape w) :
    normal v = normal w ↔ v.Equals w := by
  refine iff_of_false ?_ fun heq => h (shape_of_equals heq)
  intro heq
  rw [← shape_normal v, heq, shape_normal w] at h
  exact h rfl

theorem equals_iff_of_isNumeric {v w : Value} (hv : v.isNumeric = true) :
    v.Equals w ↔ EqualsNumber v w := by
  cases v with
  | bool | int | float => rw [Equals] <;> simp
  | _ => cases hv

theorem normal_eq_iff_of_isNumeric {v w : Value} (hv : v.isNumeric = true) (hv' : v.IsProper)
    (hw' : w.IsProper) : normal v = normal w ↔ v.Equals w := by
  by_cases hw : w.isNumeric = true
  · rw [equals_iff_of_isNumeric hv]
    exact normal_eq_iff_equalsNumber hv hw hv' hw'
  · refine iff_of_shape_ne ?_
    rw [shape_of_isNumeric hv]
    cases w <;> simp_all [isNumeric, shape]

/-! ### Normal forms decide equality -/

/-- Normal forms decide what equals the value. -/
def IsDecided (v : Value) : Prop :=
  ∀ w : Value, w.IsProper → (normal v = normal w ↔ v.Equals w)

section Unordered

variable {items others : List Value} {members others' : Members}

theorem mem_normalItems {v : Value} : v ∈ normalItems items ↔ ∃ w ∈ items, normal w = v := by
  rw [normalItems_eq_map, List.mem_map]

/-- Lists of different things are the same up to order if they are equally long and one contains the
other. -/
theorem perm_iff {α : Type} {as bs : List α} (has : as.Nodup) :
    as.Perm bs ↔ as.length = bs.length ∧ ∀ a ∈ as, a ∈ bs := by
  constructor
  · intro h
    exact ⟨h.length_eq, fun a ha => h.mem_iff.mp ha⟩
  · rintro ⟨hlength, hsubset⟩
    exact (has.subperm hsubset).perm_of_length_le hlength.ge

theorem nodup_normalItems (hitems : ∀ v ∈ items, v.IsDecided) (hproper : AreProper items)
    (h : items.Pairwise fun v w => ¬ v.Equals w) : (normalItems items).Nodup := by
  rw [normalItems_eq_map, List.Nodup, List.pairwise_map]
  refine h.imp_of_mem ?_
  intro v w hv hw hne heq
  exact hne ((hitems v hv w (areProper_iff.mp hproper w hw)).mp heq)

/-- Sets have the same normal form if they are equally large and one contains the other. -/
theorem sortItems_normalItems_eq_iff (hitems : ∀ v ∈ items, v.IsDecided) (hproper : AreProper items)
    (h : items.Pairwise fun v w => ¬ v.Equals w) (hothers : AreProper others) :
    sortItems (normalItems items) = sortItems (normalItems others) ↔
      items.length = others.length ∧ AreAmong items others := by
  rw [sortItems_eq_iff, perm_iff (nodup_normalItems hitems hproper h), areAmong_iff,
    normalItems_eq_map, normalItems_eq_map, List.length_map, List.length_map]
  · refine and_congr_right fun _ => ?_
    rw [List.forall_mem_map]
    refine forall₂_congr fun v hv => ?_
    rw [List.mem_map]
    refine exists_congr fun w => and_congr_right fun hw => ?_
    rw [eq_comm]
    exact hitems v hv w (areProper_iff.mp hothers w hw)
  · intro v hv w hw heq
    obtain ⟨v', -, rfl⟩ := mem_normalItems.mp hv
    obtain ⟨w', -, rfl⟩ := mem_normalItems.mp hw
    exact normal_eq_of_code heq

theorem nodup_keys (hmembers : ∀ m ∈ members, m.1.IsDecided) (hproper : AreProperMembers members)
    (h : members.Pairwise fun m n => ¬ m.1.Equals n.1) :
    ((normalMembers members).map Prod.fst).Nodup := by
  rw [normalMembers_eq_map, List.map_map, List.Nodup, List.pairwise_map]
  refine h.imp_of_mem ?_
  intro m n hm hn hne heq
  exact hne ((hmembers m hm n.1 (areProperMembers_iff.mp hproper n hn).1).mp heq)

/-- Objects have the same normal form if they are equally large and one contains the members of the
other. -/
theorem sortByKey_normalMembers_eq_iff
    (hmembers : ∀ m ∈ members, m.1.IsDecided ∧ m.2.IsDecided) (hproper : AreProperMembers members)
    (h : members.Pairwise fun m n => ¬ m.1.Equals n.1) (hothers : AreProperMembers others') :
    sortByKey keyBefore (normalMembers members) = sortByKey keyBefore (normalMembers others') ↔
      members.length = others'.length ∧ AreMembersAmong members others' := by
  have keys := nodup_keys (fun m hm => (hmembers m hm).1) hproper h
  rw [sortByKey_eq_iff, perm_iff (List.Nodup.of_map _ keys), areMembersAmong_iff,
    normalMembers_eq_map, normalMembers_eq_map, List.length_map, List.length_map]
  · refine and_congr_right fun _ => ?_
    rw [List.forall_mem_map]
    refine forall₂_congr fun m hm => ?_
    rw [List.mem_map]
    refine exists_congr fun n => and_congr_right fun hn => ?_
    have hproper' := areProperMembers_iff.mp hothers n hn
    rw [eq_comm, Prod.mk.injEq, (hmembers m hm).1 n.1 hproper'.1, (hmembers m hm).2 n.2 hproper'.2]
  · -- Members are sorted by their keys only, and no two members have the same key.
    intro m hm n hn heq
    refine List.inj_on_of_nodup_map keys hm hn ?_
    rw [normalMembers_eq_map] at hm hn
    obtain ⟨m', -, rfl⟩ := List.mem_map.mp hm
    obtain ⟨n', -, rfl⟩ := List.mem_map.mp hn
    exact normal_eq_of_code heq

end Unordered

section Ordered

theorem normalItems_eq_iff {items others : List Value} (hitems : ∀ v ∈ items, v.IsDecided)
    (hothers : AreProper others) :
    normalItems items = normalItems others ↔ AreEqual items others := by
  induction items generalizing others with
  | nil => cases others <;> simp [normalItems, AreEqual]
  | cons v vs ih =>
      cases others with
      | nil => simp [normalItems, AreEqual]
      | cons w ws =>
          obtain ⟨hv, hvs⟩ := List.forall_mem_cons.mp hitems
          rw [normalItems, normalItems, AreEqual, List.cons.injEq, hv w hothers.1,
            ih hvs hothers.2]

theorem normalMembers_eq_iff {members others : Members}
    (hmembers : ∀ m ∈ members, m.1.IsDecided ∧ m.2.IsDecided) (hothers : AreProperMembers others) :
    normalMembers members = normalMembers others ↔ AreEqualMembers members others := by
  induction members generalizing others with
  | nil => cases others <;> simp [normalMembers, AreEqualMembers]
  | cons m ms ih =>
      cases others with
      | nil => simp [normalMembers, AreEqualMembers]
      | cons n ns =>
          obtain ⟨hm, hms⟩ := List.forall_mem_cons.mp hmembers
          rw [normalMembers, normalMembers, AreEqualMembers, List.cons.injEq, Prod.mk.injEq,
            hm.1 n.1 hothers.1, hm.2 n.2 hothers.2.1, ih hms hothers.2.2, and_assoc]

end Ordered

mutual

/-- Proper values have the same normal form exactly if they are equal. -/
theorem isDecided : ∀ {v : Value}, v.IsProper → v.IsDecided
  | .null, _ => fun w _ => by
      cases w with
      | null => simp [Equals]
      | _ => exact iff_of_shape_ne (by simp [shape])
  | .bool _, h => fun _ hw => normal_eq_iff_of_isNumeric rfl h hw
  | .int _, h => fun _ hw => normal_eq_iff_of_isNumeric rfl h hw
  | .float _, h => fun _ hw => normal_eq_iff_of_isNumeric rfl h hw
  | .string _, _ => fun w _ => by
      cases w with
      | string => simp [normal, Equals]
      | _ => exact iff_of_shape_ne (by simp [shape])
  | .bytes _, _ => fun w _ => by
      cases w with
      | bytes => simp [normal, Equals]
      | _ => exact iff_of_shape_ne (by simp [shape])
  | .date _, _ => fun w _ => by
      cases w with
      | date => simp [normal, Equals]
      | _ => exact iff_of_shape_ne (by simp [shape])
  | .time _, _ => fun w _ => by
      cases w with
      | time => simp [normal, Equals]
      | _ => exact iff_of_shape_ne (by simp [shape])
  | .instant _ _, _ => fun w _ => by
      cases w with
      | instant => simp [normal, Equals, Prod.ext_iff]
      | _ => exact iff_of_shape_ne (by simp [shape])
  | .list items, h => fun w hw => by
      cases w with
      | list others =>
          rw [normal, normal, Equals, list.injEq]
          exact normalItems_eq_iff (items_decided h) hw
      | _ => exact iff_of_shape_ne (by simp [shape])
  | .tuple items, h => fun w hw => by
      cases w with
      | tuple others =>
          rw [normal, normal, Equals, tuple.injEq]
          exact normalItems_eq_iff (items_decided h) hw
      | _ => exact iff_of_shape_ne (by simp [shape])
  | .set items, h => fun w hw => by
      cases w with
      | set others =>
          rw [normal, normal, Equals, set.injEq]
          exact sortItems_normalItems_eq_iff (items_decided h.1) h.1 h.2 hw.1
      | _ => exact iff_of_shape_ne (by simp [shape])
  | .object members, h => fun w hw => by
      cases w with
      | object others =>
          rw [normal, normal, Equals, object.injEq]
          exact sortByKey_normalMembers_eq_iff (members_decided h.1) h.1 h.2 hw.1
      | _ => exact iff_of_shape_ne (by simp [shape])
  | .record kind _ _ key members, h => fun w hw => by
      cases w with
      | record kind' _ _ key' members' =>
          rw [normal, normal, Equals, record.injEq, normalItems_eq_iff (items_decided h.1) hw.1,
            normalMembers_eq_iff (members_decided h.2) hw.2]
          simp
      | _ => exact iff_of_shape_ne (by simp [shape])

theorem items_decided : ∀ {items : List Value}, AreProper items → ∀ v ∈ items, v.IsDecided
  | [], _ => by simp
  | _ :: _, h => List.forall_mem_cons.mpr ⟨isDecided h.1, items_decided h.2⟩

theorem members_decided : ∀ {members : List (Value × Value)}, AreProperMembers members →
    ∀ m ∈ members, m.1.IsDecided ∧ m.2.IsDecided
  | [], _ => by simp
  | (_, _) :: _, h => List.forall_mem_cons.mpr
      ⟨⟨isDecided h.1, isDecided h.2.1⟩, members_decided h.2.2⟩

end

/-- Normal forms decide the equality of proper values. -/
theorem normal_eq_iff {v w : Value} (hv : v.IsProper) (hw : w.IsProper) :
    normal v = normal w ↔ v.Equals w :=
  isDecided hv w hw

end Value

end LogicalPlan
