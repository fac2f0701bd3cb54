import Mathlib.Algebra.BigOperators.Group.List.Basic
import Mathlib.Tactic.Ring
import LogicalPlan.Value.Calendar

/-!
# Calendar arithmetic

Neighbouring days have neighbouring numbers, so the universal time of an instant stands for the same
number of microseconds as the instant itself.
-/

namespace LogicalPlan

namespace Date

/-- The fields name a day of the calendar. -/
def IsValid (d : Date) : Prop :=
  1 ≤ d.year ∧ 1 ≤ d.month ∧ d.month ≤ 12 ∧ 1 ≤ d.day ∧ d.day ≤ monthLength d.year d.month

/-- The number of days of the months before a month. -/
def daysBeforeMonth (year month : ℕ) : ℕ :=
  ((monthLengths year).take (month - 1)).sum

theorem ordinal_eq (d : Date) :
    d.ordinal = daysBeforeYear d.year + (daysBeforeMonth d.year d.month + d.day : ℕ) := by
  rw [ordinal, daysBeforeMonth, List.sum_eq_foldl]

theorem daysBeforeMonth_succ (year : ℕ) {month : ℕ} (hlow : 1 ≤ month) (hhigh : month ≤ 12) :
    daysBeforeMonth year (month + 1) = daysBeforeMonth year month + monthLength year month := by
  have index : month - 1 < (monthLengths year).length := by
    simp only [monthLengths, List.length_cons, List.length_nil]
    omega
  rw [daysBeforeMonth, daysBeforeMonth, monthLength, Nat.add_sub_cancel,
    List.getElem?_eq_getElem index, Option.getD_some, ← List.sum_take_succ _ _ index,
    Nat.sub_add_cancel hlow]

/-- A year has as many days as its months. -/
theorem daysBeforeYear_succ (year : ℕ) :
    daysBeforeYear (year + 1) = daysBeforeYear year + daysBeforeMonth year 13 := by
  have months : daysBeforeMonth year 13 = if isLeapYear year then 366 else 365 := by
    unfold daysBeforeMonth monthLengths
    cases isLeapYear year <;> rfl
  have leap : isLeapYear year = true ↔ year % 4 = 0 ∧ (year % 100 ≠ 0 ∨ year % 400 = 0) := by
    simp [isLeapYear]
  rw [months]
  unfold daysBeforeYear
  simp only [Int.fdiv_eq_ediv_of_nonneg _ (show (0 : ℤ) ≤ 4 by decide),
    Int.fdiv_eq_ediv_of_nonneg _ (show (0 : ℤ) ≤ 100 by decide),
    Int.fdiv_eq_ediv_of_nonneg _ (show (0 : ℤ) ≤ 400 by decide)]
  split
  case isTrue h =>
    have := leap.mp h
    push_cast
    omega
  case isFalse h =>
    have := mt leap.mpr h
    push_cast
    omega

/-- The next day has the next number. -/
theorem ordinal_next {d : Date} (h : d.IsValid) : d.next.ordinal = d.ordinal + 1 := by
  obtain ⟨-, hlow, hhigh, -, hday⟩ := h
  unfold next
  split_ifs with hinside hmonth
  · rw [ordinal_eq, ordinal_eq]
    push_cast
    ring
  · have step := daysBeforeMonth_succ d.year hlow hhigh
    rw [ordinal_eq, ordinal_eq, step]
    push_cast
    omega
  · have last : d.month = 12 := by omega
    have step := daysBeforeMonth_succ d.year hlow hhigh
    rw [last] at step hday hinside
    rw [ordinal_eq, ordinal_eq, daysBeforeYear_succ, step, last,
      show daysBeforeMonth (d.year + 1) 1 = 0 from rfl]
    push_cast
    omega

/-- The day before has the number before. -/
theorem ordinal_previous {d : Date} (h : d.IsValid) : d.previous.ordinal = d.ordinal - 1 := by
  obtain ⟨hyear, hlow, hhigh, hday, -⟩ := h
  unfold previous
  split_ifs with hinside hmonth
  · rw [ordinal_eq, ordinal_eq]
    push_cast
    omega
  · have step := daysBeforeMonth_succ d.year (show 1 ≤ d.month - 1 by omega) (by omega)
    rw [Nat.sub_add_cancel hlow] at step
    rw [ordinal_eq, ordinal_eq, step]
    push_cast
    omega
  · have first : d.month = 1 := by omega
    have step := daysBeforeMonth_succ (d.year - 1) (show 1 ≤ 12 by decide) le_rfl
    have years := daysBeforeYear_succ (d.year - 1)
    rw [Nat.sub_add_cancel hyear, step] at years
    have december : monthLength (d.year - 1) 12 = 31 := rfl
    rw [ordinal_eq, ordinal_eq, first, years, december,
      show daysBeforeMonth d.year 1 = 0 from rfl]
    push_cast
    omega

end Date

namespace TimeOfDay

/-- The fields name a time of day, and the distance from universal time is less than a day. -/
def IsValid (t : TimeOfDay) : Prop :=
  t.hour < 24 ∧ t.minute < 60 ∧ t.second < 60 ∧ t.microsecond < 1000000 ∧
    ∀ offset ∈ t.offset, offset.natAbs < 86400000000

/-- The distance from universal time is a number of whole seconds, if it is known. -/
def HasWholeOffset (t : TimeOfDay) : Prop :=
  ∀ offset ∈ t.offset, 1000000 ∣ offset

theorem sinceMidnight_ofMicroseconds (n : ℕ) (offset : Option ℤ) :
    (ofMicroseconds n offset).sinceMidnight = n := by
  unfold ofMicroseconds sinceMidnight
  dsimp only
  omega

/-- The universal time of a time stands for the same duration. -/
theorem universalMicroseconds?_universal (t : TimeOfDay) :
    t.universal.universalMicroseconds? = t.universalMicroseconds? := by
  unfold universal
  split
  case h_1 => rfl
  case h_2 offset hoffset =>
    have day : (0 : ℤ) < microsecondsPerDay := by decide
    have whole := Int.fmod_add_mul_fdiv (t.sinceMidnight - offset) microsecondsPerDay
    have nonneg := Int.fmod_nonneg_of_pos (t.sinceMidnight - offset) day
    dsimp only
    rw [universalMicroseconds?, universalMicroseconds?, hoffset, Option.map_some,
      sinceMidnight_ofMicroseconds]
    simp only [ofMicroseconds, Option.map_some, Option.some.injEq]
    rw [Int.toNat_of_nonneg nonneg, neg_mul, sub_neg_eq_add, mul_comm]
    exact whole

/-- Distances in whole seconds are compared exactly. -/
theorem comparable_eq {t : TimeOfDay} (h : t.HasWholeOffset) : t.comparable = t.universal := by
  unfold comparable
  cases hoffset : t.offset with
  | none =>
      congr 1
      cases t
      exact congrArg _ hoffset.symm
  | some offset =>
      have exact : Int.fdiv offset 1000000 * 1000000 = offset :=
        Int.fdiv_mul_cancel (h offset hoffset)
      congr 1
      cases t
      rw [Option.map_some, exact]
      exact congrArg _ hoffset.symm

/-- Universal time is at most one day off. -/
theorem ordinal_shift {d : Date} (hd : d.IsValid) {days : ℤ} (hlow : -1 ≤ days) (hhigh : days ≤ 1) :
    (d.shift (days * microsecondsPerDay)).ordinal = d.ordinal + days := by
  unfold Date.shift microsecondsPerDay
  split_ifs with hnext hprevious
  · rw [Date.ordinal_next hd]
    omega
  · rw [Date.ordinal_previous hd]
    omega
  · omega

/-- The date and time in universal time stand for the same number of microseconds. -/
theorem universalInstant_microseconds {d : Date} {t : TimeOfDay} (hd : d.IsValid) (ht : t.IsValid) :
    (t.universalInstant d).2.universalMicroseconds?.map
        ((t.universalInstant d).1.ordinal * microsecondsPerDay + ·) =
      t.universalMicroseconds?.map (d.ordinal * microsecondsPerDay + ·) := by
  obtain ⟨hhour, hminute, hsecond, hmicrosecond, hoffset⟩ := ht
  unfold universalInstant universal
  cases ho : t.offset with
  | none => simp [universalMicroseconds?, ho]
  | some offset =>
      have distance := hoffset offset ho
      have day : (0 : ℤ) < microsecondsPerDay := by decide
      have whole := Int.fmod_add_mul_fdiv (t.sinceMidnight - offset) microsecondsPerDay
      have nonneg := Int.fmod_nonneg_of_pos (t.sinceMidnight - offset) day
      have below := Int.fmod_lt_of_pos (t.sinceMidnight - offset) day
      have since : 0 ≤ t.sinceMidnight ∧ t.sinceMidnight < microsecondsPerDay := by
        unfold sinceMidnight microsecondsPerDay
        omega
      simp only [universalMicroseconds?, ofMicroseconds, ho, Option.map_some, Option.some.injEq,
        neg_mul, neg_neg]
      generalize Int.fdiv (t.sinceMidnight - offset) microsecondsPerDay = days at whole ⊢
      generalize Int.fmod (t.sinceMidnight - offset) microsecondsPerDay = rest at *
      have range : -1 ≤ days ∧ days ≤ 1 := by
        unfold microsecondsPerDay at *
        omega
      have clock : sinceMidnight ⟨rest.toNat / 3600000000, rest.toNat / 60000000 % 60,
          rest.toNat / 1000000 % 60, rest.toNat % 1000000, some 0⟩ = rest := by
        have := sinceMidnight_ofMicroseconds rest.toNat (some 0)
        rwa [Int.toNat_of_nonneg nonneg] at this
      rw [clock, ordinal_shift hd range.1 range.2, add_mul, mul_comm days]
      omega

end TimeOfDay

end LogicalPlan
