/-!
# Calendar dates and times of day

Dates and times are written in the extended ISO form, e.g. `2024-02-29` and `12:30:00`. A time shows
its fraction with six digits when it has one, and its distance from universal time when it is known.

Two instants with known distances count as the same when they agree in universal time. Two times of
day do so too, but there the distances are first rounded down to whole seconds. The representatives
are the ones that `universalInstant` and `comparable` yield.
-/

namespace LogicalPlan

/-- A decimal numeral with at least the given number of digits. -/
def paddedDigits (width n : Nat) : String :=
  let ds := toString n
  String.ofList (List.replicate (width - ds.length) '0') ++ ds

/-- A calendar date. -/
structure Date where
  year : Nat
  month : Nat
  day : Nat
  deriving DecidableEq, Inhabited

/-- A time of day, with the distance from universal time in microseconds if it is known. -/
structure TimeOfDay where
  hour : Nat
  minute : Nat
  second : Nat
  microsecond : Nat
  offset : Option Int
  deriving DecidableEq, Inhabited

namespace Date

/-- The date in ISO form. -/
def toIso (d : Date) : String :=
  paddedDigits 4 d.year ++ "-" ++ paddedDigits 2 d.month ++ "-" ++ paddedDigits 2 d.day

/-- The fields of the date as an argument list. -/
def fields (d : Date) : List Nat :=
  [d.year, d.month, d.day]

/-- The year has a leap day. -/
def isLeapYear (year : Nat) : Bool :=
  year % 4 == 0 && (year % 100 != 0 || year % 400 == 0)

/-- The lengths of the months of a year. -/
def monthLengths (year : Nat) : List Nat :=
  [31, if isLeapYear year then 29 else 28, 31, 30, 31, 30, 31, 31, 30, 31, 30, 31]

/-- The number of days of a month; months are counted from one. -/
def monthLength (year month : Nat) : Nat :=
  ((monthLengths year)[month - 1]?).getD 0

/-- The number of days before a year, counted from the start of the year one. It is negative for the
year zero, where the normal forms of some dates of the year one lie. -/
def daysBeforeYear (year : Nat) : Int :=
  let y : Int := year - 1
  y * 365 + Int.fdiv y 4 - Int.fdiv y 100 + Int.fdiv y 400

/-- The date of a day that is counted from zero at the start of a month, given the lengths of that
month and of the later ones. -/
def ofMonthDay (year month day : Nat) : List Nat → Date
  | [] => ⟨year, month, day + 1⟩
  | length :: later =>
    if day < length then ⟨year, month, day + 1⟩
    else ofMonthDay year (month + 1) (day - length) later

/-- The date of a day of a year, counted from zero. What exceeds the year is counted into the year
after it. -/
def ofYearDay (year day : Nat) : Date :=
  let length := if isLeapYear year then 366 else 365
  if day < length then ofMonthDay year 1 day (monthLengths year)
  else ofMonthDay (year + 1) 1 (day - length) (monthLengths (year + 1))

/-- The number of the day, counted from one at the first day of the year one. -/
def ordinal (d : Date) : Int :=
  daysBeforeYear d.year +
    (((monthLengths d.year).take (d.month - 1)).foldl (· + ·) 0 + d.day : Nat)

/-- The next day. -/
def next (d : Date) : Date :=
  if d.day < monthLength d.year d.month then { d with day := d.day + 1 }
  else if d.month < 12 then ⟨d.year, d.month + 1, 1⟩
  else ⟨d.year + 1, 1, 1⟩

/-- The day before. -/
def previous (d : Date) : Date :=
  if 1 < d.day then { d with day := d.day - 1 }
  else if 1 < d.month then ⟨d.year, d.month - 1, monthLength d.year (d.month - 1)⟩
  else ⟨d.year - 1, 12, 31⟩

/-- The date a number of days later; negative numbers lead back. Distances from universal time never
exceed a day. -/
def shift (d : Date) (days : Int) : Date :=
  if 0 < days then d.next else if days < 0 then d.previous else d

end Date

namespace TimeOfDay

/-- The number of microseconds of a day. -/
def microsecondsPerDay : Int :=
  86400000000

/-- The start of the day. -/
def midnight : TimeOfDay :=
  ⟨0, 0, 0, 0, none⟩

/-- A distance from universal time, e.g. `+02:00`. -/
def offsetIso (microseconds : Int) : String :=
  let sign := if microseconds < 0 then "-" else "+"
  let n := microseconds.natAbs / 1000000
  let micro := microseconds.natAbs % 1000000
  let seconds := if n % 60 = 0 ∧ micro = 0 then "" else ":" ++ paddedDigits 2 (n % 60)
  let fraction := if micro = 0 then "" else "." ++ paddedDigits 6 micro
  sign ++ paddedDigits 2 (n / 3600) ++ ":" ++ paddedDigits 2 (n / 60 % 60) ++ seconds ++ fraction

/-- The time in ISO form. -/
def toIso (t : TimeOfDay) : String :=
  let fraction := if t.microsecond = 0 then "" else "." ++ paddedDigits 6 t.microsecond
  paddedDigits 2 t.hour ++ ":" ++ paddedDigits 2 t.minute ++ ":" ++ paddedDigits 2 t.second
    ++ fraction ++ (t.offset.map offsetIso).getD ""

/-- The fields of the time as an argument list without trailing zero seconds. -/
def fields (t : TimeOfDay) : List Nat :=
  [t.hour, t.minute]
    ++ (if t.second = 0 ∧ t.microsecond = 0 then [] else [t.second])
    ++ (if t.microsecond = 0 then [] else [t.microsecond])

/-- The microseconds since the start of the day. -/
def sinceMidnight (t : TimeOfDay) : Int :=
  (((t.hour * 60 + t.minute) * 60 + t.second) * 1000000 + t.microsecond : Nat)

/-- The time at a number of microseconds after the start of the day. -/
def ofMicroseconds (n : Nat) (offset : Option Int) : TimeOfDay :=
  ⟨n / 3600000000, n / 60000000 % 60, n / 1000000 % 60, n % 1000000, offset⟩

/-- The same time in universal time. Where that is another day, the distance is a whole day. A time
with unknown distance stays as it is. -/
def universal (t : TimeOfDay) : TimeOfDay :=
  match t.offset with
  | none => t
  | some offset =>
    let total := t.sinceMidnight - offset
    let days := Int.fdiv total microsecondsPerDay
    ofMicroseconds (Int.fmod total microsecondsPerDay).toNat (some (-days * microsecondsPerDay))

/-- The time in universal time by its distance in whole seconds, which represents all times of day
that count as the same. -/
def comparable (t : TimeOfDay) : TimeOfDay :=
  { t with offset := t.offset.map fun offset => Int.fdiv offset 1000000 * 1000000 }.universal

/-- The microseconds from the start of the day in universal time, if the distance is known. -/
def universalMicroseconds? (t : TimeOfDay) : Option Int :=
  t.offset.map fun offset => t.sinceMidnight - offset

/-- The same date and time in universal time. -/
def universalInstant (d : Date) (t : TimeOfDay) : Date × TimeOfDay :=
  let u := t.universal
  match u.offset with
  | none => (d, u)
  | some offset => (d.shift (-offset), { u with offset := some 0 })

end TimeOfDay

end LogicalPlan
