import LogicalPlan.Value.Calendar

/-!
# Reading dates and times

Dates and times are read in the basic and the extended ISO form: `20240229` and `2024-02-29`, the
week dates `2024W094` and `2024-W09-4`, `1230` and `12:30`. Any character may stand between a date
and a time. A text that has the form but names no day or time is refused with the field that is out
of range.
-/

namespace LogicalPlan

/-- Why a text denotes no date or time. -/
inductive CalendarFault where
  | malformed (text : String)
  | year (year : Nat)
  | month
  | day
  | hour
  | minute
  | second
  /-- The distance from universal time, in microseconds, is a day or more. -/
  | offset (microseconds : Int)
  deriving DecidableEq

namespace Calendar

/-- The number written by the first digits of a text, as many as are asked for, and the rest. -/
def digits? (count : Nat) (cs : List Char) : Option (Nat × List Char) :=
  let ds := cs.take count
  if ds.length = count && ds.all Char.isDigit then
    some (ds.foldl (fun n c => 10 * n + (c.toNat - '0'.toNat)) 0, cs.drop count)
  else none

/-- A character that has to come next is dropped. -/
def expect? (c : Char) (cs : List Char) : Option (List Char) :=
  match cs with
  | d :: rest => if d = c then some rest else none
  | [] => none

/-! ## Dates -/

/-- The day of the week on which a year starts, counted from zero for Monday. -/
def firstWeekday (year : Nat) : Nat :=
  (Date.daysBeforeYear year % 7).toNat

/-- The year has 53 weeks: it starts on a Thursday, or on a Wednesday if it is a leap year. -/
def isLongYear (year : Nat) : Bool :=
  firstWeekday year == 3 || (firstWeekday year == 2 && Date.isLeapYear year)

/-- The date of a day of a week, both counted from one. The first week of a year is the one with its
first Thursday. -/
def ofWeek? (year week day : Nat) : Option Date :=
  let weeks := if isLongYear year then 53 else 52
  if year = 0 || week = 0 || weeks < week || day = 0 || 7 < day then none
  else
    let first := firstWeekday year
    let elapsed := (week - 1) * 7 + (day - 1)
    if first ≤ 3 then
      if elapsed < first then some ⟨year - 1, 12, 32 - (first - elapsed)⟩
      else some (Date.ofYearDay year (elapsed - first))
    else some (Date.ofYearDay year (elapsed + 7 - first))

/-- The fields of the date that a text starts with. A week without day stands for its Monday if the
date ends there, i.e. if it takes `extent` characters. -/
def readDate? (extent : Nat) (cs : List Char) : Option Date := do
  let (year, rest) ← digits? 4 cs
  let separated := rest.head? = some '-'
  let skip := fun (cs : List Char) => if separated then expect? '-' cs else some cs
  let rest ← skip rest
  match rest with
  | 'W' :: rest =>
    let (week, rest) ← digits? 2 rest
    if (if separated then 8 else 7) < extent then
      let (day, _) ← digits? 1 (← skip rest)
      ofWeek? year week day
    else ofWeek? year week 1
  | rest =>
    let (month, rest) ← digits? 2 rest
    let (day, _) ← digits? 2 (← skip rest)
    some ⟨year, month, day⟩

/-- The date, if its fields name a day. -/
def checkDate (d : Date) : Except CalendarFault Date :=
  if d.year = 0 || 9999 < d.year then .error (.year d.year)
  else if d.month = 0 || 12 < d.month then .error .month
  else if d.day = 0 || Date.monthLength d.year d.month < d.day then .error .day
  else .ok d

/-! ## Times -/

/-- A fraction of a second in microseconds; digits beyond the sixth are dropped. -/
def readFraction? (cs : List Char) : Option (Nat × List Char) := do
  let count := min 6 cs.length
  let (n, rest) ← digits? count cs
  some (n * Nat.pow 10 (6 - count), rest.dropWhile Char.isDigit)

/-- The units that follow a unit of two digits, at most `count` of them, then a fraction in
microseconds. An ASCII character that ends the text is left over. -/
def readUnits? (separated : Bool) : Nat → List Char → Option (List Nat × Nat × List Char)
  | count, c :: d :: cs =>
    if c = '.' || c = ',' then
      (readFraction? (d :: cs)).map fun (micro, rest) => ([], micro, rest)
    else if separated && c != ':' then none
    else
      let cs := if separated then d :: cs else c :: d :: cs
      match count with
      | 0 => (readFraction? cs).map fun (micro, rest) => ([], micro, rest)
      | count + 1 => do
        let (unit, rest) ← digits? 2 cs
        let (units, micro, rest) ← readUnits? separated count rest
        some (unit :: units, micro, rest)
  | _, cs => if cs.all fun c => c.toNat < 128 then some ([], 0, cs) else none

/-- The hour, minute, second and microsecond that a text starts with, and what is left over. -/
def readClock? (cs : List Char) : Option (TimeOfDay × List Char) := do
  let (hour, rest) ← digits? 2 cs
  let (units, micro, rest) ← readUnits? (rest.head? = some ':') 2 rest
  some (⟨hour, (units[0]?).getD 0, (units[1]?).getD 0, micro, none⟩, rest)

/-- A character that starts the distance from universal time. -/
def isZoneMark (c : Char) : Bool :=
  c = '+' || c = '-' || c = 'Z'

/-- The distance from universal time that the end of a text denotes. Fractions of less than a second
count as no distance. -/
def readZone? (cs : List Char) : Option (Option Int) :=
  match cs with
  | [] => some none
  | ['Z'] => some (some 0)
  | 'Z' :: _ => none
  | sign :: cs =>
    match readClock? cs with
    | some (t, []) =>
      let distance := if t.sinceMidnight < 1000000 then 0 else t.sinceMidnight
      some (some (if sign = '-' then -distance else distance))
    | _ => none

/-- The fields of the time that a text denotes. Only a distance from universal time may hide what is
left over before it. -/
def readTime? (cs : List Char) : Option TimeOfDay := do
  let (clock, zone) := cs.span fun c => !isZoneMark c
  let (t, rest) ← readClock? clock
  if zone.isEmpty && !rest.isEmpty then none
  else some { t with offset := ← readZone? zone }

/-- The time, if its distance from universal time is less than a day. -/
def checkOffset (t : TimeOfDay) : Except CalendarFault TimeOfDay :=
  match t.offset with
  | some offset =>
    if TimeOfDay.microsecondsPerDay ≤ offset.natAbs then .error (.offset offset) else .ok t
  | none => .ok t

/-- The time, if its fields name a time of day. -/
def checkClock (t : TimeOfDay) : Except CalendarFault TimeOfDay :=
  if 23 < t.hour then .error .hour
  else if 59 < t.minute then .error .minute
  else if 59 < t.second then .error .second
  else .ok t

/-! ## Dates with times -/

/-- The number of characters of the date in front of a time. Of a date without separators that names
a week, an even number of digits belongs to the time. -/
def dateExtent? (cs : List Char) : Option Nat :=
  if cs.length < 7 then none
  else if cs.length = 7 then some 7
  else if cs[4]? = some '-' then
    if cs[5]? = some 'W' then
      if cs[8]? = some '-' then
        if cs.length = 9 then none
        else if ((cs[10]?).map Char.isDigit).getD false then some 8
        else some 10
      else some 8
    else some 10
  else if cs[4]? = some 'W' then
    let stop := 7 + ((cs.drop 7).takeWhile Char.isDigit).length
    if stop < 9 then some stop else if stop % 2 = 0 then some 7 else some 8
  else some 8

/-- The fields of the date and the time that a text denotes. A bare date means its midnight. -/
def readInstant? (cs : List Char) : Option (Date × TimeOfDay) := do
  let extent ← dateExtent? cs
  let date ← readDate? extent cs
  match cs.drop extent with
  | [] => some (date, .midnight)
  | _ :: rest => some (date, ← readTime? rest)

/-- A result that has to be there, for a text that was read. -/
def readAs {α : Type} (text : String) (result : Option α) : Except CalendarFault α :=
  match result with
  | some a => .ok a
  | none => .error (.malformed text)

end Calendar

/-- The date that a text denotes. -/
def Date.ofIso (text : String) : Except CalendarFault Date := do
  let size := text.utf8ByteSize
  let fits := size = 7 || size = 8 || size = 10
  let fields ← Calendar.readAs text (if fits then Calendar.readDate? size text.toList else none)
  Calendar.checkDate fields

/-- The time that a text denotes. The mark of a time may come first. -/
def TimeOfDay.ofIso (text : String) : Except CalendarFault TimeOfDay := do
  let cs := match text.toList with
    | 'T' :: cs => cs
    | cs => cs
  let fields ← Calendar.readAs text (Calendar.readTime? cs)
  Calendar.checkClock (← Calendar.checkOffset fields)

/-- The date and the time that a text denotes. -/
def instantOfIso (text : String) : Except CalendarFault (Date × TimeOfDay) := do
  let (date, time) ← Calendar.readAs text (Calendar.readInstant? text.toList)
  let time ← Calendar.checkOffset time
  let date ← Calendar.checkDate date
  .ok (date, ← Calendar.checkClock time)

end LogicalPlan
