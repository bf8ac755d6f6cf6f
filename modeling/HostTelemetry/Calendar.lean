/-!
# Dates, times of day and offsets

The Gregorian calendar of the years 1 to 9999, times of day to the microsecond, offsets from
universal time below a day, and the weeks of a year. Values hold the proof that their fields are
in range; building one from plain numbers names the first field that is not.
-/

set_option autoImplicit false

namespace HostTelemetry

inductive CalendarFault
  | year (n : Nat)
  | month
  | day
  | hour
  | minute
  | second
  | microsecond
  | offset (micros : Int)
  deriving DecidableEq, Repr

def isLeap (year : Nat) : Bool :=
  year % 4 == 0 && (year % 100 != 0 || year % 400 == 0)

def daysInMonth (year month : Nat) : Nat :=
  if month = 2 then (if isLeap year then 29 else 28)
  else if month = 4 ∨ month = 6 ∨ month = 9 ∨ month = 11 then 30
  else 31

def daysInYear (year : Nat) : Nat := if isLeap year then 366 else 365

structure Date where
  year : Nat
  month : Nat
  day : Nat
  year_mem : 1 ≤ year ∧ year ≤ 9999
  month_mem : 1 ≤ month ∧ month ≤ 12
  day_mem : 1 ≤ day ∧ day ≤ daysInMonth year month
  deriving DecidableEq, Repr

namespace Date

def make? (year month day : Nat) : Except CalendarFault Date :=
  if hy : 1 ≤ year ∧ year ≤ 9999 then
    if hm : 1 ≤ month ∧ month ≤ 12 then
      if hd : 1 ≤ day ∧ day ≤ daysInMonth year month then .ok ⟨year, month, day, hy, hm, hd⟩
      else .error .day
    else .error .month
  else .error (.year year)

def firstWeekday (year : Nat) : Nat :=
  let y := year - 1
  (y * 365 + y / 4 - y / 100 + y / 400) % 7

def monthOf (year : Nat) : (months : Nat) → (dayOfYear : Nat) → Nat × Nat
  | 0, d => (12, d + 1)
  | k + 1, d =>
    let m := 12 - k
    if d < daysInMonth year m then (m, d + 1) else monthOf year k (d - daysInMonth year m)

/-- A day counted from the first of January, which is 0; the years next to it are reached too. -/
def ofDayOfYear? (year : Nat) (day : Int) : Option Date :=
  let (y, d) : Nat × Int :=
    if day < 0 then (year - 1, day + daysInYear (year - 1))
    else if (daysInYear year : Int) ≤ day then (year + 1, day - daysInYear year)
    else (year, day)
  let (m, dd) := monthOf y 12 d.toNat
  (make? y m dd).toOption

def weeksIn (year : Nat) : Nat :=
  if firstWeekday year = 3 ∨ (firstWeekday year = 2 ∧ isLeap year) then 53 else 52

/-- A day of a week of a year. The first week is the one with the first Thursday. -/
def ofWeek? (year week weekday : Nat) : Option Date :=
  if 1 ≤ year ∧ year ≤ 9999 ∧ 1 ≤ week ∧ week ≤ weeksIn year ∧ 1 ≤ weekday ∧ weekday ≤ 7 then
    let w := firstWeekday year
    let monday : Int := if w ≤ 3 then -(w : Int) else 7 - w
    ofDayOfYear? year (monday + (week - 1) * 7 + (weekday - 1))
  else none

end Date

structure TimeOfDay where
  hour : Nat
  minute : Nat
  second : Nat
  micro : Nat
  hour_lt : hour < 24
  minute_lt : minute < 60
  second_lt : second < 60
  micro_lt : micro < 1000000
  deriving DecidableEq, Repr

namespace TimeOfDay

def make? (hour minute second micro : Nat) : Except CalendarFault TimeOfDay :=
  if h : hour < 24 then
    if m : minute < 60 then
      if s : second < 60 then
        if u : micro < 1000000 then .ok ⟨hour, minute, second, micro, h, m, s, u⟩
        else .error .microsecond
      else .error .second
    else .error .minute
  else .error .hour

end TimeOfDay

abbrev dayMicros : Nat := 86400000000

/-- A distance from universal time, in microseconds. -/
structure Offset where
  micros : Int
  bounded : -(dayMicros : Int) < micros ∧ micros < dayMicros
  deriving DecidableEq, Repr

namespace Offset

def make? (micros : Int) : Except CalendarFault Offset :=
  if h : -(dayMicros : Int) < micros ∧ micros < dayMicros then .ok ⟨micros, h⟩
  else .error (.offset micros)

def utc : Offset := ⟨0, by decide⟩

end Offset

end HostTelemetry
