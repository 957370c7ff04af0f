import AngularUplift.Text.Basic

/-!
# Days and moments

Days of the calendar and moments of a day, as settings can hold them. Both have two written forms: a plain one,
and one inside lists and mappings, which names the parts.

## Main definitions

* `Day`, `Day.make`: a day, which exists.
* `Moment`, `Moment.make`: a time of a day, with the distance from universal time where it is known.
* `CalendarFault`: why there is no such day or moment.
-/

namespace AngularUplift

/-- Why there is no such day or moment. -/
inductive CalendarFault where
  /-- There is no year zero. -/
  | year (value : Nat)
  /-- There are twelve months. -/
  | month
  /-- The month has no such day. -/
  | day
  /-- A day has hours from 0 to 23. -/
  | hour
  /-- An hour has minutes from 0 to 59. -/
  | minute
  /-- A minute has seconds from 0 to 59. -/
  | second
  /-- The distance from universal time, in minutes, is a day or more. -/
  | offset (minutes : Int)
deriving DecidableEq, Repr

/-- A number with at least `width` digits. -/
def padded (width n : Nat) : Text :=
  let digits := Text.ofNat n
  List.replicate (width - digits.length) '0' ++ digits

/-- A span of time, given in minutes, by its parts: whole days, which may be negative, and seconds. -/
def spanForm (minutes : Int) : Text :=
  let days := Int.fdiv minutes 1440
  let seconds := 60 * Int.fmod minutes 1440
  let parts := (if days = 0 then [] else [txt "days=" ++ Text.ofInt days]) ++
    (if seconds = 0 then [] else [txt "seconds=" ++ Text.ofInt seconds])
  txt "datetime.timedelta(" ++ (if parts.isEmpty then ['0'] else Text.join (txt ", ") parts) ++ [')']

/-- The words for a fault. -/
def CalendarFault.message : CalendarFault → Text
  | .year value => txt "year " ++ Text.ofNat value ++ txt " is out of range"
  | .month => txt "month must be in 1..12"
  | .day => txt "day is out of range for month"
  | .hour => txt "hour must be in 0..23"
  | .minute => txt "minute must be in 0..59"
  | .second => txt "second must be in 0..59"
  | .offset minutes =>
    txt "offset must be a timedelta strictly between -timedelta(hours=24) and timedelta(hours=24), not " ++
      spanForm minutes ++ ['.']

/-! ### Days -/

/-- A day of the calendar. -/
structure Day where
  /-- The year. -/
  year : Nat
  /-- The month, from 1 on. -/
  month : Nat
  /-- The day of the month, from 1 on. -/
  day : Nat
deriving DecidableEq, Repr

/-- Whether a year has a day more. -/
def isLeapYear (year : Nat) : Bool := year % 4 == 0 && (year % 100 != 0 || year % 400 == 0)

/-- The number of days of a month. -/
def daysOfMonth (year month : Nat) : Nat :=
  if month = 2 then (if isLeapYear year then 29 else 28)
  else if month = 4 ∨ month = 6 ∨ month = 9 ∨ month = 11 then 30
  else 31

namespace Day

/-- The day with the given parts, if it exists. -/
def make (year month day : Nat) : Except CalendarFault Day :=
  if year = 0 then .error (.year year)
  else if month = 0 ∨ 12 < month then .error .month
  else if day = 0 ∨ daysOfMonth year month < day then .error .day
  else .ok ⟨year, month, day⟩

/-- The plain form of a day. -/
def display (d : Day) : Text := padded 4 d.year ++ ['-'] ++ padded 2 d.month ++ ['-'] ++ padded 2 d.day

/-- The parts of a day. -/
def parts (d : Day) : List Text := [Text.ofNat d.year, Text.ofNat d.month, Text.ofNat d.day]

/-- The form of a day inside lists and mappings. -/
def displayInner (d : Day) : Text := txt "datetime.date(" ++ Text.join (txt ", ") d.parts ++ [')']

end Day

/-! ### Moments -/

/-- A time of a day. -/
structure Moment where
  /-- The day. -/
  day : Day
  /-- The hour. -/
  hour : Nat
  /-- The minute. -/
  minute : Nat
  /-- The second. -/
  second : Nat
  /-- The millionths of a second. -/
  micro : Nat
  /-- The minutes by which the time is ahead of universal time, if that is known. -/
  offset : Option Int
deriving DecidableEq, Repr

namespace Moment

/-- The moment with the given parts, if it exists. -/
def make (year month day hour minute second micro : Nat) (offset : Option Int) :
    Except CalendarFault Moment := do
  match offset with
  | some minutes => if 1440 ≤ minutes.natAbs then throw (.offset minutes)
  | none => pure ()
  let day ← Day.make year month day
  if 23 < hour then throw .hour
  if 59 < minute then throw .minute
  if 59 < second then throw .second
  return ⟨day, hour, minute, second, micro, offset⟩

/-- The plain form of a distance from universal time. -/
def offsetForm (minutes : Int) : Text :=
  [if minutes < 0 then '-' else '+'] ++ padded 2 (minutes.natAbs / 60) ++ [':'] ++
    padded 2 (minutes.natAbs % 60)

/-- The plain form of a moment. -/
def display (m : Moment) : Text :=
  m.day.display ++ [' '] ++ padded 2 m.hour ++ [':'] ++ padded 2 m.minute ++ [':'] ++ padded 2 m.second ++
    (if m.micro = 0 then [] else '.' :: padded 6 m.micro) ++
    ((m.offset.map offsetForm).getD [])

/-- The form of a distance from universal time inside lists and mappings. -/
def zoneForm (minutes : Int) : Text :=
  if minutes = 0 then txt "tzinfo=datetime.timezone.utc"
  else txt "tzinfo=datetime.timezone(" ++ spanForm minutes ++ [')']

/-- The form of a moment inside lists and mappings. Seconds are left out when there are none. -/
def displayInner (m : Moment) : Text :=
  let seconds :=
    if m.micro ≠ 0 then [Text.ofNat m.second, Text.ofNat m.micro]
    else if m.second ≠ 0 then [Text.ofNat m.second]
    else []
  let parts := m.day.parts ++ [Text.ofNat m.hour, Text.ofNat m.minute] ++ seconds ++
    (m.offset.map zoneForm).toList
  txt "datetime.datetime(" ++ Text.join (txt ", ") parts ++ [')']

end Moment

end AngularUplift
