import DiffGate.Text

/-!
# Calendar dates and moments

A configuration value such as `2024-01-15` is a date, not a text. Dates follow the Gregorian
calendar from year 1 on; a moment adds a time of day and, possibly, the offset of its clock from
universal time. Both are shown in the international order, largest unit first.
-/

set_option autoImplicit false

namespace DiffGate

/-- A day of the calendar. -/
structure Date where
  year : Nat
  month : Nat
  day : Nat
  deriving DecidableEq

/-- A time of day on a date, its clock `offset` minutes ahead of universal time if known. -/
structure Moment where
  date : Date
  hour : Nat
  minute : Nat
  second : Nat
  microsecond : Nat
  offset : Option Int
  deriving DecidableEq

namespace Date

/-- Leap years of the Gregorian calendar. -/
def isLeapYear (year : Nat) : Bool := year % 4 == 0 && (year % 100 != 0 || year % 400 == 0)

/-- How many days a month has. -/
def daysIn (year month : Nat) : Nat :=
  if month = 2 then if isLeapYear year then 29 else 28
  else if month = 4 ∨ month = 6 ∨ month = 9 ∨ month = 11 then 30
  else 31

/-- Whether the day exists. -/
def isValid (d : Date) : Bool :=
  1 ≤ d.year && 1 ≤ d.month && d.month ≤ 12 && 1 ≤ d.day && d.day ≤ daysIn d.year d.month

/-- Two digits. -/
def twoDigits (n : Nat) : Text := Text.padLeft '0' 2 (Text.ofNat n)

/-- Year, month and day with hyphens between them. -/
def text (d : Date) : Text :=
  Text.padLeft '0' 4 (Text.ofNat d.year) ++ '-' :: twoDigits d.month ++ '-' :: twoDigits d.day

end Date

namespace Moment

/-- Whether the day and the time of day exist and the offset is less than a day. -/
def isValid (m : Moment) : Bool :=
  m.date.isValid && m.hour < 24 && m.minute < 60 && m.second < 60 &&
    (match m.offset with
      | none => true
      | some minutes => minutes.natAbs < 1440)

/-- An offset with its sign. -/
def offsetText (minutes : Int) : Text :=
  (if minutes < 0 then '-' else '+') ::
    (Date.twoDigits (minutes.natAbs / 60) ++ ':' :: Date.twoDigits (minutes.natAbs % 60))

/-- The microseconds after the point; none are shown when there are none. -/
def fractionText (microsecond : Nat) : Text :=
  if microsecond = 0 then [] else '.' :: Text.padLeft '0' 6 (Text.ofNat microsecond)

/-- The date and the time of day with `sep` between them. -/
def textWith (sep : Char) (m : Moment) : Text :=
  m.date.text ++ sep :: Date.twoDigits m.hour ++ ':' :: Date.twoDigits m.minute ++
    ':' :: Date.twoDigits m.second ++ fractionText m.microsecond ++
    (match m.offset with
      | none => []
      | some minutes => offsetText minutes)

/-- The date and the time of day with a space between them. -/
def text (m : Moment) : Text := textWith ' ' m

end Moment

end DiffGate
