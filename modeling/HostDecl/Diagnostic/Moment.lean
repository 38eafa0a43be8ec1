/-!
# Moments

A moment is a date and a time of day to the microsecond, without a time zone. It is written as
`2024-01-02T03:04:05.678901`, without a fraction where the microseconds are zero.
-/

namespace HostDecl

/-- A date. -/
structure Date where
  /-- The year. -/
  year : Nat
  /-- The month. -/
  month : Nat
  /-- The day of the month. -/
  day : Nat
  deriving DecidableEq, Repr

/-- A time of day. -/
structure DayTime where
  /-- The hour. -/
  hour : Nat
  /-- The minute. -/
  minute : Nat
  /-- The second. -/
  second : Nat
  /-- The microsecond. -/
  microsecond : Nat
  deriving DecidableEq, Repr

/-- A date and a time of day. -/
structure Moment where
  /-- The date. -/
  date : Date
  /-- The time of day. -/
  time : DayTime
  deriving DecidableEq, Repr

/-- A number with zeros in front, at least `width` digits long. -/
def zeroPadded (width n : Nat) : String :=
  let digits := Nat.toDigits 10 n
  String.ofList (List.replicate (width - digits.length) '0' ++ digits)

namespace Moment

/-- The text of a moment. -/
def text (m : Moment) : String :=
  zeroPadded 4 m.date.year ++ "-" ++ zeroPadded 2 m.date.month ++ "-" ++ zeroPadded 2 m.date.day ++
    "T" ++ zeroPadded 2 m.time.hour ++ ":" ++ zeroPadded 2 m.time.minute ++ ":" ++
    zeroPadded 2 m.time.second ++
    if m.time.microsecond = 0 then "" else "." ++ zeroPadded 6 m.time.microsecond

end Moment

end HostDecl
