import FormulaLine.Number.Binary

namespace FormulaLine
namespace Log

/-!
Instants, counted in microseconds from the beginning of 1970, and how they are
written: date and time of day in UTC, with six decimals of a second unless these
are all zero.
-/

/-- A day of the Gregorian calendar, which is extended to all years. -/
structure Date where
  year : Int
  month : Nat
  day : Nat
  deriving DecidableEq

namespace Date

/-- The days of 400 years, after which the calendar repeats. -/
def daysPerCycle : Nat := 146097

/-- The days from the first of March of the year 0 to the beginning of 1970. -/
def daysBeforeEpoch : Nat := 719468

/-- The year within a cycle, counted from March, of a day of the cycle. -/
def yearOfCycle (day : Nat) : Nat :=
  (day - day / 1460 + day / 36524 - day / 146096) / 365

/-- The first day of a year of a cycle. -/
def firstDay (year : Nat) : Nat :=
  365 * year + year / 4 - year / 100

/-- The date of a day, counted from the beginning of 1970.  Years are counted from
March, so that the leap day is the last of its year and the months before it have
lengths that repeat every five months, 153 days. -/
def ofDays (days : Int) : Date :=
  let shifted := days + daysBeforeEpoch
  let cycle := shifted / (daysPerCycle : Int)
  let day := (shifted % (daysPerCycle : Int)).toNat
  let year := yearOfCycle day
  let dayOfYear := day - firstDay year
  let monthFromMarch := (5 * dayOfYear + 2) / 153
  let month := if monthFromMarch < 10 then monthFromMarch + 3 else monthFromMarch - 9
  { year := cycle * 400 + year + (if month ≤ 2 then 1 else 0)
    month := month
    day := dayOfYear - (153 * monthFromMarch + 2) / 5 + 1 }

end Date

/-- A point in time. -/
structure Instant where
  microseconds : Int
  deriving DecidableEq

namespace Instant

def microsecondsPerSecond : Nat := 1000000

def secondsPerDay : Nat := 86400

/-- A nearest integer, the even one if two are equally near. -/
def nearest (q : Rat) : Int :=
  let magnitude : Int := Binary.divNearest q.num.natAbs q.den
  if q.num < 0 then -magnitude else magnitude

/-- The significant bits of a number of seconds. -/
def secondsPrecision : Nat := 53

/-- The instant a number of seconds after the beginning of 1970.  The number is
kept in binary, its whole and its fractional part are converted one by one, and
the microseconds are rounded to nearest. -/
def ofSeconds (seconds : Rat) : Instant :=
  let kept := Binary.roundTo secondsPrecision seconds
  let whole : Int := if kept < 0 then -(-kept).floor else kept.floor
  let fraction := Binary.roundTo secondsPrecision ((kept - whole) * microsecondsPerSecond)
  ⟨whole * microsecondsPerSecond + nearest fraction⟩

/-- Whole seconds, rounded down. -/
def seconds (t : Instant) : Int :=
  t.microseconds / (microsecondsPerSecond : Int)

/-- The date of the instant. -/
def date (t : Instant) : Date :=
  Date.ofDays (t.seconds / (secondsPerDay : Int))

/-- The instant one day before. -/
def dayBefore (t : Instant) : Instant :=
  ⟨t.microseconds - (secondsPerDay * microsecondsPerSecond : Nat)⟩

/-- The instant has no written form. -/
inductive Fault where
  | yearOutOfRange (year : Int)

def Fault.message : Fault → String
  | .yearOutOfRange year => s!"year {year} is out of range"

/-- Years have four digits, and the year 0 does not exist. -/
def isWritableYear (year : Int) : Bool :=
  1 ≤ year && year ≤ 9999

/-- The first year out of range among those of the instant and of the day before
it, which is looked at for a change of the clock. -/
def fault? (t : Instant) : Option Fault :=
  ([t.date.year, t.dayBefore.date.year].find? fun year => !isWritableYear year).map .yearOutOfRange

/-- A number with at least the given count of digits. -/
def padded (width n : Nat) : List Char :=
  let digits := (toString n).toList
  List.replicate (width - digits.length) '0' ++ digits

/-- The time of day in whole seconds. -/
def clock (second : Nat) : List Char :=
  padded 2 (second / 3600) ++ ':' :: padded 2 (second / 60 % 60) ++ ':' :: padded 2 (second % 60)

/-- The written instant. -/
def text (t : Instant) : Except Fault (List Char) :=
  match t.fault? with
  | some fault => .error fault
  | none =>
    let fraction := (t.microseconds % (microsecondsPerSecond : Int)).toNat
    .ok (padded 4 t.date.year.toNat ++ '-' :: padded 2 t.date.month ++ '-' :: padded 2 t.date.day ++
      'T' :: clock (t.seconds % (secondsPerDay : Int)).toNat ++
      if fraction = 0 then [] else '.' :: padded 6 fraction)

end Instant
end Log
end FormulaLine
