import Fabric.Decimal.Binary
import Fabric.Text.Numeral

/-! Instants are whole milliseconds from the start of 1970 in universal time. They are written as
calendar date and time of day, the milliseconds only when they are not zero. A clock that is read to the
nanosecond is taken at whole milliseconds: what lies between two instants is a number of these, too. -/

namespace Fabric

abbrev Instant := Int

namespace Instant

open Fabric.Text

structure Date where
  year : Int
  month : Nat
  day : Nat
deriving DecidableEq, Repr

def dayLength : Int := 86400000

/-- The date `days` after the first of January 1970. Years are counted from March, so that the
day a leap year adds comes last; 400 years have 146097 days. -/
def dateOfDays (days : Int) : Date :=
  let z := days + 719468
  let era := z / 146097
  let doe := (z % 146097).toNat
  let yoe := (doe - doe / 1460 + doe / 36524 - doe / 146096) / 365
  let doy := doe - (365 * yoe + yoe / 4 - yoe / 100)
  let mp := (5 * doy + 2) / 153
  let month := if mp < 10 then mp + 3 else mp - 9
  let year := era * 400 + yoe + (if month ≤ 2 then 1 else 0)
  ⟨year, month, doy - (153 * mp + 2) / 5 + 1⟩

/-- Four digits; a sign in front of a year before 0 or after 9999. -/
def yearText (y : Int) : String :=
  if 0 ≤ y ∧ y ≤ 9999 then padded 4 y.toNat
  else (if y < 0 then "-" else "+") ++ padded 4 y.natAbs

def dateText (t : Instant) : String :=
  let d := dateOfDays (t / dayLength)
  yearText d.year ++ "-" ++ padded 2 d.month ++ "-" ++ padded 2 d.day

def clockText (t : Instant) : String :=
  let s := ((t % dayLength) / 1000).toNat
  padded 2 (s / 3600) ++ ":" ++ padded 2 (s / 60 % 60) ++ ":" ++ padded 2 (s % 60)

/-- For example `2023-11-14T22:13:20.125Z`. -/
def text (t : Instant) : String :=
  let ms := (t % 1000).toNat
  dateText t ++ "T" ++ clockText t ++ (if ms = 0 then "" else "." ++ padded 3 ms) ++ "Z"

/-- Date and time to the second, as tables show it. -/
def tableText (t : Instant) : String := dateText t ++ " " ++ clockText t

/-- The first instant of the year -262143. -/
def earliest : Int := -8334601228800000

/-- The last millisecond of the year 262142. -/
def latest : Int := 8210266876799999

/-- A float cut to a 64-bit integer: towards zero, clamped, and 0 for no number. -/
def wholePart (x : Float) : Int :=
  match Decimal.magnitude x with
  | .nan => 0
  | .infinite => if Decimal.isNegative x then -(maxI64 + 1 : Int) else maxI64
  | .finite m q =>
    let n : Int := m * Nat.pow 2 q.toNat / Nat.pow 2 (-q).toNat
    if Decimal.isNegative x then max (-n) (-(maxI64 + 1 : Int)) else min n maxI64

/-- The instant `secs` seconds after the epoch. One that the calendar cannot show counts as the
epoch. -/
def ofSeconds (secs : Float) : Instant :=
  let ms := wholePart (secs * 1000)
  if earliest ≤ ms ∧ ms ≤ latest then ms else 0

end Instant
end Fabric
