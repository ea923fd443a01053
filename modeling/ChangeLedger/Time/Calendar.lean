/-! # The proleptic Gregorian calendar

Dates are counted in days from 1970-01-01. `CivilDate.toDays` and `CivilDate.ofDays` are the
era-based conversions (an era is 400 years, 146097 days), exact on all integers.
Supported dates span years -262143 to 262142, the range every instant of this library lies in.
-/
namespace ChangeLedger

/-- A calendar date: year, month `1..12`, day `1..31`. -/
structure CivilDate where
  year : Int
  month : Nat
  day : Nat
  deriving DecidableEq, Repr, Inhabited

/-- Gregorian leap years: divisible by 4, except centuries not divisible by 400. -/
def isLeapYear (y : Int) : Bool :=
  (y % 4 == 0 && y % 100 != 0) || y % 400 == 0

def daysInMonth (y : Int) (m : Nat) : Nat :=
  match m with
  | 1 | 3 | 5 | 7 | 8 | 10 | 12 => 31
  | 4 | 6 | 9 | 11 => 30
  | 2 => if isLeapYear y then 29 else 28
  | _ => 0

def minYear : Int := -262143

def maxYear : Int := 262142

namespace CivilDate

def valid (d : CivilDate) : Bool :=
  minYear ≤ d.year && d.year ≤ maxYear && 1 ≤ d.month && d.month ≤ 12 &&
    1 ≤ d.day && d.day ≤ daysInMonth d.year d.month

/-- Days from 1970-01-01 to `d`, negative before it. -/
def toDays (d : CivilDate) : Int :=
  let y : Int := if d.month ≤ 2 then d.year - 1 else d.year
  let era : Int := y / 400
  let yoe : Int := y - era * 400
  let mp : Int := if d.month > 2 then (d.month : Int) - 3 else (d.month : Int) + 9
  let doy : Int := (153 * mp + 2) / 5 + (d.day : Int) - 1
  let doe : Int := yoe * 365 + yoe / 4 - yoe / 100 + doy
  era * 146097 + doe - 719468

/-- The date `z` days after 1970-01-01. -/
def ofDays (z : Int) : CivilDate :=
  let z := z + 719468
  let era : Int := z / 146097
  let doe : Nat := (z - era * 146097).toNat
  let yoe : Nat := (doe - doe / 1460 + doe / 36524 - doe / 146096) / 365
  let doy : Nat := doe - (365 * yoe + yoe / 4 - yoe / 100)
  let mp : Nat := (5 * doy + 2) / 153
  let day : Nat := doy - (153 * mp + 2) / 5 + 1
  let month : Nat := if mp < 10 then mp + 3 else mp - 9
  let year : Int := (yoe : Int) + era * 400
  { year := if month ≤ 2 then year + 1 else year, month := month, day := day }

def firstDay : Int := toDays ⟨minYear, 1, 1⟩

def lastDay : Int := toDays ⟨maxYear, 12, 31⟩

end CivilDate

end ChangeLedger
