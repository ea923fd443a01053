import ChangeLedger.Time.Instant
/-! # Writing instants as text

Three written forms of an instant, all in UTC:

* `Instant.toSecondsText`: `YYYY-MM-DDTHH:MM:SSZ`, the fraction dropped;
* `Instant.toText`: `YYYY-MM-DDTHH:MM:SS[.fff]Z`, the fraction as 3, 6 or 9 digits, the fewest
  that are exact, and nothing when it is zero;
* `Instant.toStoredText`: `YYYY-MM-DD HH:MM:SS[.fff]+00:00`, the form kept in the table.

A year in `0..9999` has four digits; any other year carries its sign and at least four digits
(`+10000`, `-0001`). During a leap second the second reads `60`.
-/
namespace ChangeLedger

def padNat (width : Nat) (n : Nat) : String :=
  let s := toString n
  String.ofList (List.replicate (width - s.length) '0') ++ s

/-- A year: four digits inside `0..9999`, otherwise a sign and at least four digits. -/
def yearText (y : Int) : String :=
  if 0 ≤ y ∧ y < 10000 then padNat 4 y.toNat
  else if y < 0 then "-" ++ padNat 4 y.natAbs
  else "+" ++ padNat 4 y.toNat

/-- The fraction of a second: empty for zero, else a point and 3, 6 or 9 digits. -/
def fractionText (nanos : Nat) : String :=
  let n := nanos % 1000000000
  if n = 0 then ""
  else if n % 1000000 = 0 then "." ++ padNat 3 (n / 1000000)
  else if n % 1000 = 0 then "." ++ padNat 6 (n / 1000)
  else "." ++ padNat 9 n

namespace Instant

def clock (t : Instant) : Nat × Nat × Nat :=
  let s := t.secondOfDay
  (s / 3600, s / 60 % 60, s % 60 + t.nanos / nanosPerSecond)

def dateTimeText (t : Instant) (sep : String) : String :=
  let d := t.date
  let (h, m, s) := t.clock
  yearText d.year ++ "-" ++ padNat 2 d.month ++ "-" ++ padNat 2 d.day ++ sep ++
    padNat 2 h ++ ":" ++ padNat 2 m ++ ":" ++ padNat 2 s

def toSecondsText (t : Instant) : String := t.dateTimeText "T" ++ "Z"

/-- `YYYY-MM-DDTHH:MM:SS[.fff]Z`. -/
def toText (t : Instant) : String := t.dateTimeText "T" ++ fractionText t.nanos ++ "Z"

/-- `YYYY-MM-DD HH:MM:SS[.fff]+00:00`, the stored form. -/
def toStoredText (t : Instant) : String := t.dateTimeText " " ++ fractionText t.nanos ++ "+00:00"

end Instant

end ChangeLedger
