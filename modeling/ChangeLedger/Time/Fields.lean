import ChangeLedger.Time.Instant
/-! # Date and time fields read from text

Reading a timestamp fills in `Fields` one at a time, each checked against its range as it is
set, and then `Fields.toInstant` resolves them: the date must exist, the time of day is built
(second 60 is a leap second), and the offset is taken away to give UTC.

`ReadError` names why a reading failed; `ReadError.message` is its wording.
-/
namespace ChangeLedger

/-- Why a timestamp could not be read. -/
inductive ReadError
  /-- A field is outside its range, or the date does not exist. -/
  | outOfRange
  /-- The fields name no instant (the UTC result falls outside the calendar). -/
  | impossible
  /-- A field the instant needs is missing. -/
  | notEnough
  /-- A character does not fit the pattern. -/
  | invalid
  /-- The text ends before the pattern does. -/
  | tooShort
  /-- Text is left after the pattern. -/
  | tooLong
  deriving DecidableEq, Repr, Inhabited

def ReadError.message : ReadError → String
  | .outOfRange => "input is out of range"
  | .impossible => "no possible date and time matching input"
  | .notEnough => "input is not enough for unique date and time"
  | .invalid => "input contains invalid characters"
  | .tooShort => "premature end of input"
  | .tooLong => "trailing input"

abbrev Reading := Except ReadError

/-- The fields of a timestamp read so far. -/
structure Fields where
  year : Option Int := none
  month : Option Nat := none
  day : Option Nat := none
  hour : Option Nat := none
  minute : Option Nat := none
  second : Option Nat := none
  nanos : Option Nat := none
  offset : Option Int := none
  deriving Repr, Inhabited

namespace Fields

def int32Max : Int := 2147483647

def fitsInt32 (v : Int) : Bool := -int32Max - 1 ≤ v && v ≤ int32Max

def setYear (f : Fields) (v : Int) : Reading Fields :=
  if fitsInt32 v then .ok { f with year := some v } else .error .outOfRange

def setMonth (f : Fields) (v : Int) : Reading Fields :=
  if 1 ≤ v ∧ v ≤ 12 then .ok { f with month := some v.toNat } else .error .outOfRange

def setDay (f : Fields) (v : Int) : Reading Fields :=
  if 1 ≤ v ∧ v ≤ 31 then .ok { f with day := some v.toNat } else .error .outOfRange

def setHour (f : Fields) (v : Int) : Reading Fields :=
  if 0 ≤ v ∧ v ≤ 23 then .ok { f with hour := some v.toNat } else .error .outOfRange

def setMinute (f : Fields) (v : Int) : Reading Fields :=
  if 0 ≤ v ∧ v ≤ 59 then .ok { f with minute := some v.toNat } else .error .outOfRange

def setSecond (f : Fields) (v : Int) : Reading Fields :=
  if 0 ≤ v ∧ v ≤ 60 then .ok { f with second := some v.toNat } else .error .outOfRange

def setNanos (f : Fields) (v : Int) : Reading Fields :=
  if 0 ≤ v ∧ v ≤ 999999999 then .ok { f with nanos := some v.toNat } else .error .outOfRange

def setOffset (f : Fields) (v : Int) : Reading Fields :=
  if fitsInt32 v then .ok { f with offset := some v } else .error .outOfRange

def toDate (f : Fields) : Reading CivilDate :=
  match f.year, f.month, f.day with
  | some y, some m, some d =>
    let date : CivilDate := ⟨y, m, d⟩
    if date.valid then .ok date else .error .outOfRange
  | _, _, _ => .error .notEnough

/-- Second of the day and nanoseconds; second 60 becomes 59 plus one second of nanoseconds. -/
def toTimeOfDay (f : Fields) : Reading (Nat × Nat) :=
  match f.hour, f.minute with
  | some h, some m =>
    let (s, leap) := if f.second.getD 0 = 60 then (59, Instant.nanosPerSecond)
      else (f.second.getD 0, 0)
    match f.nanos, f.second with
    | some n, some _ => .ok (h * 3600 + m * 60 + s, leap + n)
    | some _, none => .error .notEnough
    | none, _ => .ok (h * 3600 + m * 60 + s, leap)
  | _, _ => .error .notEnough

def toLocal (f : Fields) : Reading Instant :=
  match f.toDate, f.toTimeOfDay with
  | .ok d, .ok (s, n) => .ok (Instant.ofDaySecond d.toDays s n)
  | .error e, _ => .error e
  | .ok _, .error e => .error e

/-- The instant in UTC: an offset is required, less than a day, and the result in range. -/
def toInstant (f : Fields) : Reading Instant :=
  match f.offset with
  | none => .error .notEnough
  | some off => do
    let t ← f.toLocal
    if off ≤ -Instant.secondsPerDay ∨ Instant.secondsPerDay ≤ off then throw .outOfRange
    match t.shiftSeconds? (-off) with
    | some u => pure u
    | none => throw .impossible

end Fields

end ChangeLedger
