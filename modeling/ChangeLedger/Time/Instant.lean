import ChangeLedger.Time.Calendar
/-! # Instants on the UTC time line

An `Instant` is a whole second since 1970-01-01T00:00:00Z and a nanosecond part. A leap second
is the second `:59` of its minute with a nanosecond part of one second or more, so `23:59:60.5`
is `23:59:59` with `1_500_000_000` nanoseconds. Instants are ordered by second, then nanoseconds.

`Instant.sub` is the signed distance in nanoseconds; across a leap second it follows the rule
that the leap second belongs to the second before it (see `secondsOfDayDelta`).
-/
namespace ChangeLedger

/-- A point in UTC with nanosecond precision; `nanos < 2_000_000_000`. -/
structure Instant where
  secs : Int
  nanos : Nat
  deriving DecidableEq, Repr, Inhabited

namespace Instant

def nanosPerSecond : Nat := 1000000000

def secondsPerDay : Int := 86400

/-- Lexicographic order: the second, then the nanosecond part. -/
def lt (a b : Instant) : Prop := a.secs < b.secs ∨ (a.secs = b.secs ∧ a.nanos < b.nanos)

instance : LT Instant := ⟨lt⟩

instance (a b : Instant) : Decidable (a < b) :=
  inferInstanceAs (Decidable (a.secs < b.secs ∨ (a.secs = b.secs ∧ a.nanos < b.nanos)))

def days (t : Instant) : Int := t.secs / secondsPerDay

def secondOfDay (t : Instant) : Nat := (t.secs % secondsPerDay).toNat

def date (t : Instant) : CivilDate := CivilDate.ofDays t.days

def ofDaySecond (day : Int) (secondOfDay : Nat) (nanos : Nat) : Instant :=
  ⟨day * secondsPerDay + secondOfDay, nanos⟩

def earliest : Instant := ofDaySecond CivilDate.firstDay 0 0

def latestSecond : Int := CivilDate.lastDay * secondsPerDay + 86399

/-- An instant lies in the supported range of dates. -/
def inRange (t : Instant) : Bool :=
  CivilDate.firstDay * secondsPerDay ≤ t.secs && t.secs ≤ latestSecond

def ofMillis? (ms : Int) : Option Instant :=
  let t : Instant := ⟨ms / 1000, (ms % 1000).toNat * 1000000⟩
  if t.inRange then some t else none

def shiftSeconds? (t : Instant) (delta : Int) : Option Instant :=
  let u : Instant := ⟨t.secs + delta, t.nanos⟩
  if u.inRange then some u else none

/-- Whole seconds between two times of day, a leap second counted with the second before it. -/
def secondsOfDayDelta (a b : Instant) : Int :=
  let d : Int := (a.secondOfDay : Int) - b.secondOfDay
  if a.secondOfDay > b.secondOfDay ∧ b.nanos ≥ nanosPerSecond then d + 1
  else if a.secondOfDay < b.secondOfDay ∧ a.nanos ≥ nanosPerSecond then d - 1
  else d

/-- The signed distance `a - b` in nanoseconds: whole days, the time-of-day seconds and the
nanosecond parts. -/
def sub (a b : Instant) : Int :=
  ((a.days - b.days) * secondsPerDay + secondsOfDayDelta a b) * nanosPerSecond +
    ((a.nanos : Int) - b.nanos)

/-- Whole milliseconds in `a - b`, truncated toward zero. -/
def millisBetween (a b : Instant) : Int := Int.tdiv (sub a b) 1000000

end Instant

end ChangeLedger
