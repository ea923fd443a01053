import ChangeLedger.Time.Scan
/-! # Reading instants from text

Three readers, each giving an instant in UTC or the first `ReadError`:

* `Instant.ofRfc3339`: strict RFC 3339, `YYYY-MM-DD`, `T`, `t` or a space, `HH:MM:SS`, an optional
  fraction, and `Z` or `±HH:MM` less than a day, read by position;
* `Instant.ofLenientText`: blanks may stand around every number, a year may carry a sign, the
  offset may be `UTC`, `Z` or `±HH[:]MM`, and trailing blanks are allowed;
* `Instant.ofStoredText`: the stored form `YYYY-MM-DD HH:MM:SS[.f]` (or with `T`), read with an
  offset when one fits, else as UTC; a failure reports the reading without offset.
-/
namespace ChangeLedger

namespace Instant

def skipDateTimeSeparator (s : List Char) : Reading (List Char) :=
  match s with
  | 'T' :: rest | 't' :: rest | ' ' :: rest => .ok rest
  | _ :: _ => .error .invalid
  | [] => .error .tooShort

def digitAt (bs : List UInt8) (i : Nat) : Reading Nat :=
  match bs[i]? with
  | some b => if 48 ≤ b && b ≤ 57 then .ok (b.toNat - 48) else .error .invalid
  | none => .error .tooShort

def twoDigitsAt (bs : List UInt8) (i : Nat) : Reading Nat := do
  let a ← digitAt bs i
  let b ← digitAt bs (i + 1)
  pure (a * 10 + b)

def byteAt (bs : List UInt8) (i : Nat) (allowed : List UInt8) : Reading Unit :=
  match bs[i]? with
  | some b => if allowed.contains b then .ok () else .error .invalid
  | none => .error .tooShort

/-- Read strict RFC 3339 text by position. The first nineteen bytes must be there; they are
`YYYY-MM-DD`, then `T`, `t` or a space, then `HH:MM:SS`, checked left to right, except that the
date is checked as a whole (a real day) right after its digits. Then come an optional fraction
(second 60 is a leap second), the time as a whole, `Z` or `±HH:MM`, the end of the text, and
last the offset, which must be less than a day. -/
def ofRfc3339 (text : String) : Reading Instant := do
  let bs := text.toUTF8.toList
  if bs.length < 19 then throw .tooShort
  let year ← do
    let a ← twoDigitsAt bs 0
    let b ← twoDigitsAt bs 2
    pure (a * 100 + b)
  byteAt bs 4 [45]
  let month ← twoDigitsAt bs 5
  byteAt bs 7 [45]
  let day ← twoDigitsAt bs 8
  let date : CivilDate := ⟨year, month, day⟩
  if !date.valid then throw .outOfRange
  byteAt bs 10 [84, 116, 32]
  let hour ← twoDigitsAt bs 11
  byteAt bs 13 [58]
  let minute ← twoDigitsAt bs 14
  byteAt bs 16 [58]
  let second ← twoDigitsAt bs 17
  let (second, leap) := if second = 60 then (59, Instant.nanosPerSecond) else (second, 0)
  let (nanos, rest) ← match text.toList.drop 19 with
    | '.' :: rest => do
      let (n, rest) ← scanFraction rest
      pure (leap + n.toNat, rest)
    | rest => pure (leap, rest)
  if 24 ≤ hour ∨ 60 ≤ minute ∨ 60 ≤ second ∨ (Instant.nanosPerSecond ≤ nanos ∧ second ≠ 59) ∨
      2 * Instant.nanosPerSecond ≤ nanos then
    throw .outOfRange
  let (off, rest) ← scanOffset rest .colon false
  if !rest.isEmpty then throw .tooLong
  if off ≤ -Instant.secondsPerDay ∨ Instant.secondsPerDay ≤ off then throw .outOfRange
  match (Instant.ofDaySecond date.toDays (hour * 3600 + minute * 60 + second) nanos).shiftSeconds?
      (-off) with
  | some t => pure t
  | none => throw .outOfRange

def lenientDate : Pattern :=
  [.field .year, .blanks, .literal '-', .field .month, .blanks, .literal '-', .field .day]

def lenientTime : Pattern :=
  [.field .hour, .blanks, .literal ':', .field .minute, .blanks, .literal ':', .field .second,
    .fraction, .blanks]

def startsWithUtc : List Char → Bool
  | a :: b :: c :: _ => a.toUpper == 'U' && b.toUpper == 'T' && c.toUpper == 'C'
  | _ => false

/-- Lenient fields: the date, a separator, the time, blanks, then `UTC` or an offset. -/
def lenientFields (s : List Char) : Reading (Fields × List Char) := do
  let (f, s) ← lenientDate.scan {} s
  let s ← skipDateTimeSeparator s
  let (f, s) ← lenientTime.scan f s
  let s := dropBlanks s
  let (off, s) ← if startsWithUtc s then pure ((0 : Int), s.drop 3)
    else scanOffset s .colonsOrBlanks false
  let f ← f.setOffset off
  pure (f, s)

/-- Read lenient RFC 3339 text; blanks may follow it. -/
def ofLenientText (text : String) : Reading Instant := do
  let (f, rest) ← lenientFields text.toList
  if !(dropBlanks rest).isEmpty then throw .tooLong
  f.toInstant

def storedPattern (sep : Piece) : Pattern :=
  [.field .year, .literal '-', .field .month, .literal '-', .field .day, sep,
    .field .hour, .literal ':', .field .minute, .literal ':', .field .second, .fraction]

/-- The piece between date and time in stored text: `T` when the eleventh byte is `T`,
otherwise blanks. -/
def storedSeparator (text : String) : Piece :=
  match text.toUTF8.toList[10]? with
  | some b => if b = 84 then .literal 'T' else .blanks
  | none => .blanks

/-- Read stored text: with an offset if the whole text fits, else as UTC without one. The error
is that of the reading without offset. -/
def ofStoredText (text : String) : Reading Instant :=
  let sep := storedSeparator text
  let withOffset : Reading Instant := do
    let f ← (storedPattern sep ++ [Piece.lenientOffset]).scanAll text.toList
    f.toInstant
  match withOffset with
  | .ok t => .ok t
  | .error _ => do
    let f ← (storedPattern sep).scanAll text.toList
    f.toLocal

end Instant

end ChangeLedger
