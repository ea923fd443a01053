import ChangeLedger.Time.Fields
import ChangeLedger.Text.Blank
/-! # Scanning the parts of a timestamp

The pieces a timestamp pattern is made of, each reading from the front of a text and returning
the rest. Lengths are measured in UTF-8 bytes, so a text that is too short is told apart from one
that holds a wrong character the same way whatever characters it holds.

* `scanNumber s lo hi`: `lo` to `hi` ASCII digits, as a 64-bit signed value;
* `scanFraction`: 1 to 9 digits scaled to nanoseconds, further digits skipped;
* `scanOffset`: `Z`, or a sign, two hour digits, a separator and two minute digits.

A `Pattern` is a list of `Piece`s; `Pattern.scan` runs them in order, filling in `Fields`.
-/
namespace ChangeLedger

def int64Max : Nat := 9223372036854775807

def digitsValue (ds : List Char) : Nat :=
  ds.foldl (fun n c => n * 10 + (c.toNat - '0'.toNat)) 0

/-- Between `lo` and `hi` digits from the front of `s` (as many as there are, up to `hi`).
Fewer bytes than `lo` is `tooShort`; a non-digit among the first `lo` is `invalid`; a value past
the 64-bit range is `outOfRange`. -/
def scanNumber (s : List Char) (lo hi : Nat) : Reading (Int × List Char) :=
  if utf8Length s < lo then .error .tooShort
  else
    let ds := (s.take hi).takeWhile Char.isDigit
    if ds.length < lo then .error .invalid
    else if digitsValue ds > int64Max then .error .outOfRange
    else .ok (digitsValue ds, s.drop ds.length)

/-- The digits after a decimal point, as nanoseconds: up to nine count, the rest are skipped. -/
def scanFraction (s : List Char) : Reading (Int × List Char) := do
  let (v, rest) ← scanNumber s 1 9
  let used := s.length - rest.length
  pure (v * Int.pow 10 (9 - used), rest.dropWhile Char.isDigit)

def scanChar (s : List Char) (c : Char) : Reading (List Char) :=
  match s with
  | [] => .error .tooShort
  | d :: rest => if d = c then .ok rest else .error .invalid

inductive OffsetSeparator
  /-- Exactly one colon. -/
  | colon
  /-- Any run of colons and blanks, possibly empty. -/
  | colonsOrBlanks
  deriving DecidableEq, Repr

def OffsetSeparator.skip : OffsetSeparator → List Char → Reading (List Char)
  | .colon, s => scanChar s ':'
  | .colonsOrBlanks, s => .ok (s.dropWhile fun c => c == ':' || isBlank c)

def twoDigits : List Char → Option Nat
  | a :: b :: _ => if a.isDigit && b.isDigit then
      some ((a.toNat - '0'.toNat) * 10 + (b.toNat - '0'.toNat)) else none
  | _ => none

/-- An offset from UTC in seconds: `Z` or `z` for zero, or `+`/`-`/`−`, two hour digits, the
separator and two minute digits `00..59`. With `minutesOptional` the minutes may be missing. -/
def scanOffset (s : List Char) (sep : OffsetSeparator) (minutesOptional : Bool) :
    Reading (Int × List Char) := do
  match s with
  | 'Z' :: rest | 'z' :: rest => return (0, rest)
  | _ => pure ()
  let (negative, s) ← match s with
    | '+' :: rest => pure (false, rest)
    | '-' :: rest => pure (true, rest)
    | '−' :: rest => pure (true, rest)
    | _ :: _ => throw ReadError.invalid
    | [] => throw ReadError.tooShort
  if utf8Length s < 2 then throw ReadError.tooShort
  let hours ← match twoDigits s with
    | some h => pure h
    | none => throw ReadError.invalid
  let s ← sep.skip (s.drop 2)
  let (minutes, s) ← if utf8Length s ≥ 2 then
      match s with
      | a :: b :: rest =>
        if a.isDigit && b.isDigit then
          if a.toNat ≤ '5'.toNat then
            pure ((a.toNat - '0'.toNat) * 10 + (b.toNat - '0'.toNat), rest)
          else throw ReadError.outOfRange
        else throw ReadError.invalid
      | _ => throw ReadError.invalid
    else if minutesOptional then
      if s.isEmpty then pure (0, s) else throw ReadError.tooShort
    else throw ReadError.tooShort
  let seconds : Int := (hours * 3600 + minutes * 60 : Nat)
  return (if negative then -seconds else seconds, s)

inductive Field
  | year | month | day | hour | minute | second
  deriving DecidableEq, Repr

def Fields.setField (f : Fields) : Field → Int → Reading Fields
  | .year => f.setYear
  | .month => f.setMonth
  | .day => f.setDay
  | .hour => f.setHour
  | .minute => f.setMinute
  | .second => f.setSecond

/-- One piece of a timestamp pattern. -/
inductive Piece
  /-- Leading blanks are skipped; the year takes a sign and any number of digits, or one to
  four digits without one; other fields take one or two digits. -/
  | field (f : Field)
  | literal (c : Char)
  /-- Any run of blanks. -/
  | blanks
  /-- A point and a fraction of a second, if the text has a point here. -/
  | fraction
  /-- After blanks, `Z`, or an offset with hours and optional minutes. -/
  | lenientOffset
  deriving DecidableEq, Repr

def scanFieldNumber (f : Field) (s : List Char) : Reading (Int × List Char) :=
  match f, s with
  | .year, '-' :: rest => do
    let (v, r) ← scanNumber rest 1 (int64Max + 1)
    pure (-v, r)
  | .year, '+' :: rest => scanNumber rest 1 (int64Max + 1)
  | .year, _ => scanNumber s 1 4
  | _, _ => scanNumber s 1 2

def Piece.scan (f : Fields) (s : List Char) : Piece → Reading (Fields × List Char)
  | .field fld => do
    let (v, rest) ← scanFieldNumber fld (dropBlanks s)
    let f ← f.setField fld v
    pure (f, rest)
  | .literal c => do
    let rest ← scanChar s c
    pure (f, rest)
  | .blanks => pure (f, dropBlanks s)
  | .fraction => match s with
    | '.' :: rest => do
      let (v, rest) ← scanFraction rest
      let f ← f.setNanos v
      pure (f, rest)
    | _ => pure (f, s)
  | .lenientOffset => do
    let (off, rest) ← scanOffset (dropBlanks s) .colonsOrBlanks true
    let f ← f.setOffset off
    pure (f, rest)

abbrev Pattern := List Piece

def Pattern.scan (f : Fields) (s : List Char) : Pattern → Reading (Fields × List Char)
  | [] => pure (f, s)
  | p :: ps => do
    let (f, s) ← p.scan f s
    Pattern.scan f s ps

/-- Run a pattern over the whole text: text left over is `tooLong`. -/
def Pattern.scanAll (p : Pattern) (s : List Char) : Reading Fields := do
  let (f, rest) ← p.scan {} s
  if rest.isEmpty then pure f else throw .tooLong

end ChangeLedger
