/-! # Log filter directives

The runner's log filter is a comma-separated list of directives; empty pieces are skipped. A
directive is, between optional blanks, a level alone (`trace`, `debug`, `info`, `warn`, `error`
or `off` in any case, or one digit `0` to `5`), or `target[span]=level` where

* the target, if any, runs to the first `[` or `=` and starts with a letter, a digit or `_`;
* the span, if any, is `[name]` or `[name{fields}]` with a non-empty name, closed by the first
  `]`; a target or a span must be there;
* only `=` and a level may follow, and the level after `=` is a level name in any case, an
  unsigned decimal number from 0 to 5 (a `+` and leading zeros allowed), or nothing.

A level after `=` that does not parse is reported as such; anything else wrong makes the
directive invalid.

The filter comes from `RUST_LOG` when every directive there is valid. Otherwise it is built from
the configured level as `LEVEL,waymark=LEVEL`, skipping each faulty directive with a warning on
standard error.
-/
namespace ChangeLedger

inductive DirectiveFault
  /-- The directive does not have the shape of one. -/
  | malformed
  /-- The level after `=` does not parse. -/
  | badLevel
  deriving DecidableEq, Repr

def DirectiveFault.message : DirectiveFault → String
  | .malformed => "invalid filter directive"
  | .badLevel => "error parsing level filter: expected one of \"off\", \"error\", \"warn\", " ++
      "\"info\", \"debug\", \"trace\", or a number 0-5"

def levelNames : List String := ["trace", "debug", "info", "warn", "error", "off"]

/-- A level standing alone as a directive: a name in any case, or one digit `0` to `5`. -/
def isBareLevel (s : String) : Bool :=
  levelNames.contains s.toLower || ["0", "1", "2", "3", "4", "5"].contains s

/-- A level after `=`: nothing, a name in any case, or an unsigned decimal number from 0 to 5. -/
def isLevelValue (s : String) : Bool :=
  let digits := match s.toList with
    | '+' :: rest => rest
    | rest => rest
  s.isEmpty || levelNames.contains s.toLower ||
    (!digits.isEmpty && digits.all Char.isDigit &&
      digits.foldl (fun acc c => min 6 (acc * 10 + (c.toNat - '0'.toNat))) 0 ≤ 5)

def isDirectiveBlank (c : Char) : Bool := c.isWhitespace || c = '\x0b' || c = '\x0c'

/-- A character a target may start with: a letter, a digit, `_`, or a non-blank outside ASCII. -/
def startsTarget (c : Char) : Bool :=
  c.isAlphanum || c = '_' || (c.toNat ≥ 128 && !isDirectiveBlank c)

def isSpanText (cs : List Char) : Bool :=
  let name := cs.takeWhile (· ≠ '\x7b')
  !name.isEmpty &&
    match cs.dropWhile (· ≠ '\x7b') with
    | [] => true
    | fields => fields.length ≥ 2 && fields.getLast? = some '\x7d'

/-- What may follow the target: an optional span, then nothing or `=` and a level. -/
def directiveTail (hasTarget : Bool) : List Char → Option DirectiveFault
  | '[' :: rest =>
    match rest.dropWhile (· ≠ ']') with
    | ']' :: after =>
      if !isSpanText (rest.takeWhile (· ≠ ']')) then some .malformed
      else match after with
        | [] => none
        | '=' :: level => if isLevelValue (String.ofList level) then none else some .badLevel
        | _ => some .malformed
    | _ => some .malformed
  | '=' :: level =>
    if !hasTarget then some .malformed
    else if isLevelValue (String.ofList level) then none else some .badLevel
  | _ => if hasTarget then none else some .malformed

def directiveFault? (d : String) : Option DirectiveFault :=
  let cs := ((d.toList.dropWhile isDirectiveBlank).reverse.dropWhile isDirectiveBlank).reverse
  if isBareLevel (String.ofList cs) then none
  else
    let isTargetChar := fun (c : Char) => c ≠ '[' && c ≠ '='
    match cs.takeWhile isTargetChar with
    | [] => directiveTail false cs
    | c :: _ => if startsTarget c then directiveTail true (cs.dropWhile isTargetChar)
      else some .malformed

def validDirective (d : String) : Bool := (directiveFault? d).isNone

def directivesOf (filter : String) : List String := (filter.splitOn ",").filter (!·.isEmpty)

/-- The warnings written while setting up logging with `level` and the `RUST_LOG` value, if any. -/
def logFilterWarnings (level : String) (rustLog : Option String) : List String :=
  let fromEnvironment := match rustLog with
    | some v => (directivesOf v).all validDirective
    | none => false
  if fromEnvironment then []
  else (directivesOf (level ++ ",waymark=" ++ level)).filterMap fun d =>
    (directiveFault? d).map fun f => "ignoring `" ++ d ++ "`: " ++ f.message

end ChangeLedger
