/-! # Faults in JSON text

A `JsonFault` is a `JsonProblem` and where it was found. Positions are kept as the number of bytes
still unread at that point, so a reader never needs the whole text; `JsonFault.render` turns
that into a line and a byte column of the whole text (`line` counts newlines before the point,
`column` the bytes since the last one). A fault raised by a value's meaning rather than its syntax
has no position until the reader that produced the value gives it one (`JsonFault.place`).

Problems fall in three classes: the text ended too early (`eof`), it is not JSON (`malformed`), or it
is JSON of the wrong shape (`data`).
-/
namespace ChangeLedger

/-- What is wrong with a JSON text. -/
inductive JsonProblem
  | eofList
  | eofObject
  | eofString
  | eofValue
  | expectedColon
  | expectedListCommaOrEnd
  | expectedObjectCommaOrEnd
  | expectedIdent
  | expectedValue
  | invalidEscape
  | invalidNumber
  | numberOutOfRange
  | controlCharacter
  | keyMustBeString
  | loneLeadingSurrogate
  | trailingComma
  | trailingCharacters
  | unexpectedEndOfHexEscape
  /-- The text is JSON, but not of the shape asked for. -/
  | shape (text : String)
  deriving DecidableEq, Repr

inductive JsonProblemClass
  | malformed
  | data
  | eof
  deriving DecidableEq, Repr

namespace JsonProblem

def message : JsonProblem → String
  | .eofList => "EOF while parsing a list"
  | .eofObject => "EOF while parsing an object"
  | .eofString => "EOF while parsing a string"
  | .eofValue => "EOF while parsing a value"
  | .expectedColon => "expected `:`"
  | .expectedListCommaOrEnd => "expected `,` or `]`"
  | .expectedObjectCommaOrEnd => "expected `,` or `\x7d`"
  | .expectedIdent => "expected ident"
  | .expectedValue => "expected value"
  | .invalidEscape => "invalid escape"
  | .invalidNumber => "invalid number"
  | .numberOutOfRange => "number out of range"
  | .controlCharacter => "control character (\\u0000-\\u001F) found while parsing a string"
  | .keyMustBeString => "key must be a string"
  | .loneLeadingSurrogate => "lone leading surrogate in hex escape"
  | .trailingComma => "trailing comma"
  | .trailingCharacters => "trailing characters"
  | .unexpectedEndOfHexEscape => "unexpected end of hex escape"
  | .shape text => text

def cls : JsonProblem → JsonProblemClass
  | .eofList | .eofObject | .eofString | .eofValue => .eof
  | .shape _ => .data
  | _ => .malformed

end JsonProblem

/-- A problem, with the number of unread bytes where it was found (none until placed). -/
structure JsonFault where
  problem : JsonProblem
  unread : Option Nat
  deriving DecidableEq, Repr

namespace JsonFault

def here (p : JsonProblem) (rest : List UInt8) : JsonFault := ⟨p, some rest.length⟩

def ahead (p : JsonProblem) (rest : List UInt8) : JsonFault := ⟨p, some (rest.length - 1)⟩

def shapeless (text : String) : JsonFault := ⟨.shape text, none⟩

def place (f : JsonFault) (rest : List UInt8) : JsonFault :=
  match f.unread with
  | some _ => f
  | none => { f with unread := some rest.length }

/-- Line and byte column of the point `i` bytes into `src`. -/
def lineColumn (src : List UInt8) (i : Nat) : Nat × Nat :=
  let before := src.take i
  let lines := before.count 10
  let sinceLast := (before.reverse.takeWhile (· != 10)).length
  (lines + 1, sinceLast)

/-- The fault's text for the whole input `src`: the problem, then its line and column. -/
def render (f : JsonFault) (src : List UInt8) : String :=
  match f.unread with
  | none => f.problem.message
  | some u =>
    let (line, col) := lineColumn src (src.length - u)
    f.problem.message ++ " at line " ++ toString line ++ " column " ++ toString col

end JsonFault

end ChangeLedger
