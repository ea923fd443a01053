import ChangeLedger.Json.Read
import ChangeLedger.Time.Read
import ChangeLedger.Record.Basic
import ChangeLedger.Text.Blank
/-! # Event lines

An event line is a JSON object with a string `namespace`, a string `id` and a `changed_at`
timestamp in lenient RFC 3339 text, or an array of those three in that order. Other members of
the object are checked as JSON and ignored; a member given twice is refused. A blank line (after
trimming Unicode blanks) holds no event.

`RecordEvent.ofLine` gives the event, or a `JsonFault` whose rendering names the problem and the
line and byte column where it was found.
-/
namespace ChangeLedger

/-- A record's key and the time it last changed. -/
structure RecordEvent where
  key : RecordKey
  changedAt : Instant
  deriving DecidableEq, Repr

def JsonNumber.describe : JsonNumber → String
  | .unsigned n => "integer `" ++ toString n ++ "`"
  | .signed i => "integer `" ++ toString i ++ "`"
  | .double x => "floating point `" ++ floatCompact x ++ "`"

def hexText (n : Nat) : String := String.ofList (Nat.toDigits 16 n)

def quotedText (s : String) : String :=
  let esc : Char → String := fun c =>
    if c = '"' then "\\\"" else if c = '\\' then "\\\\"
    else if c = '\n' then "\\n" else if c = '\r' then "\\r" else if c = '\t' then "\\t"
    else if c = '\x00' then "\\0"
    else if c.toNat < 32 ∨ c.toNat = 127 then "\\u" ++ "\x7b" ++ hexText c.toNat ++ "\x7d"
    else String.singleton c
  "\"" ++ String.join (s.toList.map esc) ++ "\""

/-- A wrong-type fault for the value at the front of `rest`; a fault in its own syntax wins. -/
def wrongType (rest : List UInt8) (expected : String) : JsonFault :=
  let fault (what : String) (r : List UInt8) : JsonFault :=
    (JsonFault.shapeless ("invalid type: " ++ what ++ ", expected " ++ expected)).place r
  let viaNumber (positive : Bool) (r : List UInt8) : JsonFault :=
    match readNumber positive r with
    | .ok (n, r') => fault n.describe r'
    | .error e => e
  match rest with
  | 110 :: r => match readKeyword [117, 108, 108] r with
    | .ok r' => fault "null" r'
    | .error e => e
  | 116 :: r => match readKeyword [114, 117, 101] r with
    | .ok r' => fault "boolean `true`" r'
    | .error e => e
  | 102 :: r => match readKeyword [97, 108, 115, 101] r with
    | .ok r' => fault "boolean `false`" r'
    | .error e => e
  | 45 :: r => viaNumber false r
  | 34 :: r => match readString r with
    | .ok (s, r') => fault ("string " ++ quotedText s) r'
    | .error e => e
  | 91 :: _ => fault "sequence" rest
  | 123 :: _ => fault "map" rest
  | b :: _ => if isDigitByte b then viaNumber true rest else .ahead .expectedValue rest
  | [] => .ahead .expectedValue rest

def readStringValue (rest : List UInt8) (expected : String) : JsonRead String :=
  let rest := skipJsonBlanks rest
  match rest with
  | [] => .error (.ahead .eofValue [])
  | 34 :: r => readString r
  | _ => .error (wrongType rest expected)

def expectString : String := "a string"

def expectTime : String := "an RFC 3339 formatted date and time string"

/-- A time value: a string read as lenient RFC 3339, its problem placed after the string. -/
def readTimeValue (rest : List UInt8) : Except JsonFault (Instant × List UInt8) := do
  let (s, r) ← readStringValue rest expectTime
  match Instant.ofLenientText s with
  | .ok t => pure (t, r)
  | .error e => throw ((JsonFault.shapeless e.message).place r)

def readColon (rest : List UInt8) : Except JsonFault (List UInt8) :=
  let rest := skipJsonBlanks rest
  match rest with
  | 58 :: r => .ok r
  | _ :: _ => .error (.ahead .expectedColon rest)
  | [] => .error (.ahead .eofObject [])

structure EventFields where
  ns : Option String := none
  id : Option String := none
  changedAt : Option Instant := none

abbrev MemberRead (α : Type) := Except (JsonFault × List UInt8) (α × List UInt8)

def liftRead {α : Type} (r : JsonRead α) (rest : List UInt8) : MemberRead α :=
  match r with
  | .ok a => .ok a
  | .error e => .error (e, rest)

/-- The event, once the closing brace is next: each member must have been given. -/
def EventFields.finish (f : EventFields) (rest : List UInt8) : MemberRead RecordEvent :=
  match f.ns, f.id, f.changedAt with
  | some n, some i, some c => .ok (⟨⟨n, i⟩, c⟩, rest)
  | none, _, _ => .error (.shapeless "missing field `namespace`", rest)
  | _, none, _ => .error (.shapeless "missing field `id`", rest)
  | _, _, none => .error (.shapeless "missing field `changed_at`", rest)

def EventFields.readMember (f : EventFields) (name : String) (rest : List UInt8) :
    Except (JsonFault × List UInt8) (EventFields × List UInt8) := do
  let dup := fun (field : String) => Except.error
    (JsonFault.shapeless ("duplicate field `" ++ field ++ "`"), rest)
  if name = "namespace" then
    if f.ns.isSome then dup "namespace" else
    let r ← liftRead ((readColon rest).map ((), ·)) rest
    let (v, r) ← liftRead (readStringValue r.2 expectString) r.2
    pure ({ f with ns := some v }, r)
  else if name = "id" then
    if f.id.isSome then dup "id" else
    let r ← liftRead ((readColon rest).map ((), ·)) rest
    let (v, r) ← liftRead (readStringValue r.2 expectString) r.2
    pure ({ f with id := some v }, r)
  else if name = "changed_at" then
    if f.changedAt.isSome then dup "changed_at" else
    let r ← liftRead ((readColon rest).map ((), ·)) rest
    let (v, r) ← liftRead (readTimeValue r.2) r.2
    pure ({ f with changedAt := some v }, r)
  else
    let r ← liftRead ((readColon rest).map ((), ·)) rest
    let r ← liftRead ((skipValue r.2).map ((), ·)) r.2
    pure (f, r.2)

/-- The members of an object after its opening brace, up to (not over) its closing brace. -/
def readMembers : Nat → Bool → EventFields → List UInt8 → MemberRead RecordEvent
  | 0, _, _, rest => .error (.here .eofObject rest, rest)
  | fuel + 1, first, f, rest =>
    let rest := skipJsonBlanks rest
    let next : Except JsonFault (List UInt8) := match rest with
      | 125 :: _ => .ok rest
      | 44 :: r => if first then .ok rest else .ok (skipJsonBlanks r)
      | _ :: _ => if first then .ok rest else .error (.ahead .expectedObjectCommaOrEnd rest)
      | [] => .error (.ahead .eofObject [])
    match rest, next with
    | 125 :: _, _ => f.finish rest
    | _, .error e => .error (e, rest)
    | _, .ok r =>
      match r with
      | 34 :: r' =>
        match readString r' with
        | .error e => .error (e, r')
        | .ok (name, r'') =>
          match f.readMember name r'' with
          | .error e => .error e
          | .ok (f, r3) => readMembers fuel false f r3
      | 125 :: _ => .error (.ahead .trailingComma r, r)
      | _ :: _ => .error (.ahead .keyMustBeString r, r)
      | [] => .error (.ahead .eofValue [], r)

def closeObject (rest : List UInt8) : Except JsonFault (List UInt8) :=
  let rest := skipJsonBlanks rest
  match rest with
  | 125 :: r => .ok r
  | 44 :: _ => .error (.ahead .trailingComma rest)
  | _ :: _ => .error (.ahead .trailingCharacters rest)
  | [] => .error (.ahead .eofObject [])

def afterCloseObject (rest : List UInt8) : List UInt8 :=
  match skipJsonBlanks rest with
  | 125 :: r => r
  | r => r

def expectTriple : String := "struct RecordEvent with 3 elements"

def nextElement (first : Bool) (rest : List UInt8) : Except JsonFault (Option (List UInt8)) :=
  let rest := skipJsonBlanks rest
  let peek : Except JsonFault (List UInt8) := match rest with
    | 44 :: r => if first then .ok rest else .ok (skipJsonBlanks r)
    | _ :: _ => if first then .ok rest else .error (.ahead .expectedListCommaOrEnd rest)
    | [] => .error (.ahead .eofList [])
  match rest with
  | 93 :: _ => .ok none
  | _ => do
    let r ← peek
    match r with
    | 93 :: _ => throw (.ahead .trailingComma r)
    | _ :: _ => pure (some r)
    | [] => throw (.ahead .eofValue [])

def readElement {α : Type} (first : Bool) (index : Nat) (read : List UInt8 → JsonRead α)
    (rest : List UInt8) : MemberRead α :=
  match nextElement first rest with
  | .error e => .error (e, rest)
  | .ok none => .error (.shapeless ("invalid length " ++ toString index ++ ", expected " ++
      expectTriple), skipJsonBlanks rest)
  | .ok (some r) => liftRead (read r) r

def readTriple (rest : List UInt8) : Except (JsonFault × List UInt8) (RecordEvent × List UInt8) := do
  let (n, r) ← readElement true 0 (readStringValue · expectString) rest
  let (i, r) ← readElement false 1 (readStringValue · expectString) r
  let (c, r) ← readElement false 2 readTimeValue r
  pure (⟨⟨n, i⟩, c⟩, r)

def closeArray (rest : List UInt8) : Except JsonFault (List UInt8) :=
  let rest := skipJsonBlanks rest
  match rest with
  | 93 :: r => .ok r
  | 44 :: r =>
    let r' := skipJsonBlanks r
    match r' with
    | 93 :: _ => .error (.ahead .trailingComma r')
    | _ => .error (.ahead .trailingCharacters r')
  | _ :: _ => .error (.ahead .trailingCharacters rest)
  | [] => .error (.ahead .eofList [])

def afterCloseArray (rest : List UInt8) : List UInt8 :=
  match skipJsonBlanks rest with
  | 93 :: r => r
  | 44 :: r => skipJsonBlanks r
  | r => r

def closeWith (read : MemberRead RecordEvent) (close : List UInt8 → Except JsonFault (List UInt8))
    (after : List UInt8 → List UInt8) : JsonRead RecordEvent :=
  match read with
  | .ok (ev, r) => (close r).map (ev, ·)
  | .error (f, r) => .error (f.place (after r))

/-- Read the event in a JSON text with nothing after it but blanks. -/
def readEvent (src : List UInt8) : Except JsonFault RecordEvent := do
  let rest := skipJsonBlanks src
  let (ev, r) ← match rest with
    | [] => throw (JsonFault.ahead .eofValue [])
    | 91 :: r => closeWith (readTriple r) closeArray afterCloseArray
    | 123 :: r => closeWith (readMembers (r.length + 1) true {} r) closeObject afterCloseObject
    | _ => throw (wrongType rest "struct RecordEvent")
  match skipJsonBlanks r with
  | [] => pure ev
  | r' => throw (.ahead .trailingCharacters r')

def trimLine (line : String) : String := String.ofList (trimBlanks line.toList)

/-- The event of a line, `none` for a blank line; a fault is rendered against the trimmed line. -/
def RecordEvent.ofLine (line : String) : Except (JsonProblemClass × String) (Option RecordEvent) :=
  let t := trimLine line
  if t.isEmpty then .ok none
  else
    let src := t.toUTF8.toList
    match readEvent src with
    | .ok ev => .ok (some ev)
    | .error f => .error (f.problem.cls, f.render src)

end ChangeLedger
