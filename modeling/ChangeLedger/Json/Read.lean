import ChangeLedger.Json.Fault
import ChangeLedger.Decimal.Shortest
/-! # Reading JSON tokens

Readers over the unread bytes of a JSON text, each returning what it read and the bytes after
it, or a `JsonFault`:

* `readString` decodes a string body (after its opening quote): escapes, surrogate pairs, and no
  raw control characters; `skipString` checks one without decoding it;
* `readNumber` reads a number the way a reader that wants its value does: integers that fit in
  64 bits stay integers, others become doubles, and a double too large is `numberOutOfRange`;
* `skipValue` checks a whole value of any nesting depth, without reading numbers' values.
-/
namespace ChangeLedger

def isJsonBlank (b : UInt8) : Bool := b == 32 || b == 10 || b == 9 || b == 13

def skipJsonBlanks (rest : List UInt8) : List UInt8 := rest.dropWhile isJsonBlank

def isDigitByte (b : UInt8) : Bool := 48 ≤ b && b ≤ 57

def digitOf (b : UInt8) : Nat := b.toNat - 48

def hexDigit? (b : UInt8) : Option Nat :=
  if 48 ≤ b && b ≤ 57 then some (b.toNat - 48)
  else if 97 ≤ b && b ≤ 102 then some (b.toNat - 87)
  else if 65 ≤ b && b ≤ 70 then some (b.toNat - 55)
  else none

/-- A reader's result: a value and the unread bytes, or a fault. -/
abbrev JsonRead (α : Type) := Except JsonFault (α × List UInt8)

def readHex4 (rest : List UInt8) : JsonRead Nat :=
  match rest with
  | a :: b :: c :: d :: r =>
    match hexDigit? a, hexDigit? b, hexDigit? c, hexDigit? d with
    | some w, some x, some y, some z => .ok (((w * 16 + x) * 16 + y) * 16 + z, r)
    | _, _, _, _ => .error (.here .invalidEscape r)
  | _ => .error (.here .eofString [])

def utf8Bytes (n : Nat) : List UInt8 := (String.singleton (Char.ofNat n)).toUTF8.toList

/-- A `\u` escape after its `u`: a code point, or a surrogate pair written as two escapes. -/
def readUnicodeEscape (rest : List UInt8) : Except JsonFault (List UInt8 × List UInt8) := do
  let (n, r) ← readHex4 rest
  if 0xDC00 ≤ n ∧ n ≤ 0xDFFF then throw (.here .loneLeadingSurrogate r)
  if n < 0xD800 ∨ n > 0xDBFF then return (utf8Bytes n, r)
  match r with
  | [] => throw (.here .eofString [])
  | 92 :: r2 =>
    match r2 with
    | [] => throw (.here .eofString [])
    | 117 :: r3 =>
      let (n2, r4) ← readHex4 r3
      if n2 < 0xDC00 ∨ n2 > 0xDFFF then throw (.here .loneLeadingSurrogate r4)
      return (utf8Bytes (((n - 0xD800) * 1024 + (n2 - 0xDC00)) + 0x10000), r4)
    | _ :: r3 => throw (.here .unexpectedEndOfHexEscape r3)
  | _ :: r2 => throw (.here .unexpectedEndOfHexEscape r2)

def readEscape (rest : List UInt8) : JsonRead (List UInt8) :=
  match rest with
  | [] => .error (.here .eofString [])
  | c :: r =>
    if c == 34 || c == 92 || c == 47 then .ok ([c], r)
    else if c == 98 then .ok ([8], r)
    else if c == 102 then .ok ([12], r)
    else if c == 110 then .ok ([10], r)
    else if c == 114 then .ok ([13], r)
    else if c == 116 then .ok ([9], r)
    else if c == 117 then readUnicodeEscape r
    else .error (.here .invalidEscape r)

/-- The decoded bytes of a string body, in reverse, up to its closing quote. -/
def readStringBytes : Nat → List UInt8 → List UInt8 → JsonRead (List UInt8)
  | 0, _, rest => .error (.here .eofString rest)
  | fuel + 1, acc, rest =>
    match rest with
    | [] => .error (.here .eofString [])
    | b :: r =>
      if b == 34 then .ok (acc, r)
      else if b == 92 then
        match readEscape r with
        | .ok (bs, r') => readStringBytes fuel (bs.reverse ++ acc) r'
        | .error e => .error e
      else if b < 32 then .error (.here .controlCharacter r)
      else readStringBytes fuel (b :: acc) r

def readString (rest : List UInt8) : Except JsonFault (String × List UInt8) := do
  let (acc, r) ← readStringBytes (rest.length + 1) [] rest
  pure ((String.fromUTF8? ⟨acc.reverse.toArray⟩).getD "", r)

def skipEscape (rest : List UInt8) : Except JsonFault (List UInt8) :=
  match rest with
  | [] => .error (.here .eofString [])
  | c :: r =>
    if c == 34 || c == 92 || c == 47 || c == 98 || c == 102 || c == 110 || c == 114 ||
        c == 116 then .ok r
    else if c == 117 then (readHex4 r).map (·.2)
    else .error (.here .invalidEscape r)

def skipStringGo : Nat → List UInt8 → Except JsonFault (List UInt8)
  | 0, rest => .error (.here .eofString rest)
  | fuel + 1, rest =>
    match rest with
    | [] => .error (.here .eofString [])
    | b :: r =>
      if b == 34 then .ok r
      else if b == 92 then
        match skipEscape r with
        | .ok r' => skipStringGo fuel r'
        | .error e => .error e
      else if b < 32 then .error (.here .controlCharacter rest)
      else skipStringGo fuel r

def skipString (rest : List UInt8) : Except JsonFault (List UInt8) :=
  skipStringGo (rest.length + 1) rest

def readKeyword : List UInt8 → List UInt8 → Except JsonFault (List UInt8)
  | [], rest => .ok rest
  | k :: ks, rest =>
    match rest with
    | [] => .error (.here .eofValue [])
    | b :: r => if b == k then readKeyword ks r else .error (.here .expectedIdent r)

/-! ## Numbers -/

/-- A number as a reader of values sees it. -/
inductive JsonNumber
  | unsigned (n : Nat)
  | signed (i : Int)
  | double (x : Float)

def u64Max : Nat := 18446744073709551615

def i32Max : Int := 2147483647

/-- The correctly rounded double nearest `10^k`. -/
def powTen (k : Nat) : Float := Float.ofScientific 1 false k

/-- `significand · 10^exponent` as a double, scaled step by step; overflow is `numberOutOfRange`. -/
def doubleOfParts (rest : List UInt8) (positive : Bool) (significand : Nat) (exponent : Int) :
    Except JsonFault Float :=
  let rec go : Nat → Float → Int → Except JsonFault Float
    | 0, f, _ => .ok f
    | fuel + 1, f, e =>
      if e.natAbs ≤ 308 then
        if e ≥ 0 then
          let g := f * powTen e.natAbs
          if g.isInf then .error (.here .numberOutOfRange rest) else .ok g
        else .ok (f / powTen e.natAbs)
      else if f == 0 then .ok f
      else if e ≥ 0 then .error (.here .numberOutOfRange rest)
      else go fuel (f / powTen 308) (e + 308)
  (go 20 (Float.ofNat significand) exponent).map fun f => if positive then f else -f

/-- The integer after `E`; past the 32-bit range the number is zero or out of range. -/
def readExponentDigits (positive : Bool) (significand : Nat) (start : Int) (expPositive : Bool) :
    Nat → Int → List UInt8 → JsonRead Float
  | _, exp, [] =>
    let e := if expPositive then start + exp else start - exp
    (doubleOfParts [] positive significand (max (-i32Max - 1) (min i32Max e))).map (·, [])
  | n + 1, exp, b :: r =>
    if isDigitByte b then
      let d := (digitOf b : Int)
      if exp > i32Max / 10 ∨ (exp = i32Max / 10 ∧ d > i32Max % 10) then
        if significand ≠ 0 ∧ expPositive then .error (.here .numberOutOfRange r)
        else .ok (if positive then 0.0 else -0.0, r.dropWhile isDigitByte)
      else readExponentDigits positive significand start expPositive n (exp * 10 + d) r
    else
      let e := if expPositive then start + exp else start - exp
      (doubleOfParts (b :: r) positive significand (max (-i32Max - 1) (min i32Max e))).map
        (·, b :: r)
  | 0, _, rest => .error (.here .invalidNumber rest)

def readExponent (positive : Bool) (significand : Nat) (start : Int) (rest : List UInt8) :
    JsonRead Float :=
  let r := rest.drop 1
  let (expPositive, r) := match r with
    | 43 :: r' => (true, r')
    | 45 :: r' => (false, r')
    | _ => (true, r)
  match r with
  | [] => .error (.here .eofValue [])
  | b :: r' =>
    if isDigitByte b then readExponentDigits positive significand start expPositive r'.length
      (digitOf b) r'
    else .error (.here .invalidNumber r')

/-- Fraction digits once the 64-bit significand is full: skipped, then maybe an exponent. -/
def readOverflowDigits (positive : Bool) (significand : Nat) (e : Int) :
    List UInt8 → JsonRead Float
  | [] => (doubleOfParts [] positive significand e).map (·, [])
  | b :: r =>
    if isDigitByte b then readOverflowDigits positive significand e r
    else if b == 101 || b == 69 then readExponent positive significand e (b :: r)
    else (doubleOfParts (b :: r) positive significand e).map (·, b :: r)

def readFractionDigits (positive : Bool) (start : Int) :
    Nat → Nat → List UInt8 → JsonRead Float
  | significand, k, [] =>
    if k = 0 then .error (.ahead .eofValue [])
    else (doubleOfParts [] positive significand (start - k)).map (·, [])
  | significand, k, b :: r =>
    if isDigitByte b then
      let d := digitOf b
      if significand > u64Max / 10 ∨ (significand = u64Max / 10 ∧ d > u64Max % 10) then
        readOverflowDigits positive significand (start - k) (b :: r)
      else readFractionDigits positive start (significand * 10 + d) (k + 1) r
    else if k = 0 then .error (.ahead .invalidNumber (b :: r))
    else if b == 101 || b == 69 then readExponent positive significand (start - k) (b :: r)
    else (doubleOfParts (b :: r) positive significand (start - k)).map (·, b :: r)

def readNumberTail (positive : Bool) (significand : Nat) (exp : Int) (rest : List UInt8) :
    JsonRead JsonNumber :=
  match rest with
  | 46 :: r => (readFractionDigits positive exp significand 0 r).map fun (x, r') => (.double x, r')
  | 101 :: _ | 69 :: _ => (readExponent positive significand exp rest).map fun (x, r') => (.double x, r')
  | _ =>
    if positive then .ok (.unsigned significand, rest)
    else if significand = 0 then .ok (.double (-0.0), rest)
    else if significand ≤ Nat.pow 2 63 then .ok (.signed (-(significand : Int)), rest)
    else .ok (.double (-(Float.ofNat significand)), rest)

/-- Integer digits after the first, while they fit in 64 bits. -/
def readIntegerDigits (positive : Bool) : Nat → List UInt8 → JsonRead JsonNumber
  | significand, [] => readNumberTail positive significand 0 []
  | significand, b :: r =>
    if isDigitByte b then
      let d := digitOf b
      if significand > u64Max / 10 ∨ (significand = u64Max / 10 ∧ d > u64Max % 10) then
        (readLong significand (b :: r) 0).map fun (x, r') => (.double x, r')
      else readIntegerDigits positive (significand * 10 + d) r
    else readNumberTail positive significand 0 (b :: r)
where
  /-- Digits past the 64-bit range raise the exponent. -/
  readLong (significand : Nat) : List UInt8 → Int → JsonRead Float
    | [], e => (doubleOfParts [] positive significand e).map (·, [])
    | b :: r, e =>
      if isDigitByte b then readLong significand r (e + 1)
      else if b == 46 then readFractionDigits positive e significand 0 r
      else if b == 101 || b == 69 then readExponent positive significand e (b :: r)
      else (doubleOfParts (b :: r) positive significand e).map (·, b :: r)

def readNumber (positive : Bool) (rest : List UInt8) : JsonRead JsonNumber :=
  match rest with
  | [] => .error (.here .eofValue [])
  | b :: r =>
    if b == 48 then
      match r with
      | c :: _ => if isDigitByte c then .error (.ahead .invalidNumber r)
        else readNumberTail positive 0 0 r
      | [] => readNumberTail positive 0 0 r
    else if isDigitByte b then readIntegerDigits positive (digitOf b) r
    else .error (.here .invalidNumber r)

/-! ## Checking values without reading them -/

def skipExponent (rest : List UInt8) : Except JsonFault (List UInt8) :=
  let r := rest.drop 1
  let r := match r with
    | 43 :: r' | 45 :: r' => r'
    | _ => r
  match r with
  | [] => .error (.here .invalidNumber [])
  | b :: r' => if isDigitByte b then .ok (r'.dropWhile isDigitByte)
    else .error (.here .invalidNumber r')

def skipNumber (rest : List UInt8) : Except JsonFault (List UInt8) := do
  let r ← match rest with
    | [] => Except.error (JsonFault.here .invalidNumber [])
    | b :: r =>
      if b == 48 then
        match r with
        | c :: _ => if isDigitByte c then .error (.ahead .invalidNumber r) else .ok r
        | [] => .ok r
      else if isDigitByte b then .ok (r.dropWhile isDigitByte)
      else .error (.here .invalidNumber r)
  match r with
  | 46 :: r' =>
    let ds := r'.takeWhile isDigitByte
    if ds.isEmpty then throw (.ahead .invalidNumber r')
    let r'' := r'.drop ds.length
    match r'' with
    | 101 :: _ | 69 :: _ => skipExponent r''
    | _ => pure r''
  | 101 :: _ | 69 :: _ => skipExponent r
  | _ => pure r

inductive SkipNext
  /-- The outermost value is complete. -/
  | done (rest : List UInt8)
  /-- A value follows inside `frame`, with `stack` around it. -/
  | more (frame : UInt8) (stack : List UInt8) (rest : List UInt8)

/-- Close brackets and pass commas after a value inside `frame`. -/
def skipCloses : Nat → Bool → UInt8 → List UInt8 → List UInt8 → Except JsonFault SkipNext
  | 0, _, _, _, rest => .error (.here .eofValue rest)
  | fuel + 1, afterValue, frame, stack, rest =>
    let rest := skipJsonBlanks rest
    match rest with
    | [] => .error (.ahead (if frame == 91 then .eofList else .eofObject) [])
    | b :: r =>
      if b == 44 && afterValue then .ok (.more frame stack r)
      else if (b == 93 && frame == 91) || (b == 125 && frame == 123) then
        match stack with
        | [] => .ok (.done r)
        | f :: st => skipCloses fuel true f st r
      else if afterValue then
        .error (.ahead (if frame == 91 then .expectedListCommaOrEnd else .expectedObjectCommaOrEnd)
          rest)
      else .ok (.more frame stack rest)

def skipKey (rest : List UInt8) : Except JsonFault (List UInt8) := do
  let rest := skipJsonBlanks rest
  let r ← match rest with
    | 34 :: r => skipString r
    | _ :: _ => throw (.ahead .keyMustBeString rest)
    | [] => throw (.ahead .eofObject [])
  let r := skipJsonBlanks r
  match r with
  | 58 :: r' => pure r'
  | _ :: _ => throw (.ahead .expectedColon r)
  | [] => throw (.ahead .eofObject [])

/-- Check one value of any depth: `stack` holds the brackets around it, innermost first. -/
def skipValueGo : Nat → List UInt8 → Option UInt8 → List UInt8 → Except JsonFault (List UInt8)
  | 0, _, _, rest => .error (.here .eofValue rest)
  | fuel + 1, stack, enclosing, rest => do
    let rest := skipJsonBlanks rest
    let (opened, r) ← match rest with
      | [] => throw (JsonFault.ahead .eofValue [])
      | b :: r =>
        if b == 110 then (none, ·) <$> readKeyword [117, 108, 108] r
        else if b == 116 then (none, ·) <$> readKeyword [114, 117, 101] r
        else if b == 102 then (none, ·) <$> readKeyword [97, 108, 115, 101] r
        else if b == 45 then (none, ·) <$> skipNumber r
        else if isDigitByte b then (none, ·) <$> skipNumber rest
        else if b == 34 then (none, ·) <$> skipString r
        else if b == 91 || b == 123 then pure (some b, r)
        else throw (.ahead .expectedValue rest)
    let stack := match opened, enclosing with
      | some _, some e => e :: stack
      | _, _ => stack
    let step ← match opened, enclosing with
      | some f, _ => skipCloses (r.length + 1) false f stack r
      | none, some f => skipCloses (r.length + 1) true f stack r
      | none, none => pure (.done r)
    match step with
    | .done r' => pure r'
    | .more frame stack r' =>
      let r'' ← if frame == 123 then skipKey r' else pure r'
      skipValueGo fuel stack (some frame) r''

def skipValue (rest : List UInt8) : Except JsonFault (List UInt8) :=
  skipValueGo (rest.length + 1) [] none rest

end ChangeLedger
