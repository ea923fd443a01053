/-! # Numbers spelled in text

A column of numeric affinity stores text that spells a number as that number. This module reads
such text the way the storage engine does.

A text spells a number when it is, between optional blanks (space, tab, line feed, vertical tab,
form feed, carriage return), `[+-]digits[(e|E)[+-]digits]`, `[+-]digits.[digits][(e|E)[+-]digits]`
or `[+-].digits[(e|E)[+-]digits]`. Then:

* a pure integer (no point, no exponent) within the signed 64-bit range is that integer;
* any other number is converted to a double, and a double that is integral and strictly inside
  the signed 64-bit range is that integer, any other double a real.

The conversion follows the engine step by step. At most nineteen significant digits are kept in
a 64-bit significand; later digits only shift the decimal exponent, whose written part is capped
at 10000. The exponent is moved into the significand while that fits. What remains is applied by
multiplying in extended precision (64-bit significands, every product rounded to nearest, ties to
even) by `10^100`, then `10^10`, then `10`, or by the extended values nearest to their
reciprocals. The product rounds to the nearest double, and is infinite when it exceeds the
largest finite double. A text with no exponent left to apply is its significand, rounded once.
-/
namespace ChangeLedger

def isEngineBlank (b : UInt8) : Bool := b == 32 || (9 ≤ b && b ≤ 13)

def isDecimalByte (b : UInt8) : Bool := 48 ≤ b && b ≤ 57

def digitValue (b : UInt8) : Nat := b.toNat - 48

def significandBound : Nat := (Nat.pow 2 64 - 10) / 10

/-- What reading a number text finds. -/
structure NumberScan where
  negative : Bool := false
  significand : Nat := 0
  /-- Decimal places the significand is shifted by: digits left out, less fraction digits kept. -/
  shift : Int := 0
  exponentNegative : Bool := false
  /-- The written exponent, capped at 10000. -/
  exponent : Nat := 0
  /-- False while an exponent mark has no digits after it. -/
  exponentValid : Bool := true
  /-- Digits that went into the significand. -/
  digits : Nat := 0
  /-- 1 for an integer, one more with a point, one more with an exponent. -/
  kind : Nat := 1
  /-- Whether the whole text was read. -/
  complete : Bool := false
  deriving Repr

def scanSign : List UInt8 → Bool × List UInt8
  | 45 :: rest => (true, rest)
  | 43 :: rest => (false, rest)
  | rest => (false, rest)

/-- The digits before a point: kept while the significand is below its bound, then counted. -/
def scanWhole (n : NumberScan) : List UInt8 → NumberScan × List UInt8
  | b :: rest =>
    if isDecimalByte b then
      let s := n.significand * 10 + digitValue b
      let n := { n with significand := s, digits := n.digits + 1 }
      if s ≥ significandBound then
        ({ n with shift := n.shift + (rest.takeWhile isDecimalByte).length },
          rest.dropWhile isDecimalByte)
      else scanWhole n rest
    else (n, b :: rest)
  | [] => (n, [])

def scanFractionDigits (n : NumberScan) : List UInt8 → NumberScan × List UInt8
  | b :: rest =>
    if isDecimalByte b then
      let n := if n.significand < significandBound then
          { n with significand := n.significand * 10 + digitValue b, shift := n.shift - 1,
                   digits := n.digits + 1 }
        else n
      scanFractionDigits n rest
    else (n, b :: rest)
  | [] => (n, [])

def scanExponent (n : NumberScan) : List UInt8 → NumberScan × List UInt8
  | b :: rest =>
    if isDecimalByte b then
      let e := if n.exponent < 10000 then n.exponent * 10 + digitValue b else 10000
      scanExponent { n with exponent := e, exponentValid := true } rest
    else (n, b :: rest)
  | [] => (n, [])

def scanNumberText (bytes : List UInt8) : NumberScan :=
  match bytes.dropWhile isEngineBlank with
  | [] => {}
  | bs =>
    let (negative, bs) := scanSign bs
    let (n, bs) := scanWhole { negative } bs
    let (n, bs) := match bs with
      | 46 :: rest => scanFractionDigits { n with kind := n.kind + 1 } rest
      | rest => (n, rest)
    let (n, bs) := match bs with
      | b :: rest =>
        if b == 101 || b == 69 then
          let (exponentNegative, rest) := scanSign rest
          scanExponent { n with kind := n.kind + 1, exponentValid := false, exponentNegative } rest
        else (n, b :: rest)
      | [] => (n, [])
    { n with complete := (bs.dropWhile isEngineBlank).isEmpty }

/-- `1` a pure integer, `2` or `3` a point or an exponent, `-1` more text after, `0` no number. -/
def NumberScan.code (n : NumberScan) : Int :=
  if n.complete && n.digits > 0 && n.exponentValid then n.kind
  else if n.kind ≥ 2 && (n.kind == 3 || n.exponentValid) && n.digits > 0 then -1
  else 0

/-- `n / 2^k` rounded to nearest, ties to even. -/
def roundShift (n k : Nat) : Nat :=
  match k with
  | 0 => n
  | k + 1 =>
    let q := n / Nat.pow 2 (k + 1)
    let r := n % Nat.pow 2 (k + 1)
    if r > Nat.pow 2 k || (r == Nat.pow 2 k && q % 2 == 1) then q + 1 else q

/-- A positive extended-precision number `significand · 2^exponent`, significand of 64 bits. -/
structure Extended where
  significand : Nat
  exponent : Int
  deriving Repr

namespace Extended

def round (n : Nat) (x : Int) : Extended :=
  let len := n.log2 + 1
  if len ≤ 64 then ⟨n, x⟩ else ⟨roundShift n (len - 64), x + (len - 64 : Nat)⟩

def mul (a b : Extended) : Extended := round (a.significand * b.significand) (a.exponent + b.exponent)

def mulTimes (a c : Extended) : Nat → Extended
  | 0 => a
  | k + 1 => (a.mul c).mulTimes c k

def pow10 (n : Nat) : Extended := round (Nat.pow 10 n) 0

def invPow10 (n : Nat) : Extended :=
  let d : Nat := Nat.pow 10 n
  let k : Nat := d.log2 + 64
  let q : Nat := Nat.pow 2 k / d
  let r : Nat := Nat.pow 2 k % d
  ⟨if 2 * r > d || (2 * r == d && q % 2 == 1) then q + 1 else q, -(k : Int)⟩

end Extended

def exceedsDoubleMax (m : Nat) (x : Int) : Bool :=
  if x ≥ 971 then m * Nat.pow 2 (x - 971).toNat > Nat.pow 2 53 - 1
  else m > (Nat.pow 2 53 - 1) * Nat.pow 2 (971 - x).toNat

/-- The bits of the double nearest to `m · 2^x`, ties to even; infinite above the largest. -/
def doubleBitsOf (m : Nat) (x : Int) : UInt64 :=
  if m = 0 then 0
  else if exceedsDoubleMax m x then 0x7FF0000000000000
  else
    let e : Int := max (x + m.log2 - 52) (-1074)
    let shift := e - x
    let c := if shift ≤ 0 then m * Nat.pow 2 (-shift).toNat else roundShift m shift.toNat
    let (c, e) := if c = Nat.pow 2 53 then (Nat.pow 2 52, e + 1) else (c, e)
    if c ≥ Nat.pow 2 52 then UInt64.ofNat ((e + 1075).toNat * Nat.pow 2 52 + (c - Nat.pow 2 52))
    else UInt64.ofNat c

def raiseSignificand (s : Nat) (e : Int) : Nat → Nat × Int
  | 0 => (s, e)
  | fuel + 1 =>
    if e > 0 ∧ s < (Nat.pow 2 64 - 1) / 10 then raiseSignificand (s * 10) (e - 1) fuel else (s, e)

def lowerSignificand (s : Nat) (e : Int) : Nat → Nat × Int
  | 0 => (s, e)
  | fuel + 1 => if e < 0 ∧ s % 10 = 0 then lowerSignificand (s / 10) (e + 1) fuel else (s, e)

def NumberScan.valueBits (n : NumberScan) : UInt64 :=
  let sign : UInt64 := if n.negative then 0x8000000000000000 else 0
  if n.significand = 0 then sign
  else
    let e : Int := (if n.exponentNegative then -(n.exponent : Int) else n.exponent) + n.shift
    let (s, e) := raiseSignificand n.significand e 25
    let (s, e) := lowerSignificand s e 25
    let magnitude :=
      if e = 0 then doubleBitsOf s 0
      else
        let start := Extended.round s 0
        let r := if e > 0 then
            let k := e.toNat
            ((start.mulTimes (.pow10 100) (k / 100)).mulTimes (.pow10 10) (k % 100 / 10)).mulTimes
              (.pow10 1) (k % 10)
          else
            let k := (-e).toNat
            ((start.mulTimes (.invPow10 100) (k / 100)).mulTimes (.invPow10 10)
              (k % 100 / 10)).mulTimes (.invPow10 1) (k % 10)
        doubleBitsOf r.significand r.exponent
    sign ||| magnitude

/-- The integer a double holds, when the double is finite and integral. -/
def exactIntOfBits? (bits : UInt64) : Option Int :=
  let b : Nat := bits.toNat
  let biased : Nat := b / Nat.pow 2 52 % 2048
  let fraction : Nat := b % Nat.pow 2 52
  if biased = 2047 then none
  else
    let m : Nat := if biased = 0 then fraction else Nat.pow 2 52 + fraction
    let x : Int := ((max biased 1 : Nat) : Int) - 1075
    let magnitude : Option Nat :=
      if x ≥ 0 then some (m * Nat.pow 2 x.toNat)
      else if m % Nat.pow 2 (-x).toNat = 0 then some (m / Nat.pow 2 (-x).toNat) else none
    magnitude.map fun v => if b ≥ Nat.pow 2 63 then -(v : Int) else v

def int64Low : Int := -(Int.pow 2 63)

def int64High : Int := Int.pow 2 63 - 1

def wholeNumberValue (bytes : List UInt8) : Int :=
  let (negative, bs) := scanSign (bytes.dropWhile isEngineBlank)
  let v := (bs.takeWhile isDecimalByte).foldl (fun acc b => acc * 10 + digitValue b) 0
  if negative then -(v : Int) else v

/-- What a text stored in a numeric column becomes. -/
inductive NumberReading
  | notNumber
  | integer (i : Int)
  | real (bits : UInt64)
  deriving DecidableEq, Repr

/-- Read a text as a numeric column stores it. -/
def readNumberText (s : String) : NumberReading :=
  let bytes := s.toUTF8.toList
  let n := scanNumberText bytes
  if n.code ≤ 0 then .notNumber
  else
    let whole := wholeNumberValue bytes
    if n.code = 1 ∧ int64Low ≤ whole ∧ whole ≤ int64High then .integer whole
    else
      let bits := n.valueBits
      match exactIntOfBits? bits with
      | some i => if int64Low < i ∧ i < int64High then .integer i else .real bits
      | none => .real bits

end ChangeLedger
