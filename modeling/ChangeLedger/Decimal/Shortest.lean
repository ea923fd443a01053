/-! # Shortest decimal text of a double

`shortestDecimal` finds, for a finite positive double, the decimal `c · 10^p` with the fewest
significant digits that reads back as the same double (a value strictly inside the rounding
interval, or on its edge when the significand is even), and of those the nearest. It works in
exact natural arithmetic on the double's magnitude in units of `2^-1076`.

`positionalText` writes such a decimal without an exponent (`1500`, `0.015`, `1.5`).
-/
namespace ChangeLedger

/-- A finite double's magnitude and the edges of its rounding interval, in units of `2^-1076`. -/
def roundingInterval (bits : UInt64) : Nat × Nat × Nat × Bool :=
  let e := (bits.toNat / Nat.pow 2 52) % 2048
  let f := bits.toNat % Nat.pow 2 52
  let (m, q) := if e = 0 then (f, 0) else (Nat.pow 2 52 + f, e - 1)
  let v := 4 * m * Nat.pow 2 q
  let below := if f = 0 ∧ e > 1 then Nat.pow 2 q else 2 * Nat.pow 2 q
  (v - below, v, v + 2 * Nat.pow 2 q, m % 2 == 0)

def magnitudeScale : Nat := Nat.pow 2 1076

def scaledSides (c : Nat) (p : Int) (x : Nat) : Nat × Nat :=
  if p ≥ 0 then (c * Nat.pow 10 p.toNat * magnitudeScale, x)
  else (c * magnitudeScale, x * Nat.pow 10 (-p).toNat)

def inInterval (lo hi : Nat) (incl : Bool) (c : Nat) (p : Int) : Bool :=
  let (a, l) := scaledSides c p lo
  let (b, h) := scaledSides c p hi
  (if incl then l ≤ a else l < a) && (if incl then b ≤ h else b < h)

def gridFloor (v : Nat) (p : Int) : Nat :=
  if p ≥ 0 then v / (Nat.pow 10 p.toNat * magnitudeScale) else v * Nat.pow 10 (-p).toNat / magnitudeScale

def gridDistance (v : Nat) (c : Nat) (p : Int) : Nat :=
  let (a, x) := scaledSides c p v
  if a ≤ x then x - a else a - x

def decimalExponent (v : Nat) : Int :=
  if magnitudeScale ≤ v then ((toString (v / magnitudeScale)).length : Int) - 1
  else
    let rec go : Nat → Nat → Int
      | 0, k => -(k : Int)
      | fuel + 1, k => if magnitudeScale ≤ v * Nat.pow 10 k then -(k : Int) else go fuel (k + 1)
    go 400 1

/-- The shortest decimal `(c, p)` that reads back as the double, nearest of those. -/
def shortestDecimal (bits : UInt64) : Nat × Int :=
  let (lo, v, hi, incl) := roundingInterval bits
  let e := decimalExponent v
  let rec search : Nat → Nat → Nat × Int
    | 0, _ => (gridFloor v (e - 16), e - 16)
    | fuel + 1, d =>
      let p := e - (d : Int) + 1
      let c := gridFloor v p
      let a := inInterval lo hi incl c p
      let b := inInterval lo hi incl (c + 1) p
      if a && b then
        if gridDistance v (c + 1) p < gridDistance v c p then (c + 1, p) else (c, p)
      else if a then (c, p)
      else if b then (c + 1, p)
      else search fuel (d + 1)
  search 17 1

def stripZeros (c : Nat) (p : Int) : Nat → Nat × Int
  | 0 => (c, p)
  | fuel + 1 => if c ≠ 0 ∧ c % 10 = 0 then stripZeros (c / 10) (p + 1) fuel else (c, p)

def positionalText (c : Nat) (p : Int) : String :=
  let (c, p) := stripZeros c p 400
  let ds := toString c
  if p ≥ 0 then ds ++ String.ofList (List.replicate p.toNat '0')
  else
    let point := (ds.length : Int) + p
    if point > 0 then
      String.ofList (ds.toList.take point.toNat) ++ "." ++ String.ofList (ds.toList.drop point.toNat)
    else "0." ++ String.ofList (List.replicate (-point).toNat '0') ++ ds

/-- A double written positionally with the fewest digits; `inf`, `-inf` and `NaN` otherwise. -/
def floatPositional (x : Float) : String :=
  let bits := x.toBits
  let sign := if bits.toNat ≥ Nat.pow 2 63 then "-" else ""
  let mag := bits &&& 0x7FFFFFFFFFFFFFFF
  if mag = 0 then sign ++ "0"
  else if mag = 0x7FF0000000000000 then sign ++ "inf"
  else if mag > 0x7FF0000000000000 then "NaN"
  else
    let (c, p) := shortestDecimal mag
    sign ++ positionalText c p

def exponentText (k : Int) : String := if k ≥ 0 then "+" ++ toString k else toString k

/-- `c · 10^p` in the compact layout: positional when the point falls near the digits, else
with an exponent. -/
def compactText (c : Nat) (p : Int) : String :=
  let (c, p) := stripZeros c p 400
  let ds := toString c
  let n : Int := ds.length
  let point := n + p
  let zeros (k : Int) := String.ofList (List.replicate k.toNat '0')
  if 0 ≤ p ∧ point ≤ 16 then ds ++ zeros p ++ ".0"
  else if 0 < point ∧ point ≤ 16 then
    String.ofList (ds.toList.take point.toNat) ++ "." ++ String.ofList (ds.toList.drop point.toNat)
  else if -5 < point ∧ point ≤ 0 then "0." ++ zeros (-point) ++ ds
  else if n = 1 then ds ++ "e" ++ exponentText (point - 1)
  else String.ofList (ds.toList.take 1) ++ "." ++ String.ofList (ds.toList.drop 1) ++ "e" ++
    exponentText (point - 1)

/-- A finite double in the compact layout with the fewest digits; zero is `0.0` (or `-0.0`). -/
def floatCompact (x : Float) : String :=
  let bits := x.toBits
  let sign := if bits.toNat ≥ Nat.pow 2 63 then "-" else ""
  let mag := bits &&& 0x7FFFFFFFFFFFFFFF
  if mag = 0 then sign ++ "0.0"
  else
    let (c, p) := shortestDecimal mag
    sign ++ compactText c p

end ChangeLedger
