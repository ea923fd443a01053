import ChangeLedger.Time.Read
import ChangeLedger.Table.NumberText
/-! # Table cells

A cell holds nothing, an integer, a real (a double, kept as its bits) or text. Cells are ordered
the way the table sorts them: nothing first, then numbers by value (integers and reals compared
exactly), then text byte by byte (UTF-8 order, which is the order of code points). A text is
greater than every number, and nothing is greater than anything.

Columns declare how stored values are coerced (`Affinity`): key columns keep text and write
integers as decimal text; time columns store text that spells a number as that number
(`readNumberText`).
-/
namespace ChangeLedger

/-- A value in one column of one row. -/
inductive Cell
  | null
  | integer (i : Int)
  /-- A double, by its IEEE 754 binary64 bits. -/
  | real (bits : UInt64)
  | text (s : String)
  deriving DecidableEq, Repr, Inhabited

namespace Cell

def className : Cell → String
  | .null => "Null"
  | .integer _ => "Integer"
  | .real _ => "Real"
  | .text _ => "Text"

def isNull : Cell → Bool
  | .null => true
  | _ => false

def rank : Cell → Nat
  | .null => 0
  | .integer _ | .real _ => 1
  | .text _ => 2

/-- A finite double's value times `2^1074`, exactly; none for the infinities and NaN. -/
def scaledReal? (bits : UInt64) : Option Int :=
  let b : Nat := bits.toNat
  let biased : Nat := b / Nat.pow 2 52 % 2048
  let fraction : Nat := b % Nat.pow 2 52
  if biased = 2047 then none
  else
    let m : Nat := if biased = 0 then fraction else Nat.pow 2 52 + fraction
    let v : Int := (m * Nat.pow 2 (max biased 1 - 1) : Nat)
    some (if b ≥ Nat.pow 2 63 then -v else v)

/-- A number's place on the number line: the infinities at `(-1, 0)` and `(1, 0)`, finite `v` at `(0, v)`. -/
def numberKey : Cell → Int × Int
  | .integer i => (0, i * Int.pow 2 1074)
  | .real bits => match scaledReal? bits with
    | some v => (0, v)
    | none => (if bits.toNat ≥ Nat.pow 2 63 then -1 else 1, 0)
  | _ => (0, 0)

/-- The sort order of cells. -/
def compare (a b : Cell) : Ordering :=
  match a, b with
  | .integer x, .integer y => Ord.compare x y
  | .text x, .text y => Ord.compare x y
  | _, _ =>
    if a.rank = 1 ∧ b.rank = 1 then
      match Ord.compare a.numberKey.1 b.numberKey.1 with
      | .eq => Ord.compare a.numberKey.2 b.numberKey.2
      | o => o
    else Ord.compare a.rank b.rank

/-- `a > t` for a text `t`: true only for a greater text; nothing and numbers never are. -/
def gtText (a : Cell) (t : String) : Bool :=
  match a with
  | .text s => t < s
  | _ => false

end Cell

/-- How a column coerces the values stored in it. -/
inductive Affinity
  /-- Key columns: integers are stored as their decimal text (only text and integers are ever
  stored in them). -/
  | text
  /-- Time columns: text that spells a number is stored as that number. -/
  | numeric
  deriving DecidableEq, Repr

def Affinity.apply : Affinity → Cell → Cell
  | .text, .integer i => .text (toString i)
  | .numeric, .text s => match readNumberText s with
    | .integer i => .integer i
    | .real bits => .real bits
    | .notNumber => .text s
  | _, c => c

end ChangeLedger
