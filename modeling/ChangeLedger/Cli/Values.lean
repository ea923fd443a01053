import ChangeLedger.Cli.Spec
/-! # Value checks

Checks for the kinds of values the command lines take, with the wording of their failures:

* unsigned integers: an optional `+`, then decimal digits, read left to right, so the first
  character that is not a digit, or the first digit that overflows, decides the failure;
* signed 64-bit integers, which may then be required to lie in a range;
* paths, which must not be empty;
* booleans, which are exactly `true` or `false`.
-/
namespace ChangeLedger

def emptyNumberText : String := "cannot parse integer from empty string"

def invalidDigitText : String := "invalid digit found in string"

def tooLargeText : String := "number too large to fit in target type"

def tooSmallText : String := "number too small to fit in target type"

def readDigitsUpTo (bound : Nat) : List Char → Nat → Except String Nat
  | [], acc => .ok acc
  | c :: cs, acc =>
    if c.isDigit then
      let acc := acc * 10 + (c.toNat - 48)
      if acc > bound then .error tooLargeText else readDigitsUpTo bound cs acc
    else .error invalidDigitText

/-- An unsigned integer at most `bound`, with an optional `+`. -/
def readUnsigned (bound : Nat) (s : String) : Except String Nat :=
  match s.toList with
  | [] => .error emptyNumberText
  | ['+'] | ['-'] => .error invalidDigitText
  | '+' :: ds => readDigitsUpTo bound ds 0
  | ds => readDigitsUpTo bound ds 0

def readNegativeDigits (bound : Nat) : List Char → Nat → Except String Nat
  | [], acc => .ok acc
  | c :: cs, acc =>
    if c.isDigit then
      let acc := acc * 10 + (c.toNat - 48)
      if acc > bound then .error tooSmallText else readNegativeDigits bound cs acc
    else .error invalidDigitText

/-- A signed 64-bit integer, with an optional sign. -/
def readSigned64 (s : String) : Except String Int :=
  match s.toList with
  | [] => .error emptyNumberText
  | ['+'] | ['-'] => .error invalidDigitText
  | '-' :: ds => (readNegativeDigits (Nat.pow 2 63) ds 0).map fun n => -(n : Int)
  | '+' :: ds => (readDigitsUpTo (Nat.pow 2 63 - 1) ds 0).map fun n => (n : Int)
  | ds => (readDigitsUpTo (Nat.pow 2 63 - 1) ds 0).map fun n => (n : Int)

def u64Limit : Nat := Nat.pow 2 64 - 1

def u32Limit : Nat := Nat.pow 2 32 - 1

def unsignedCheck (bound : Nat) (s : String) : Option ValueFault :=
  match readUnsigned bound s with
  | .ok _ => none
  | .error r => some (.refused r)

/-- Check a signed 64-bit integer within `lo..=hi`. -/
def rangedCheck (lo hi : Int) (s : String) : Option ValueFault :=
  match readSigned64 s with
  | .error r => some (.refused r)
  | .ok v =>
    if lo ≤ v ∧ v ≤ hi then none
    else some (.refused (toString v ++ " is not in " ++ toString lo ++ "..=" ++ toString hi))

def pathCheck (s : String) : Option ValueFault := if s.isEmpty then some .missing else none

def boolCheck (s : String) : Option ValueFault :=
  if s = "true" ∨ s = "false" then none else some (.notOneOf ["true", "false"])

end ChangeLedger
