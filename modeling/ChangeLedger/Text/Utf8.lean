/-! # Checking UTF-8

`checkUtf8 bytes` finds the first place where `bytes` stop being well-formed UTF-8. A fault says
how many bytes before it are valid and how long the bad sequence there is; the length is `none`
when the bytes end in the middle of a sequence that could still be completed.

Well-formed sequences are those of the Unicode table: a lead byte `C2`–`F4` opens a sequence of
two to four bytes, and its second byte is restricted so that there are no overlong forms, no
surrogates and nothing past U+10FFFF. The length of a bad sequence counts the bytes that were
accepted before the one that broke it, so it is 1, 2 or 3.
-/
namespace ChangeLedger

/-- Where UTF-8 breaks: the valid prefix's length, and the bad sequence's (`none` at the end). -/
structure Utf8Fault where
  validUpTo : Nat
  errorLen : Option Nat
  deriving DecidableEq, Repr

def Utf8Fault.message : Utf8Fault → String
  | ⟨i, some n⟩ => "invalid utf-8 sequence of " ++ toString n ++ " bytes from index " ++ toString i
  | ⟨i, none⟩ => "incomplete utf-8 byte sequence from index " ++ toString i

def isContinuationByte (b : UInt8) : Bool := 0x80 ≤ b && b ≤ 0xBF

def sequenceWidth (b : UInt8) : Nat :=
  if b < 0x80 then 1
  else if 0xC2 ≤ b && b ≤ 0xDF then 2
  else if 0xE0 ≤ b && b ≤ 0xEF then 3
  else if 0xF0 ≤ b && b ≤ 0xF4 then 4
  else 0

def secondByteFits (first second : UInt8) : Bool :=
  if first == 0xE0 then 0xA0 ≤ second && second ≤ 0xBF
  else if first == 0xED then 0x80 ≤ second && second ≤ 0x9F
  else if first == 0xF0 then 0x90 ≤ second && second ≤ 0xBF
  else if first == 0xF4 then 0x80 ≤ second && second ≤ 0x8F
  else isContinuationByte second

/-- The length of the sequence `b` opens before `rest`, or of the bad sequence there. -/
def sequenceAt (b : UInt8) (rest : List UInt8) : Except (Option Nat) Nat :=
  match sequenceWidth b, rest with
  | 1, _ => .ok 1
  | 2, c :: _ => if isContinuationByte c then .ok 2 else .error (some 1)
  | 3, c :: r =>
    if !secondByteFits b c then .error (some 1)
    else match r with
      | d :: _ => if isContinuationByte d then .ok 3 else .error (some 2)
      | [] => .error none
  | 4, c :: r =>
    if !secondByteFits b c then .error (some 1)
    else match r with
      | d :: e :: _ =>
        if !isContinuationByte d then .error (some 2)
        else if isContinuationByte e then .ok 4 else .error (some 3)
      | [d] => if isContinuationByte d then .error none else .error (some 2)
      | [] => .error none
  | 0, _ => .error (some 1)
  | _, [] => .error none
  | _, _ :: _ => .error (some 1)

/-- The first fault in `bytes`, which start `offset` bytes in; every step consumes a byte. -/
def checkUtf8From : Nat → Nat → List UInt8 → Option Utf8Fault
  | 0, _, _ => none
  | _ + 1, _, [] => none
  | fuel + 1, offset, b :: rest =>
    match sequenceAt b rest with
    | .error len => some ⟨offset, len⟩
    | .ok n => checkUtf8From fuel (offset + n) (rest.drop (n - 1))

/-- The first place where `bytes` are not UTF-8, if any. -/
def checkUtf8 (bytes : List UInt8) : Option Utf8Fault := checkUtf8From bytes.length 0 bytes

end ChangeLedger
