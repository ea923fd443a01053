/-! # SipHash-1-3

The keyed hash SipHash with one compression round per 8-byte block and three finalization rounds,
over a byte string. Blocks are read little-endian; the last block carries the message length
modulo 256 in its top byte.
-/
namespace ChangeLedger

structure SipState where
  v0 : UInt64
  v1 : UInt64
  v2 : UInt64
  v3 : UInt64
  deriving Repr

namespace SipState

def rotl (x : UInt64) (n : UInt64) : UInt64 := (x <<< n) ||| (x >>> (64 - n))

def init (k0 k1 : UInt64) : SipState :=
  ⟨k0 ^^^ 0x736f6d6570736575, k1 ^^^ 0x646f72616e646f6d,
    k0 ^^^ 0x6c7967656e657261, k1 ^^^ 0x7465646279746573⟩

def round (s : SipState) : SipState :=
  let v0 := s.v0 + s.v1
  let v1 := rotl s.v1 13 ^^^ v0
  let v0 := rotl v0 32
  let v2 := s.v2 + s.v3
  let v3 := rotl s.v3 16 ^^^ v2
  let v0 := v0 + v3
  let v3 := rotl v3 21 ^^^ v0
  let v2 := v2 + v1
  let v1 := rotl v1 17 ^^^ v2
  let v2 := rotl v2 32
  ⟨v0, v1, v2, v3⟩

def absorbWord (s : SipState) (m : UInt64) : SipState :=
  let t := round { s with v3 := s.v3 ^^^ m }
  { t with v0 := t.v0 ^^^ m }

def wordOf (bs : List UInt8) : UInt64 :=
  bs.foldr (fun b acc => (acc <<< 8) ||| b.toUInt64) 0

/-- Absorb every whole 8-byte block; the remaining bytes are returned. -/
def absorbBlocks (s : SipState) : List UInt8 → SipState × List UInt8
  | b0 :: b1 :: b2 :: b3 :: b4 :: b5 :: b6 :: b7 :: rest =>
    absorbBlocks (s.absorbWord (wordOf [b0, b1, b2, b3, b4, b5, b6, b7])) rest
  | tail => (s, tail)

def finish (s : SipState) : UInt64 :=
  let s := { s with v2 := s.v2 ^^^ 0xff }
  let s := s.round.round.round
  s.v0 ^^^ s.v1 ^^^ s.v2 ^^^ s.v3

end SipState

/-- SipHash-1-3 of `msg` under keys `k0`, `k1`. -/
def sipHash13 (k0 k1 : UInt64) (msg : List UInt8) : UInt64 :=
  let (s, tail) := (SipState.init k0 k1).absorbBlocks msg
  let last := (msg.length.toUInt64 <<< 56) ||| SipState.wordOf tail
  (s.absorbWord last).finish

end ChangeLedger
