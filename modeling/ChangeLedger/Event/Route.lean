import ChangeLedger.Hash.SipHash
import ChangeLedger.Record.Basic
/-! # Routing records to workers

Each key goes to one worker slot, so that all events of a record are tracked by the same worker,
in order. The slot is the SipHash-1-3 (keys zero) of the namespace's bytes, a `0xFF` byte, the
id's bytes and another `0xFF`, taken modulo the number of workers (at least one). The `0xFF`
bytes cannot occur inside UTF-8 text, so no two keys feed the hash the same bytes.
-/
namespace ChangeLedger

/-- The bytes a key feeds the hash: each part followed by `0xFF`. -/
def RecordKey.hashInput (k : RecordKey) : List UInt8 :=
  k.ns.toUTF8.toList ++ [0xFF] ++ k.id.toUTF8.toList ++ [0xFF]

def RecordKey.hash (k : RecordKey) : UInt64 := sipHash13 0 0 k.hashInput

/-- The worker slot of a key among `workers` workers (one when `workers` is zero). -/
def RecordKey.slot (k : RecordKey) (workers : Nat) : Nat := k.hash.toNat % max workers 1

theorem RecordKey.slot_lt (k : RecordKey) (workers : Nat) : k.slot workers < max workers 1 :=
  Nat.mod_lt _ (by omega)

end ChangeLedger
