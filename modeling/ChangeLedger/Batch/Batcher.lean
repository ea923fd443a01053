import ChangeLedger.Batch.Basic
import ChangeLedger.Record.Basic
/-! # The two write queues

A `Batcher` holds the row writes not yet committed: inserts and updates, each in its own batch
with the same limit. An update for a key whose insert is still queued is folded into that insert
(`Batcher.foldIntoInsert?`), so an update never runs ahead of the insert it depends on.
`Batcher.pendingRow` is what the queues know of a key: the newest queued update, else the newest
queued insert.
-/
namespace ChangeLedger

inductive BatchKind
  | insert
  | update
  deriving DecidableEq, Repr, Inhabited

def BatchKind.name : BatchKind → String
  | .insert => "insert"
  | .update => "update"

/-- Queued inserts and updates. -/
structure Batcher where
  inserts : Batch RowWrite
  updates : Batch RowWrite
  deriving Repr

namespace Batcher

def empty (limit : Nat) : Batcher := ⟨Batch.empty limit, Batch.empty limit⟩

def batch (q : Batcher) : BatchKind → Batch RowWrite
  | .insert => q.inserts
  | .update => q.updates

def setBatch (q : Batcher) : BatchKind → Batch RowWrite → Batcher
  | .insert, b => { q with inserts := b }
  | .update, b => { q with updates := b }

def enqueue (q : Batcher) (kind : BatchKind) (w : RowWrite) : Batcher × Bool :=
  let b := (q.batch kind).push w
  (q.setBatch kind b, b.isReady)

/-- Put an update in place of the newest queued insert of its key, if one is queued. -/
def foldIntoInsert? (q : Batcher) (w : RowWrite) : Option Batcher :=
  (q.inserts.modifyLast? (fun p => p.key == w.key) (fun _ => w)).map
    fun b => { q with inserts := b }

def isDue (q : Batcher) (kind : BatchKind) (force : Bool) : Bool := (q.batch kind).isDue force

/-- The rows of a kind in queue order, and the queues with that one emptied. -/
def take (q : Batcher) (kind : BatchKind) : List RowWrite × Batcher :=
  let (rows, b) := (q.batch kind).drain
  (rows, q.setBatch kind b)

def pending (q : Batcher) (kind : BatchKind) : Nat := (q.batch kind).size

/-- The newest queued update of a key, else its newest queued insert, with the kind. -/
def pendingRow (q : Batcher) (key : RecordKey) : Option (BatchKind × RecordTimes) :=
  match q.updates.findLast? (fun w => w.key == key) with
  | some w => some (.update, w.times)
  | none => (q.inserts.findLast? (fun w => w.key == key)).map fun w => (.insert, w.times)

end Batcher

end ChangeLedger
