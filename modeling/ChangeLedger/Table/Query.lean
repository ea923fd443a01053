import ChangeLedger.Table.Basic
/-! # Reading the committed table

Time cells are read back as instants: nothing is no instant, text is read as stored text, an
integer is refused. A failure names the column's position in the query and, for a refused
class, the column's name.

* `Database.times?`: the four times of one key (positions 0 to 3), as a store looks a key up;
* `Database.deletedAt?`: the deletion marker of one key (position 0);
* `Database.record?`, `changedSince`, `deletedSince`: whole records (times at positions 2 to 5);
* `Database.namespaceCounts`, `Database.dump`.

Ordering is by cells (`Cell.compare`), ties broken by id; comparisons with a `since` instant are
made on its stored text, byte by byte.
-/
namespace ChangeLedger

inductive TimeColumn
  | firstIndexed
  | lastIndexed
  | lastChange
  | deleted
  deriving DecidableEq, Repr

def TimeColumn.name : TimeColumn → String
  | .firstIndexed => "first_indexed"
  | .lastIndexed => "last_indexed"
  | .lastChange => "last_record_change"
  | .deleted => "deleted"

def Row.cell (r : Row) : TimeColumn → Cell
  | .firstIndexed => r.firstIndexed
  | .lastIndexed => r.lastIndexed
  | .lastChange => r.lastChange
  | .deleted => r.deleted

def Cell.toInstant? (c : Cell) (index : Nat) (col : TimeColumn) : Except DbError (Option Instant) :=
  match c with
  | .null => .ok none
  | .text s => match Instant.ofStoredText s with
    | .ok t => .ok (some t)
    | .error e => .error (.conversion index e)
  | other => .error (.invalidColumnType index col.name other.className)

/-- The four times of a row, read from query positions `base` to `base + 3` in column order. -/
def Row.times (r : Row) (base : Nat) : Except DbError RecordTimes := do
  let f ← (r.cell .firstIndexed).toInstant? base .firstIndexed
  let l ← (r.cell .lastIndexed).toInstant? (base + 1) .lastIndexed
  let c ← (r.cell .lastChange).toInstant? (base + 2) .lastChange
  let d ← (r.cell .deleted).toInstant? (base + 3) .deleted
  pure ⟨f, l, c, d⟩

def Row.record (r : Row) : Except DbError TrackedRecord := do
  let t ← r.times 2
  pure ⟨r.key, t⟩

/-- Read rows in order; the first failure wins. -/
def readAll {α : Type} (f : Row → Except DbError α) : List Row → Except DbError (List α)
  | [] => .ok []
  | r :: rs => do
    let a ← f r
    let as ← readAll f rs
    pure (a :: as)

/-- Rows ordered by a time column, then by id. -/
def sortByColumn (col : TimeColumn) (rows : List Row) : List Row :=
  rows.mergeSort fun a b =>
    match (a.cell col).compare (b.cell col) with
    | .lt => true
    | .gt => false
    | .eq => a.key.id ≤ b.key.id

def sortByKey (rows : List Row) : List Row :=
  rows.mergeSort fun a b => a.key.ns < b.key.ns ∨ (a.key.ns = b.key.ns ∧ a.key.id ≤ b.key.id)

structure NamespaceCount where
  ns : String
  active : Nat
  deleted : Nat
  deriving DecidableEq, Repr

namespace Database

/-- The times of a key as a store reads them, or none when the key has no row. -/
def times? (db : Database) (key : RecordKey) : Except DbError (Option RecordTimes) := do
  let t ← db.rows
  match t.find? key with
  | none => pure none
  | some r => some <$> r.times 0

def deletedAt? (db : Database) (key : RecordKey) : Except DbError (Option Instant) := do
  let t ← db.rows
  match t.find? key with
  | none => pure none
  | some r => r.deleted.toInstant? 0 .deleted

def record? (db : Database) (key : RecordKey) : Except DbError (Option TrackedRecord) := do
  let t ← db.rows
  match t.find? key with
  | none => pure none
  | some r => some <$> r.record

/-- Unmarked records of a namespace changed after `since`, by last change then id, up to `limit`. -/
def changedSince (db : Database) (ns : String) (since : Instant) (limit : Option Nat) :
    Except DbError (List TrackedRecord) := do
  let t ← db.rows
  let hits := t.filter fun r => r.key.ns == ns && r.lastChange.gtText since.toStoredText &&
    r.deleted.isNull
  let sorted := sortByColumn .lastChange hits
  readAll Row.record (match limit with | some n => sorted.take n | none => sorted)

/-- Records of a namespace whose deletion marker is after `since`, by marker then id. -/
def deletedSince (db : Database) (ns : String) (since : Instant) :
    Except DbError (List TrackedRecord) := do
  let t ← db.rows
  let hits := t.filter fun r => r.key.ns == ns && r.deleted.gtText since.toStoredText
  readAll Row.record (sortByColumn .deleted hits)

/-- Per namespace, in namespace order, the rows without and with a deletion marker. -/
def namespaceCounts (db : Database) : Except DbError (List NamespaceCount) := do
  let t ← db.rows
  let names := ((sortByKey t).map (·.key.ns)).eraseDups
  pure (names.map fun n =>
    let rs := t.filter (·.key.ns == n)
    ⟨n, (rs.filter (·.deleted.isNull)).length, (rs.filter (!·.deleted.isNull)).length⟩)

def dump (db : Database) : Except DbError (List Row) := do
  let t ← db.rows
  pure (sortByKey t)

end Database

end ChangeLedger
