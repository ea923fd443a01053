import ChangeLedger.Table.Cell
import ChangeLedger.Record.Basic
/-! # The committed table

The table of tracked records holds one `Row` per key: the key, and four time cells (first
indexed, last indexed, last change, deleted). A `Database` either has the table or not (it can be
dropped and created again). Every statement that touches a missing table fails with
`DbError.noSuchTable` and changes nothing.

The statements the tracker's stores run:

* `Database.upsert`: a new key gets a row without a deletion marker; an existing row keeps its
  first-indexed time and takes the other two, and loses its marker;
* `Database.rewrite`: an existing row takes all three times and loses its marker; a missing key
  is left missing;
* `Database.markDeleted`: sets the marker of an existing row unless it already has one.
-/
namespace ChangeLedger

/-- Why a statement failed. -/
inductive DbError
  /-- The table does not exist. -/
  | noSuchTable
  /-- A key column was given nothing. -/
  | notNull (column : String)
  /-- A time column holds a cell that is not text. -/
  | invalidColumnType (index : Nat) (column : String) (cls : String)
  /-- A time column holds text that is not a time. -/
  | conversion (index : Nat) (cause : ReadError)
  deriving DecidableEq, Repr

def DbError.message : DbError → String
  | .noSuchTable => "no such table: change_tracker"
  | .notNull column => "NOT NULL constraint failed: change_tracker." ++ column
  | .invalidColumnType i column cls =>
    "Invalid column type " ++ cls ++ " at index: " ++ toString i ++ ", name: " ++ column
  | .conversion i cause => "Conversion error from type Text at index: " ++ toString i ++ ", " ++
    cause.message

structure Row where
  key : RecordKey
  firstIndexed : Cell
  lastIndexed : Cell
  lastChange : Cell
  deleted : Cell
  deriving DecidableEq, Repr, Inhabited

def Instant.cell (t : Instant) : Cell := .text t.toStoredText

def RowWrite.toRow (w : RowWrite) : Row :=
  ⟨w.key, w.firstSeen.cell, w.lastSeen.cell, w.lastChanged.cell, .null⟩

/-- Rows in the order they were created; keys are distinct. -/
abbrev Table := List Row

namespace Table

def find? (t : Table) (key : RecordKey) : Option Row := List.find? (fun r => r.key == key) t

def modify (t : Table) (key : RecordKey) (f : Row → Row) : Table :=
  List.map (fun r => if r.key == key then f r else r) t

def put (t : Table) (r : Row) : Table :=
  if (t.find? r.key).isSome then t.modify r.key (fun _ => r) else t ++ [r]

/-- The new or merged row of an insert. -/
def upsert (t : Table) (w : RowWrite) : Table :=
  match t.find? w.key with
  | some _ => t.modify w.key fun r =>
    { r with lastIndexed := w.lastSeen.cell, lastChange := w.lastChanged.cell, deleted := .null }
  | none => t ++ [w.toRow]

/-- The rewritten row of an update; nothing when the key is absent. -/
def rewrite (t : Table) (w : RowWrite) : Table :=
  t.modify w.key fun r =>
    { r with firstIndexed := w.firstSeen.cell, lastIndexed := w.lastSeen.cell,
             lastChange := w.lastChanged.cell, deleted := .null }

def markDeleted (t : Table) (key : RecordKey) (at_ : Instant) : Table :=
  t.modify key fun r => if r.deleted.isNull then { r with deleted := at_.cell } else r

end Table

/-- The store of tracked records: the table, or `none` once it is dropped. -/
structure Database where
  table : Option Table := some []
  deriving DecidableEq, Repr, Inhabited

namespace Database

/-- The table, or the failure of a statement on a missing one. -/
def rows (db : Database) : Except DbError Table :=
  match db.table with
  | some t => .ok t
  | none => .error .noSuchTable

def update (db : Database) (f : Table → Table) : Except DbError Database := do
  let t ← db.rows
  pure { table := some (f t) }

def upsert (db : Database) (w : RowWrite) : Except DbError Database := db.update (·.upsert w)

def rewrite (db : Database) (w : RowWrite) : Except DbError Database := db.update (·.rewrite w)

def markDeleted (db : Database) (key : RecordKey) (at_ : Instant) :
    Except DbError (Database × Bool) := do
  let t ← db.rows
  pure ({ table := some (t.markDeleted key at_) }, (t.find? key).isSome)

def dropTable (db : Database) : Except DbError Database := do
  let _ ← db.rows
  pure { table := none }

def createTable (db : Database) : Database :=
  match db.table with
  | some _ => db
  | none => { table := some [] }

/-- A row given as raw cells, stored with each column's coercion, replacing the row of its key. -/
def putRaw (db : Database) (core id first last change deleted : Cell) :
    Except DbError Database := do
  let t ← db.rows
  let key ← match Affinity.text.apply core, Affinity.text.apply id with
    | .text c, .text i => pure (⟨c, i⟩ : RecordKey)
    | .text _, _ => throw (DbError.notNull "id")
    | _, _ => throw (DbError.notNull "core")
  let r : Row := ⟨key, Affinity.numeric.apply first, Affinity.numeric.apply last,
    Affinity.numeric.apply change, Affinity.numeric.apply deleted⟩
  pure { table := some (t.put r) }

/-- Run every write of a batch in order, as one transaction: all of them or none. -/
def applyAll (db : Database) (step : Database → RowWrite → Except DbError Database) :
    List RowWrite → Except DbError Database
  | [] => .ok db
  | w :: ws => do
    let db ← step db w
    applyAll db step ws

end Database

end ChangeLedger
