import ChangeLedger.Batch.Batcher
import ChangeLedger.Table.Query
/-! # The batched store

A `Store` queues row writes and commits each queue as one transaction (`Store.flush`) when it is
due: at `limit` rows, or when forced and not empty. A commit that fails changes nothing in the
database, and the queue is emptied either way.

What a store knows of a key (`Store.lookup`) is, in order: its newest queued update (with the
deletion marker read from the database), its newest queued insert, or its committed row. An update
of a key with a queued insert replaces that insert (`Store.update`).

A store's connection keeps the write statements it has prepared and the schema it compiles them
against (`Connection`). That schema is read again only when a statement runs, or when one fails to
compile against it: a commit of no rows runs no statement, so it succeeds while the connection
still has the table in its schema, dropped or not. Shutting down commits both queues, insert
first, once; failures there are not reported.
-/
namespace ChangeLedger

inductive StoreError
  | database (e : DbError)
  deriving DecidableEq, Repr

def StoreError.message : StoreError → String
  | .database e => "Database error: " ++ e.message

/-- What a store's connection keeps between calls: its prepared write statements, and whether
the schema it compiles them against has the table. -/
structure Connection where
  prepared : List BatchKind := []
  hasTable : Bool := true
  deriving Repr

namespace Connection

/-- After running a statement the connection's schema is the database's. -/
def refresh (c : Connection) (db : Database) : Connection := { c with hasTable := db.table.isSome }

/-- Prepare the write statement of `kind`: reuse a prepared one, or compile it against the
connection's schema; without the table there, the compile reads the database's schema. -/
def prepare (c : Connection) (db : Database) (kind : BatchKind) : Except DbError Connection :=
  if c.prepared.contains kind then .ok c
  else if c.hasTable then .ok { c with prepared := kind :: c.prepared }
  else (db.rows).map fun _ => { prepared := kind :: c.prepared, hasTable := true }

end Connection

/-- A store: its queues, whether it was shut down, and its connection. -/
structure Store where
  queues : Batcher
  closed : Bool := false
  conn : Connection := {}
  deriving Repr

structure StoreStep (α : Type) where
  result : Except StoreError α
  store : Store
  db : Database

namespace Store

def fresh (limit : Nat) : Store := { queues := Batcher.empty limit }

def statement : BatchKind → Database → RowWrite → Except DbError Database
  | .insert => Database.upsert
  | .update => Database.rewrite

/-- Commit the queue of `kind` if it is due. -/
def flush (s : Store) (db : Database) (kind : BatchKind) (force : Bool) : StoreStep Unit :=
  if s.queues.isDue kind force then
    let (rows, q) := s.queues.take kind
    let s := { s with queues := q }
    match s.conn.prepare db kind with
    | .error e => ⟨.error (.database e), s, db⟩
    | .ok c =>
      if rows.isEmpty then ⟨.ok (), { s with conn := c }, db⟩
      else
        let s := { s with conn := c.refresh db }
        match db.applyAll (statement kind) rows with
        | .ok db' => ⟨.ok (), s, db'⟩
        | .error e => ⟨.error (.database e), s, db⟩
  else ⟨.ok (), s, db⟩

/-- What the store knows of a key: queued update, queued insert, committed row. -/
def lookup (s : Store) (db : Database) (key : RecordKey) : Except StoreError (Option RecordTimes) :=
  match s.queues.pendingRow key with
  | some (.insert, t) => .ok (some t)
  | some (.update, t) => match db.deletedAt? key with
    | .ok d => .ok (some { t with deletedAt := d })
    | .error e => .error (.database e)
  | none => match db.times? key with
    | .ok t => .ok t
    | .error e => .error (.database e)

/-- The store after a lookup of `key`: one that reads the database runs a statement. -/
def afterLookup (s : Store) (db : Database) (key : RecordKey) : Store :=
  match s.queues.pendingRow key with
  | some (.insert, _) => s
  | _ => { s with conn := s.conn.refresh db }

def lookupStep (s : Store) (db : Database) (key : RecordKey) : StoreStep (Option RecordTimes) :=
  ⟨s.lookup db key, s.afterLookup db key, db⟩

/-- Queue an insert and commit the insert queue if it is now full. -/
def insert (s : Store) (db : Database) (w : RowWrite) : StoreStep Unit :=
  let s := { s with queues := (s.queues.enqueue .insert w).1 }
  s.flush db .insert false

/-- Fold an update into a queued insert of its key, or queue it and commit a full update queue. -/
def update (s : Store) (db : Database) (w : RowWrite) : StoreStep Unit :=
  match s.queues.foldIntoInsert? w with
  | some q => ⟨.ok (), { s with queues := q }, db⟩
  | none =>
    let s := { s with queues := (s.queues.enqueue .update w).1 }
    s.flush db .update false

/-- Commit both queues, insert first, the first time only; forget the prepared statements. -/
def shutdown (s : Store) (db : Database) : Store × Database :=
  if s.closed then (s, db)
  else
    let s := { s with closed := true }
    let a := s.flush db .insert true
    let b := a.store.flush a.db .update true
    ({ b.store with conn := { b.store.conn with prepared := [] } }, b.db)

/-- Dropping a store shuts it down unless it already was. -/
def drop (s : Store) (db : Database) : Database := (s.shutdown db).2

def pendingCounts (s : Store) : Nat × Nat := (s.queues.pending .insert, s.queues.pending .update)

end Store

end ChangeLedger
