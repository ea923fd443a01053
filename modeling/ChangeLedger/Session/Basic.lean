import ChangeLedger.Tracker.Basic
/-! # Sessions: trackers and stores over one database

A session is one database shared by numbered trackers and bare stores, each on its own pooled
connection, one more connection for queries, and a clock that the caller sets. A slot can be
emptied (its tracker or store dropped, which commits what it still queues unless it was shut
down) and filled again with a fresh one. Using an empty or unknown slot is a `SessionError`.

A dropped occupant gives its connection back to the pool, and a fresh one takes the connection
given back last, with the statements it still has prepared and the schema it last read.

`Session.close` drops every tracker, then every store, in slot order.
-/
namespace ChangeLedger

inductive SessionError
  | noTracker (i : Nat)
  | noStore (i : Nat)
  deriving DecidableEq, Repr

def SessionError.message : SessionError → String
  | .noTracker i => "no tracker " ++ toString i
  | .noStore i => "no store " ++ toString i

structure RawRow where
  core : Cell
  id : Cell
  firstIndexed : Cell
  lastIndexed : Cell
  lastChange : Cell
  deleted : Cell
  deriving DecidableEq, Repr

/-- Store a raw row with the columns' coercions, replacing the row of its key. -/
def Database.seed (db : Database) (r : RawRow) : Except DbError Database :=
  db.putRaw r.core r.id r.firstIndexed r.lastIndexed r.lastChange r.deleted

def Database.seedAll (db : Database) : List RawRow → Except DbError Database
  | [] => .ok db
  | r :: rs => do
    let db ← db.seed r
    db.seedAll rs

/-- Trackers and stores over one database, with a settable clock. -/
structure Session where
  db : Database
  clock : Instant
  limit : Nat
  trackers : List (Option Tracker)
  stores : List (Option Store)
  /-- The pool's idle connections, the one given back last first. -/
  idle : List Connection := []

/-- How many connections a pool holds and how many of them are idle. -/
structure PoolState where
  connections : Nat
  idle : Nat
  deriving DecidableEq, Repr

namespace Session

def start (nt ns limit : Nat) (clock : Instant) (seeds : List RawRow) : Except DbError Session := do
  let db ← ({} : Database).seedAll seeds
  pure ⟨db, clock, limit, List.replicate nt (some (Tracker.fresh limit)),
    List.replicate ns (some (Store.fresh limit)), []⟩

/-- The idle connections once the old occupant of a slot is dropped. -/
def giveBack (s : Session) : Option Store → List Connection
  | some st => (st.shutdown s.db).1.conn :: s.idle
  | none => s.idle

/-- The connection a new occupant takes from the pool, and the idle ones left. -/
def takeIdle : List Connection → Connection × List Connection
  | c :: rest => (c, rest)
  | [] => ({}, [])

def tracker (s : Session) (i : Nat) : Except SessionError Tracker :=
  match s.trackers[i]? with
  | some (some t) => .ok t
  | _ => .error (.noTracker i)

def store (s : Session) (i : Nat) : Except SessionError Store :=
  match s.stores[i]? with
  | some (some st) => .ok st
  | _ => .error (.noStore i)

def onTracker {α : Type} (s : Session) (i : Nat) (f : Tracker → Database → α × Tracker × Database) :
    Except SessionError α × Session :=
  match s.tracker i with
  | .error e => (.error e, s)
  | .ok t =>
    let (a, t, db) := f t s.db
    (.ok a, { s with trackers := s.trackers.set i (some t), db := db })

def onStore {α : Type} (s : Session) (i : Nat) (f : Store → Database → StoreStep α) :
    Except SessionError (Except StoreError α) × Session :=
  match s.store i with
  | .error e => (.error e, s)
  | .ok st =>
    let r := f st s.db
    (.ok r.result, { s with stores := s.stores.set i (some r.store), db := r.db })

def lookupStore (s : Session) (i : Nat) (key : RecordKey) :
    Except SessionError (Except StoreError (Option RecordTimes)) × Session :=
  s.onStore i fun st db => st.lookupStep db key

def track (s : Session) (i : Nat) (key : RecordKey) (changedAt : Instant) :
    Except SessionError (Except TrackerError TrackOutcome) × Session :=
  s.onTracker i fun t db =>
    let r := t.track db key changedAt s.clock
    (r.result, r.tracker, r.db)

/-- The committed rows, read through tracker `i`'s own connection, which reads the schema again. -/
def trackerRows (s : Session) (i : Nat) : Except SessionError (Except DbError (List Row)) × Session :=
  s.onTracker i fun t db =>
    (db.dump, { t with store := { t.store with conn := t.store.conn.refresh db } }, db)

def trackerPending (s : Session) (i : Nat) : Except SessionError (Nat × Nat) :=
  (s.tracker i).map (·.store.pendingCounts)

def storePending (s : Session) (i : Nat) : Except SessionError (Nat × Nat) :=
  (s.store i).map (·.pendingCounts)

def shutdownTracker (s : Session) (i : Nat) : Except SessionError Unit × Session :=
  s.onTracker i fun t db => let (t, db) := t.shutdown db; ((), t, db)

def shutdownStore (s : Session) (i : Nat) : Except SessionError Unit × Session :=
  let (r, s) := s.onStore i fun st db => let (st, db) := st.shutdown db; ⟨.ok (), st, db⟩
  (r.map fun _ => (), s)

def dropTracker (s : Session) (i : Nat) : Except SessionError Unit × Session :=
  match s.trackers[i]? with
  | none => (.error (.noTracker i), s)
  | some old =>
    let db := match old with
      | some t => t.store.drop s.db
      | none => s.db
    (.ok (), { s with
      trackers := s.trackers.set i none, db := db, idle := s.giveBack (old.map (·.store)) })

def dropStore (s : Session) (i : Nat) : Except SessionError Unit × Session :=
  match s.stores[i]? with
  | none => (.error (.noStore i), s)
  | some old =>
    let db := match old with
      | some st => st.drop s.db
      | none => s.db
    (.ok (), { s with stores := s.stores.set i none, db := db, idle := s.giveBack old })

/-- Put a fresh tracker in slot `i`, dropping the one there. -/
def reopenTracker (s : Session) (i : Nat) : Except SessionError Unit × Session :=
  match s.trackers[i]? with
  | none => (.error (.noTracker i), s)
  | some old =>
    let db := match old with
      | some t => t.store.drop s.db
      | none => s.db
    let taken := takeIdle (s.giveBack (old.map (·.store)))
    (.ok (), { s with
      trackers := s.trackers.set i (some { store := { Store.fresh s.limit with conn := taken.1 } }),
      db := db, idle := taken.2 })

def reopenStore (s : Session) (i : Nat) : Except SessionError Unit × Session :=
  match s.stores[i]? with
  | none => (.error (.noStore i), s)
  | some old =>
    let db := match old with
      | some st => st.drop s.db
      | none => s.db
    let taken := takeIdle (s.giveBack old)
    (.ok (), { s with
      stores := s.stores.set i (some { Store.fresh s.limit with conn := taken.1 }), db := db,
      idle := taken.2 })

/-- The pool: one connection per slot and one for queries, idle where a slot is empty. -/
def pool (s : Session) : PoolState :=
  ⟨s.trackers.length + s.stores.length + 1,
    (s.trackers.filter Option.isNone).length + (s.stores.filter Option.isNone).length⟩

/-- Drop every tracker, then every store, in slot order. -/
def close (s : Session) : Database :=
  let db := s.trackers.foldl (fun db t => match t with
    | some t => t.store.drop db
    | none => db) s.db
  s.stores.foldl (fun db st => match st with
    | some st => st.drop db
    | none => db) db

end Session

end ChangeLedger
