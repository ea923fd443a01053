import ChangeLedger.Store.Basic
/-! # The tracker

A tracker takes one event at a time, a key and the time the record last changed, and decides:

* an empty namespace or id is refused, and nothing else happens;
* the same key as the last accepted call is `repeated`: nothing is read or written;
* an unknown key is `inserted`, first and last seen now;
* a known key is rewritten when it carries a deletion marker (`restored`), has no last-change
  time, or its last change differs from the event's by a whole second or more (`updated`);
  otherwise it is `unchanged`. A rewrite keeps the first-seen time (now, if there was none).

The tracker remembers the last key and its times, for `firstSeen` and `lastSeen`. A storage
failure makes it forget both.
-/
namespace ChangeLedger

/-- Why tracking failed. -/
inductive TrackerError
  | emptyNamespace
  | emptyId
  /-- No record has been tracked, or the last attempt failed. -/
  | noCurrentRecord
  | storage (e : StoreError)
  deriving DecidableEq, Repr

def TrackerError.message : TrackerError → String
  | .emptyNamespace => "invalid record identity: namespace cannot be empty"
  | .emptyId => "invalid record identity: id cannot be empty"
  | .noCurrentRecord => "no record has been tracked yet"
  | .storage e => "storage error: " ++ e.message

/-- A record needs a write: it is marked deleted, has no last change, or its last change is at
least a whole second (1000 ms, truncated) away from `changedAt`. -/
def RecordTimes.needsWrite (stored : RecordTimes) (changedAt : Instant) : Bool :=
  stored.deletedAt.isSome ||
    match stored.lastChanged with
    | none => true
    | some previous => (Instant.millisBetween previous changedAt).natAbs > 999

/-- A tracker: its store, and the last key with its times. -/
structure Tracker where
  store : Store
  current : Option RecordKey := none
  times : Option RecordTimes := none
  deriving Repr

structure TrackStep where
  result : Except TrackerError TrackOutcome
  tracker : Tracker
  db : Database

namespace Tracker

def fresh (limit : Nat) : Tracker := { store := Store.fresh limit }

/-- Look the key up and write what the event calls for, on the store the lookup leaves. The times
are those the store will hold for the key. -/
def apply (t : Tracker) (db : Database) (key : RecordKey) (changedAt now : Instant) :
    Except StoreError TrackOutcome × Tracker × Database :=
  let s := t.store.afterLookup db key
  match t.store.lookup db key with
  | .error e => (.error e, { t with store := s }, db)
  | .ok none =>
    let w : RowWrite := ⟨key, now, now, changedAt⟩
    let r := s.insert db w
    match r.result with
    | .error e => (.error e, { t with store := r.store }, r.db)
    | .ok () => (.ok .inserted, { t with store := r.store, times := some w.times }, r.db)
  | .ok (some stored) =>
    if stored.needsWrite changedAt then
      let w : RowWrite := ⟨key, stored.firstSeen.getD now, now, changedAt⟩
      let r := s.update db w
      match r.result with
      | .error e => (.error e, { t with store := r.store, times := some stored }, r.db)
      | .ok () =>
        (.ok (if stored.deletedAt.isSome then .restored else .updated),
          { t with store := r.store, times := some w.times }, r.db)
    else (.ok .unchanged, { t with store := s, times := some stored }, db)

def track (t : Tracker) (db : Database) (key : RecordKey) (changedAt now : Instant) : TrackStep :=
  if key.ns.isEmpty then ⟨.error .emptyNamespace, t, db⟩
  else if key.id.isEmpty then ⟨.error .emptyId, t, db⟩
  else if t.current = some key then ⟨.ok .repeated, t, db⟩
  else
    match { t with current := some key }.apply db key changedAt now with
    | (.ok o, t', db') => ⟨.ok o, t', db'⟩
    | (.error e, t', db') => ⟨.error (.storage e), { t' with current := none, times := none }, db'⟩

/-- The first-seen time of the last record, whole seconds. -/
def firstSeen (t : Tracker) : Except TrackerError String :=
  match t.times.bind (·.firstSeen) with
  | some i => .ok i.toSecondsText
  | none => .error .noCurrentRecord

def lastSeen (t : Tracker) : Except TrackerError String :=
  match t.times.bind (·.lastSeen) with
  | some i => .ok i.toSecondsText
  | none => .error .noCurrentRecord

def shutdown (t : Tracker) (db : Database) : Tracker × Database :=
  let (s, db) := t.store.shutdown db
  ({ t with store := s }, db)

end Tracker

end ChangeLedger
