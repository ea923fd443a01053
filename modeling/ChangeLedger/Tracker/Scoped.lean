import ChangeLedger.Tracker.Basic
import ChangeLedger.Event.Line
/-! # Scoped trackers

A scoped use of a tracker hands a fresh tracker to a block, which does with it what it likes, and
then shuts the tracker down, whatever the block returned, so whatever it still queues is written
(`Tracker.scoped`).

A block of events (`runBlock`) tracks them in order and stops at its first failed call; the
outcomes of the calls before it are kept. Its tracker reads the clock at each call.
-/
namespace ChangeLedger

/-- Run `block` with a fresh tracker and shut the tracker down afterwards: what the block
returned, and the table after the shutdown. -/
def Tracker.scoped {α : Type} (limit : Nat) (db : Database)
    (block : Tracker → Database → α × Tracker × Database) : α × Database :=
  let (a, t, db) := block (Tracker.fresh limit) db
  (a, (t.shutdown db).2)

structure BlockRun where
  result : Except TrackerError Unit
  outcomes : List TrackOutcome
  db : Database

/-- Track events in order from call `i` on, call `j` reading the clock as `clock j`, until one
fails. -/
def trackUntilFailure (clock : Nat → Instant) :
    Nat → Tracker → Database → List TrackOutcome → List RecordEvent →
      (Except TrackerError Unit × List TrackOutcome) × Tracker × Database
  | _, t, db, done, [] => ((.ok (), done.reverse), t, db)
  | i, t, db, done, ev :: evs =>
    let step := t.track db ev.key ev.changedAt (clock i)
    match step.result with
    | .ok o => trackUntilFailure clock (i + 1) step.tracker step.db (o :: done) evs
    | .error e => ((.error e, done.reverse), step.tracker, step.db)

def runBlock (limit : Nat) (clock : Nat → Instant) (db : Database) (events : List RecordEvent) :
    BlockRun :=
  let ((result, outcomes), db) :=
    Tracker.scoped limit db fun t db => trackUntilFailure clock 0 t db [] events
  ⟨result, outcomes, db⟩

/-- Run blocks one after another over the same table, block `b` reading the clock at its call
`i` as `clock b i`. -/
def runBlocks (limit : Nat) (clock : Nat → Nat → Instant) :
    Nat → Database → List (List RecordEvent) → List BlockRun
  | _, _, [] => []
  | b, db, evs :: bs =>
    let r := runBlock limit (clock b) db evs
    r :: runBlocks limit clock (b + 1) r.db bs

end ChangeLedger
