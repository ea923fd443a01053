import ChangeLedger.Text.Utf8
import ChangeLedger.Event.Line
import ChangeLedger.Event.Route
import ChangeLedger.Tracker.Basic
/-! # Ingest runs

An ingest run reads event lines and hands each event to one of several workers, chosen by the
hash of its key (`RecordKey.slot`), so one key is always handled by the same worker. Each worker
has its own tracker over the shared table, tracks its events in the order they were read, counts
the outcomes, and shuts its tracker down (flushing it) at the end. A tracker reads the clock when
it writes: the plan gives the reading of each worker at each of its calls.

Workers never share a key, so running them one after another gives the same table as running
them side by side; `runIngest` does the former.

Reading splits the input at newlines. The newline and then one carriage return before it are
cut off, and what remains is checked as UTF-8; the first line that is not UTF-8 ends reading and
fails the run, after the lines before it are handled. Blank lines are counted and skipped; lines
that are not events are counted as malformed.

A stop request ends reading. When it is present before the run starts, nothing is read, and the
workers shut their trackers down with nothing tracked. When the
input instead stays open after its last byte (`InputEnd.held`), the stop request arrives then:
every complete line is handled, a last line without a newline is not, and the run is
interrupted.
-/
namespace ChangeLedger

/-- What happens after the input's last byte. -/
inductive InputEnd
  /-- The input ends; a last line without a newline is still a line. -/
  | closed
  /-- The input stays open until a stop request ends reading. -/
  | held
  deriving DecidableEq, Repr

/-- How many of each outcome the trackers gave, and how many calls failed. -/
structure OutcomeCounts where
  inserted : Nat := 0
  updated : Nat := 0
  restored : Nat := 0
  unchanged : Nat := 0
  repeated : Nat := 0
  failed : Nat := 0
  deriving DecidableEq, Repr

namespace OutcomeCounts

def record (c : OutcomeCounts) : TrackOutcome → OutcomeCounts
  | .inserted => { c with inserted := c.inserted + 1 }
  | .updated => { c with updated := c.updated + 1 }
  | .restored => { c with restored := c.restored + 1 }
  | .unchanged => { c with unchanged := c.unchanged + 1 }
  | .repeated => { c with repeated := c.repeated + 1 }

def fail (c : OutcomeCounts) : OutcomeCounts := { c with failed := c.failed + 1 }

def tally (c : OutcomeCounts) : Except TrackerError TrackOutcome → OutcomeCounts
  | .ok o => c.record o
  | .error _ => c.fail

def merge (a b : OutcomeCounts) : OutcomeCounts :=
  ⟨a.inserted + b.inserted, a.updated + b.updated, a.restored + b.restored,
    a.unchanged + b.unchanged, a.repeated + b.repeated, a.failed + b.failed⟩

def total (c : OutcomeCounts) : Nat :=
  c.inserted + c.updated + c.restored + c.unchanged + c.repeated + c.failed

end OutcomeCounts

structure IngestSummary where
  lines : Nat
  malformed : Nat
  counts : OutcomeCounts
  interrupted : Bool
  deriving DecidableEq, Repr

inductive IngestError
  /-- A line is not UTF-8. -/
  | read (fault : Utf8Fault)
  deriving DecidableEq, Repr

def IngestError.message : IngestError → String
  | .read f => "failed to read input: " ++ f.message

def runIdLength : Nat := 36

/-- How a run is set up. -/
structure IngestPlan where
  /-- Workers asked for. -/
  workers : Nat
  /-- Connections in the pool; each worker holds one. -/
  poolSize : Nat
  /-- The batch size of each worker's store. -/
  limit : Nat
  /-- The clock as worker `w`'s tracker reads it at its call `i`: `clock w i`. -/
  clock : Nat → Nat → Instant
  /-- A stop request is present before reading starts. -/
  stopped : Bool := false
  ending : InputEnd := .closed

/-- The workers of a run: at least one, and no more than the pool's connections (at least one). -/
def IngestPlan.workerCount (p : IngestPlan) : Nat := min (max p.workers 1) (max p.poolSize 1)

def splitAfterNewlines : List UInt8 → List (List UInt8) × List UInt8
  | [] => ([], [])
  | b :: rest =>
    let (lines, tail) := splitAfterNewlines rest
    if b == 10 then ([b] :: lines, tail)
    else match lines with
      | [] => ([], b :: tail)
      | l :: ls => ((b :: l) :: ls, tail)

/-- The lines a reader completes: with `held`, only those ended by a newline. -/
def inputLines (ending : InputEnd) (bytes : List UInt8) : List (List UInt8) :=
  let (lines, tail) := splitAfterNewlines bytes
  match ending, tail with
  | .closed, _ :: _ => lines ++ [tail]
  | _, _ => lines

/-- A line without its ending: a newline, and then one carriage return before it. -/
def lineBody (line : List UInt8) : List UInt8 :=
  if line.getLast? = some 10 then
    let body := line.dropLast
    if body.getLast? = some 13 then body.dropLast else body
  else line

def lineText (line : List UInt8) : Except Utf8Fault String :=
  let body := lineBody line
  match checkUtf8 body with
  | some f => .error f
  | none => .ok ((String.fromUTF8? ⟨body.toArray⟩).getD "")

/-- The texts of the lines before the first one that is not UTF-8, and that line's fault. -/
def readLines : List (List UInt8) → List String × Option Utf8Fault
  | [] => ([], none)
  | l :: ls =>
    match lineText l with
    | .error f => ([], some f)
    | .ok t => let (ts, f) := readLines ls; (t :: ts, f)

def collectEvents : List String → List RecordEvent × Nat
  | [] => ([], 0)
  | l :: ls =>
    let (evs, bad) := collectEvents ls
    match RecordEvent.ofLine l with
    | .ok (some ev) => (ev :: evs, bad)
    | .ok none => (evs, bad)
    | .error _ => (evs, bad + 1)

/-- Track events in order from call `i` on, call `j` reading `clock j`, and count the answers. -/
def trackEvents (clock : Nat → Instant) (i : Nat) (t : Tracker) (counts : OutcomeCounts)
    (db : Database) : List RecordEvent → Tracker × OutcomeCounts × Database
  | [] => (t, counts, db)
  | ev :: evs =>
    let step := t.track db ev.key ev.changedAt (clock i)
    trackEvents clock (i + 1) step.tracker (counts.tally step.result) step.db evs

/-- One worker: a fresh tracker tracks the events in order, then shuts down. -/
def runWorker (limit : Nat) (clock : Nat → Instant) (db : Database) (events : List RecordEvent) :
    OutcomeCounts × Database :=
  let (t, counts, db) := trackEvents clock 0 (Tracker.fresh limit) {} db events
  (counts, (t.shutdown db).2)

def eventsFor (n w : Nat) (events : List RecordEvent) : List RecordEvent :=
  events.filter fun ev => ev.key.slot n = w

def runWorkers (limit : Nat) (clock : Nat → Nat → Instant) (n : Nat) (events : List RecordEvent)
    (db : Database) : OutcomeCounts × Database :=
  (List.range n).foldl (fun (acc : OutcomeCounts × Database) w =>
      let (c, db) := runWorker limit (clock w) acc.2 (eventsFor n w events)
      (acc.1.merge c, db))
    ({}, db)

structure IngestRun where
  outcome : Except IngestError IngestSummary
  db : Database

/-- The lines a run reads and the fault that ended reading; none when stopped beforehand. -/
def IngestPlan.read (p : IngestPlan) (input : List UInt8) : List String × Option Utf8Fault :=
  if p.stopped then ([], none) else readLines (inputLines p.ending input)

/-- Run an ingest over `input`; the lines read before a reading fault are still handled. -/
def runIngest (p : IngestPlan) (db : Database) (input : List UInt8) : IngestRun :=
  let (lines, fault) := p.read input
  let (events, malformed) := collectEvents lines
  let (counts, db) := runWorkers p.limit p.clock p.workerCount events db
  match fault with
  | some f => ⟨.error (.read f), db⟩
  | none => ⟨.ok ⟨lines.length, malformed, counts, p.stopped || decide (p.ending = .held)⟩, db⟩

end ChangeLedger
