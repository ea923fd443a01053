import ChangeLedger.Time.Text
/-! # Records and their times

A record is named by a `RecordKey`, a namespace and an id. What is known of it is its
`RecordTimes`: when it was first seen, last seen, last changed, and when it was marked deleted,
each possibly unknown. A `RowWrite` is the full set of times a tracker writes for a key; it never
carries a deletion marker, so writing it clears one.
-/
namespace ChangeLedger

/-- The name of a record: its namespace `ns` and its `id` within it. -/
structure RecordKey where
  ns : String
  id : String
  deriving DecidableEq, Repr, Inhabited

/-- What is known of a record's history. -/
structure RecordTimes where
  firstSeen : Option Instant := none
  lastSeen : Option Instant := none
  lastChanged : Option Instant := none
  deletedAt : Option Instant := none
  deriving DecidableEq, Repr, Inhabited

/-- The times a tracker writes for one key. -/
structure RowWrite where
  key : RecordKey
  firstSeen : Instant
  lastSeen : Instant
  lastChanged : Instant
  deriving DecidableEq, Repr, Inhabited

def RowWrite.times (w : RowWrite) : RecordTimes :=
  { firstSeen := some w.firstSeen, lastSeen := some w.lastSeen,
    lastChanged := some w.lastChanged, deletedAt := none }

structure TrackedRecord where
  key : RecordKey
  times : RecordTimes
  deriving DecidableEq, Repr, Inhabited

def TrackedRecord.isDeleted (r : TrackedRecord) : Bool := r.times.deletedAt.isSome

/-- What tracking one event did. -/
inductive TrackOutcome
  /-- The record was new: a row was written. -/
  | inserted
  /-- The record changed: its row was rewritten. -/
  | updated
  /-- The record was marked deleted and is back: its row was rewritten without the marker. -/
  | restored
  /-- Nothing changed: nothing was written. -/
  | unchanged
  /-- The same record as the call before: nothing was looked up or written. -/
  | repeated
  deriving DecidableEq, Repr, Inhabited

def TrackOutcome.name : TrackOutcome → String
  | .inserted => "inserted"
  | .updated => "updated"
  | .restored => "restored"
  | .unchanged => "unchanged"
  | .repeated => "repeated"

def TrackOutcome.wrote : TrackOutcome → Bool
  | .inserted | .updated | .restored => true
  | .unchanged | .repeated => false

end ChangeLedger
