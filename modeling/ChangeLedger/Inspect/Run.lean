import ChangeLedger.Inspect.App
import ChangeLedger.Cli.Report
import ChangeLedger.Json.Pretty
import ChangeLedger.Table.Query
/-! # Running the inspection tool

The tool opens the database, creating the table when it is missing, and runs its command:

* listings print a table of id, first seen, last changed and deleted (whole-second times, `-` for
  none) and a total, or `No records found.`; in JSON, the namespace, the bound, the records and
  their number;
* `show` prints the record's fields, or fails with `no record NS/ID`;
* `delete` marks the record deleted and says so, or fails with `no record NS/ID`;
* `stats` prints active and deleted rows per namespace and the totals, or `No records tracked.`.

A failed query reports the database error and its causes.
-/
namespace ChangeLedger

/-- A time as listings print it: whole seconds, `-` for none. -/
def listedTime : Option Instant → String
  | some t => t.toSecondsText
  | none => "-"

def recordPretty (r : TrackedRecord) : PrettyJson :=
  let time := PrettyJson.opt fun (t : Instant) => PrettyJson.str t.toText
  .object [("namespace", .str r.key.ns), ("id", .str r.key.id),
    ("first_seen", time r.times.firstSeen), ("last_seen", time r.times.lastSeen),
    ("last_changed", time r.times.lastChanged), ("deleted_at", time r.times.deletedAt)]

def listingText (records : List TrackedRecord) : String :=
  if records.isEmpty then "No records found.\n"
  else
    let row := fun (a b c d : String) =>
      padRight 40 a ++ " " ++ padLeft 20 b ++ " " ++ padLeft 20 c ++ " " ++ padLeft 20 d ++ "\n"
    row "ID" "FIRST SEEN" "LAST CHANGED" "DELETED" ++
      String.ofList (List.replicate 103 '-') ++ "\n" ++
      String.join (records.map fun r => row r.key.id (listedTime r.times.firstSeen)
        (listedTime r.times.lastChanged) (listedTime r.times.deletedAt)) ++
      "\n" ++ "Total: " ++ toString records.length ++ " record(s)\n"

def listing (format : OutputFormat) (ns : String) (since : Instant)
    (records : List TrackedRecord) : String :=
  match format with
  | .text => listingText records
  | .json => (PrettyJson.object [("namespace", .str ns), ("since", .str since.toText),
      ("records", .array (records.map recordPretty)), ("total", .nat records.length)]).render ++ "\n"

def recordText (format : OutputFormat) (r : TrackedRecord) : String :=
  match format with
  | .text =>
    "Namespace:     " ++ r.key.ns ++ "\n" ++
    "ID:            " ++ r.key.id ++ "\n" ++
    "First seen:    " ++ listedTime r.times.firstSeen ++ "\n" ++
    "Last seen:     " ++ listedTime r.times.lastSeen ++ "\n" ++
    "Last changed:  " ++ listedTime r.times.lastChanged ++ "\n" ++
    "Deleted:       " ++ listedTime r.times.deletedAt ++ "\n"
  | .json => (recordPretty r).render ++ "\n"

def statsText (format : OutputFormat) (counts : List NamespaceCount) : String :=
  let active := (counts.map (·.active)).foldr (· + ·) 0
  let deleted := (counts.map (·.deleted)).foldr (· + ·) 0
  match format with
  | .text =>
    if counts.isEmpty then "No records tracked.\n"
    else
      let row := fun (a b c : String) => padRight 40 a ++ " " ++ padLeft 12 b ++ " " ++ padLeft 12 c ++ "\n"
      row "NAMESPACE" "ACTIVE" "DELETED" ++ String.ofList (List.replicate 66 '-') ++ "\n" ++
        String.join (counts.map fun c => row c.ns (toString c.active) (toString c.deleted)) ++
        "\n" ++ "Total: " ++ toString active ++ " active, " ++ toString deleted ++ " deleted\n"
  | .json => (PrettyJson.object [
      ("namespaces", .array (counts.map fun c =>
        .object [("namespace", .str c.ns), ("active", .nat c.active), ("deleted", .nat c.deleted)])),
      ("total_active", .nat active), ("total_deleted", .nat deleted)]).render ++ "\n"

def DbError.causes (e : DbError) : List String :=
  match e with
  | .conversion _ cause => [e.message, cause.message]
  | _ => [e.message]

def queryFailed (e : DbError) : ProgramOutput := .failed ("Database error: " ++ e.message) e.causes

def printed (text : String) : ProgramOutput := ⟨0, text, ""⟩

/-- Run a parsed request on the database; `now` is the time a deletion defaults to. -/
def InspectRequest.run (req : InspectRequest) (db : Database) (now : Instant) :
    ProgramOutput × Database :=
  let db := db.createTable
  let noRecord := fun (k : RecordKey) => ProgramOutput.failed ("no record " ++ k.ns ++ "/" ++ k.id) []
  match req.command with
  | .changes ns since limit =>
    match db.changedSince ns since limit with
    | .ok rs => (printed (listing req.output ns since rs), db)
    | .error e => (queryFailed e, db)
  | .deleted ns since =>
    match db.deletedSince ns since with
    | .ok rs => (printed (listing req.output ns since rs), db)
    | .error e => (queryFailed e, db)
  | .showRecord key =>
    match db.record? key with
    | .ok (some r) => (printed (recordText req.output r), db)
    | .ok none => (noRecord key, db)
    | .error e => (queryFailed e, db)
  | .markDeleted key at_ =>
    match db.markDeleted key (at_.getD now) with
    | .ok (db', true) => (printed ("Marked " ++ key.ns ++ "/" ++ key.id ++ " deleted\n"), db')
    | .ok (db', false) => (noRecord key, db')
    | .error e => (queryFailed e, db)
  | .stats =>
    match db.namespaceCounts with
    | .ok cs => (printed (statsText req.output cs), db)
    | .error e => (queryFailed e, db)

def runInspect (env : List (String × String)) (words : List String) (db : Database)
    (now : Instant) : ProgramOutput × Database :=
  match InspectRequest.parse env words with
  | .error f => (ProgramOutput.ofFault f, db)
  | .ok req => req.run db now

end ChangeLedger
