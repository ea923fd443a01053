import ChangeLedger.Cli.Parse
import ChangeLedger.Cli.Values
import ChangeLedger.Time.Read
import ChangeLedger.Record.Basic
/-! # The inspection tool's command line

The inspection tool queries and edits the table of tracked records. Its command line names the
database, an output format (`text` or `json`, in any case), and one subcommand:

* `changes NS --since T [--limit N]`: live records of a namespace changed after `T`;
* `deleted NS --since T`: records of a namespace marked deleted after `T`;
* `show NS ID`: one record;
* `delete NS ID [--at T]`: mark a record deleted (now, unless `T` is given);
* `stats`: per-namespace totals.

A time is RFC 3339 text or a bare date `YYYY-MM-DD`, which means midnight UTC.
-/
namespace ChangeLedger

inductive OutputFormat
  | text
  | json
  deriving DecidableEq, Repr

/-- Read an output format, in any case. -/
def OutputFormat.read (s : String) : Except String OutputFormat :=
  let l := s.toLower
  if l = "text" then .ok .text
  else if l = "json" then .ok .json
  else .error ("unknown output format: " ++ s)

def datePattern : Pattern :=
  [.field .year, .literal '-', .field .month, .literal '-', .field .day]

/-- Read a time of the command line: RFC 3339, or a date meaning its midnight in UTC. -/
def readCommandTime (s : String) : Except String Instant :=
  match Instant.ofRfc3339 s with
  | .ok t => .ok t
  | .error _ =>
    match datePattern.scanAll s.toList >>= Fields.toDate with
    | .ok d => .ok (Instant.ofDaySecond d.toDays 0 0)
    | .error _ => .error ("invalid timestamp `" ++ s ++ "`: expected RFC 3339 or YYYY-MM-DD")

def timeCheck (s : String) : Option ValueFault :=
  match readCommandTime s with
  | .ok _ => none
  | .error r => some (.refused r)

def formatCheck (s : String) : Option ValueFault :=
  match OutputFormat.read s with
  | .ok _ => none
  | .error r => some (.refused r)

def inspectName : String := "waymarkctl"

def inspectActions : List ArgSpec :=
  [{ id := "help", short := some 'h', long := some "help", action := .help, help := "Print help" },
   { id := "version", short := some 'V', long := some "version", action := .version,
     help := "Print version" }]

def inspectSubcommand (name about : String) (args : List ArgSpec) : CommandSpec where
  name := name
  usageName := inspectName ++ " " ++ name
  displayName := inspectName ++ "-" ++ name
  version := "0.1.0"
  about := about
  args := args ++ inspectActions

def namespaceArg (help : String) : ArgSpec :=
  { id := "namespace", valueName := "NAMESPACE", index := some 0, required := true, help := help }

def sinceArg : ArgSpec :=
  { id := "since", short := some 's', long := some "since", valueName := "SINCE", required := true,
    help := "Lower bound, exclusive (RFC 3339 or YYYY-MM-DD)", check := timeCheck }

def inspectApp : AppSpec where
  root := {
    name := inspectName, usageName := inspectName, displayName := inspectName, version := "0.1.0",
    about := "Command-line queries over the Waymark change_tracker table",
    args := [
      { id := "db", short := some 'd', long := some "db", valueName := "DB",
        env := some "WAYMARK_DB", default := some "./data/waymark.db",
        help := "SQLite database file holding the change_tracker table", check := pathCheck },
      { id := "output", short := some 'o', long := some "output", valueName := "OUTPUT",
        default := some "text", help := "Output format (text, json)", check := formatCheck }
    ] ++ inspectActions }
  subcommands := [
    inspectSubcommand "changes" "List live records whose content changed after a point in time"
      [namespaceArg "Namespace (core) to query", sinceArg,
       { id := "limit", short := some 'l', long := some "limit", valueName := "LIMIT",
         help := "Maximum number of records to return", check := rangedCheck 0 u32Limit }],
    inspectSubcommand "deleted" "List records marked deleted after a point in time"
      [namespaceArg "Namespace (core) to query", sinceArg],
    inspectSubcommand "show" "Show the tracking row of one record"
      [namespaceArg "", { id := "id", valueName := "ID", index := some 1, required := true }],
    inspectSubcommand "delete" "Mark a record deleted"
      [namespaceArg "", { id := "id", valueName := "ID", index := some 1, required := true },
       { id := "at", long := some "at", valueName := "AT", help := "Deletion time (defaults to now)",
         check := timeCheck }],
    inspectSubcommand "stats" "Per-namespace record totals" []]
  subcommandRequired := true

/-- What the tool is asked to do. -/
inductive InspectCommand
  | changes (ns : String) (since : Instant) (limit : Option Nat)
  | deleted (ns : String) (since : Instant)
  | showRecord (key : RecordKey)
  | markDeleted (key : RecordKey) (at_ : Option Instant)
  | stats
  deriving DecidableEq, Repr

structure InspectRequest where
  db : String
  output : OutputFormat
  command : InspectCommand
  deriving DecidableEq, Repr

namespace InspectRequest

def timeOf (m : Matches) (id : String) : Option Instant :=
  (m.value? id).bind fun v => (readCommandTime v).toOption

def commandOf (name : String) (m : Matches) : InspectCommand :=
  let ns := (m.value? "namespace").getD ""
  let since := (timeOf m "since").getD Instant.earliest
  if name = "changes" then
    .changes ns since ((m.value? "limit").bind fun v => (readSigned64 v).toOption.map Int.toNat)
  else if name = "deleted" then .deleted ns since
  else if name = "show" then .showRecord ⟨ns, (m.value? "id").getD ""⟩
  else if name = "delete" then .markDeleted ⟨ns, (m.value? "id").getD ""⟩ (timeOf m "at")
  else .stats

/-- Parse the words after the program name. -/
def parse (env : List (String × String)) (words : List String) : Except CliFault InspectRequest := do
  let p ← parseApp inspectApp env words
  let db := (p.root.value? "db").getD "./data/waymark.db"
  let output := ((p.root.value? "output").bind fun v => (OutputFormat.read v).toOption).getD .text
  match p.subcommand with
  | some (name, m) => pure ⟨db, output, commandOf name m⟩
  | none => throw (.missingSubcommand inspectName inspectApp.subcommandNames
      (helpUsage inspectApp.root (some true)))

end InspectRequest

end ChangeLedger
