import ChangeLedger.Runner.Config
import ChangeLedger.Runner.Disk
import ChangeLedger.Runner.LogFilter
import ChangeLedger.Ingest.Run
import ChangeLedger.Cli.Report
import ChangeLedger.Json.Pretty
/-! # The ingest runner

One run of the runner, step by step:

1. read the settings (a command-line fault ends the run: help and version print and succeed,
   mistakes fail with status 2);
2. set up logging, warning about invalid filter directives;
3. create the database's directory and its parents;
4. open the database, creating it and its table when missing;
5. open the input: the file of the settings, or standard input;
6. ingest every event line and print the summary as one JSON line.

A failure in steps 3 to 6 is reported with its causes, with status 1. A stop signal ends reading:
when the input is standard input that stays open after its last byte, a signal sent once all of
it has been read makes the run interrupted, with every complete line handled.
-/
namespace ChangeLedger

/-- What one run of the runner is given. -/
structure RunnerRun where
  words : List String
  env : List (String × String)
  stdin : List UInt8
  disk : Disk
  /-- A stop signal arrives once standard input has been read, and standard input stays open. -/
  signalled : Bool
  /-- The clock as worker `w`'s tracker reads it at its call `i`: `clock w i`. -/
  clock : Nat → Nat → Instant

def runIdText : String := "00000000-0000-7000-8000-000000000000"

def summaryLine (s : IngestSummary) : String :=
  compactObject [("run_id", jsonQuoted runIdText), ("lines", toString s.lines),
    ("malformed", toString s.malformed), ("inserted", toString s.counts.inserted),
    ("updated", toString s.counts.updated), ("restored", toString s.counts.restored),
    ("unchanged", toString s.counts.unchanged), ("repeated", toString s.counts.repeated),
    ("failed", toString s.counts.failed),
    ("interrupted", if s.interrupted then "true" else "false")] ++ "\n"

/-- Open the database at a path: an existing one, or a new one in place of nothing or an empty file. -/
def openDatabase (disk : Disk) (parts : List String) : Except String Database :=
  match disk.node? parts with
  | some (.database db) => .ok db.createTable
  | none => .ok {}
  | some (.file []) => .ok {}
  | some (.file _) => .error "Connection pool error: file is not a database"
  | some .directory => .error "Connection pool error: unable to open database file"

def RunnerRun.input (r : RunnerRun) (disk : Disk) (c : RunnerConfig) :
    Except ProgramOutput (List UInt8 × InputEnd) :=
  match c.input with
  | none => .ok (r.stdin, if r.signalled then .held else .closed)
  | some p =>
    match disk.openRead (pathParts p) with
    | .error e => .error (.failed ("failed to open " ++ p) [e.message])
    | .ok (.file bytes) => .ok (bytes, .closed)
    | .ok .directory =>
      .error (.failed ("failed to read input: " ++ OsFailure.isADirectory.message)
        [OsFailure.isADirectory.message])
    | .ok (.database _) => .ok ([], .closed)

def RunnerRun.work (r : RunnerRun) (c : RunnerConfig) : ProgramOutput × Disk :=
  let parent := parentText c.db
  let created := if parent.isEmpty then .ok r.disk else r.disk.createDirs (pathParts parent)
  match created with
  | .error e => (.failed ("failed to create " ++ parent) [e.message], r.disk)
  | .ok disk =>
    let dbParts := pathParts c.db
    match openDatabase disk dbParts with
    | .error cause => (.failed ("failed to open " ++ c.db) [cause], disk)
    | .ok db =>
      let db := db.createTable
      let disk := disk.put dbParts (.database db)
      match r.input disk c with
      | .error out => (out, disk)
      | .ok (bytes, ending) =>
        let plan : IngestPlan := ⟨c.ingestWorkers, c.poolSize, c.maxBatchSize, r.clock, false, ending⟩
        let ingest := runIngest plan db bytes
        let disk := disk.put dbParts (.database ingest.db)
        match ingest.outcome with
        | .error e =>
          let cause := match e with
            | .read f => f.message
          (.failed e.message [cause], disk)
        | .ok s => (⟨0, summaryLine s, ""⟩, disk)

/-- One run of the runner: what it printed, and the directory after it. -/
def RunnerRun.run (r : RunnerRun) : ProgramOutput × Disk :=
  match RunnerConfig.parse r.env r.words with
  | .error f => (ProgramOutput.ofFault f, r.disk)
  | .ok c =>
    let warnings := String.join ((logFilterWarnings c.logLevel (r.env.lookup "RUST_LOG")).map
      (· ++ "\n"))
    let (out, disk) := r.work c
    ({ out with stderr := warnings ++ out.stderr }, disk)

end ChangeLedger
