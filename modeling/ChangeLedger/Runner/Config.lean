import ChangeLedger.Cli.Parse
import ChangeLedger.Cli.Values
/-! # The runner's settings

The ingest runner reads its settings from its command line, then from environment variables,
then from defaults. `RunnerConfig.parse` gives the settings or the `CliFault` that stops the
program.

From the settings follow the store's (the batch size is at least one, and the pool holds one
connection per worker, as many as a 32-bit count allows) and the ingest options (at least one
worker).
-/
namespace ChangeLedger

/-- The runner's settings. -/
structure RunnerConfig where
  db : String := "./data/waymark.db"
  input : Option String := none
  workers : Nat := 4
  batchSize : Nat := 100
  channelSize : Nat := 1000
  busyTimeoutMs : Nat := 5000
  logLevel : String := "info"
  logJson : Bool := false
  otelEndpoint : Option String := none
  deriving DecidableEq, Repr

def standardActions : List ArgSpec :=
  [{ id := "help", short := some 'h', long := some "help", action := .help, help := "Print help" },
   { id := "version", short := some 'V', long := some "version", action := .version,
     help := "Print version" }]

def runnerApp : AppSpec where
  root := {
    name := "waymark", usageName := "waymark", displayName := "waymark", version := "0.1.0",
    about := "Per-record first-seen / last-seen / last-changed tracking with batched SQLite commits",
    args := [
      { id := "db", short := some 'd', long := some "db", valueName := "DB",
        env := some "WAYMARK_DB", default := some "./data/waymark.db",
        help := "SQLite database file holding the change_tracker table", check := pathCheck },
      { id := "input", short := some 'i', long := some "input", valueName := "INPUT",
        env := some "WAYMARK_INPUT",
        help := "Newline-delimited JSON events to ingest (stdin when omitted)", check := pathCheck },
      { id := "workers", short := some 'w', long := some "workers", valueName := "WORKERS",
        env := some "WAYMARK_WORKERS", default := some "4",
        help := "Number of tracker workers, each with its own connection",
        check := unsignedCheck u64Limit },
      { id := "batch_size", long := some "batch-size", valueName := "BATCH_SIZE",
        env := some "WAYMARK_BATCH_SIZE", default := some "100",
        help := "Rows per committed insert or update batch", check := unsignedCheck u64Limit },
      { id := "channel_size", long := some "channel-size", valueName := "CHANNEL_SIZE",
        env := some "WAYMARK_CHANNEL_SIZE", default := some "1000",
        help := "Queue length in front of each worker (backpressure control)",
        check := unsignedCheck u64Limit },
      { id := "busy_timeout_ms", long := some "busy-timeout-ms", valueName := "BUSY_TIMEOUT_MS",
        env := some "WAYMARK_BUSY_TIMEOUT_MS", default := some "5000",
        help := "How long a worker waits on a locked database, in milliseconds",
        check := unsignedCheck u64Limit },
      { id := "log_level", long := some "log-level", valueName := "LOG_LEVEL",
        env := some "RUST_LOG", default := some "info",
        help := "Log level (trace, debug, info, warn, error)" },
      { id := "log_json", long := some "log-json", action := .setTrue,
        env := some "WAYMARK_LOG_JSON", help := "Emit logs as JSON lines", check := boolCheck },
      { id := "otel_endpoint", long := some "otel-endpoint", valueName := "OTEL_ENDPOINT",
        env := some "OTEL_EXPORTER_OTLP_ENDPOINT",
        help := "OpenTelemetry collector endpoint for metrics export (optional)" }
    ] ++ standardActions }

/-- The batch limit a configured batch size gives: a size of zero commits every row. -/
def batchLimitOfSize (n : Nat) : Nat := max n 1

/-- How many tracker workers an ingest runs, and the queue length in front of each. -/
structure IngestOptions where
  workers : Nat := 4
  channelSize : Nat := 1000
  deriving DecidableEq, Repr

namespace RunnerConfig

def unsignedOr (m : Matches) (id : String) (d : Nat) : Nat :=
  match m.value? id with
  | some v => match readUnsigned u64Limit v with
    | .ok n => n
    | .error _ => d
  | none => d

def ofMatches (m : Matches) : RunnerConfig where
  db := (m.value? "db").getD "./data/waymark.db"
  input := m.value? "input"
  workers := unsignedOr m "workers" 4
  batchSize := unsignedOr m "batch_size" 100
  channelSize := unsignedOr m "channel_size" 1000
  busyTimeoutMs := unsignedOr m "busy_timeout_ms" 5000
  logLevel := (m.value? "log_level").getD "info"
  logJson := m.value? "log_json" = some "true"
  otelEndpoint := m.value? "otel_endpoint"

def parse (env : List (String × String)) (words : List String) : Except CliFault RunnerConfig :=
  (parseApp runnerApp env words).map fun p => ofMatches p.root

def maxBatchSize (c : RunnerConfig) : Nat := batchLimitOfSize c.batchSize

/-- The pool's size: one connection per worker, at most the largest 32-bit count. -/
def poolSize (c : RunnerConfig) : Nat := min (max c.workers 1) u32Limit

def ingestOptions (c : RunnerConfig) : IngestOptions := ⟨max c.workers 1, c.channelSize⟩

def ingestWorkers (c : RunnerConfig) : Nat := c.ingestOptions.workers

end RunnerConfig

def defaultBatchSize : Nat := 100

def defaultBusyTimeoutMs : Nat := 5000

def defaultPoolSize : Nat := 8

end ChangeLedger
