import ChangeLedger.Time.Calendar
import ChangeLedger.Time.Instant
import ChangeLedger.Time.Text
import ChangeLedger.Time.Fields
import ChangeLedger.Time.Scan
import ChangeLedger.Time.Read
import ChangeLedger.Text.Blank
import ChangeLedger.Hash.SipHash
import ChangeLedger.Record.Basic
import ChangeLedger.Batch.Basic
import ChangeLedger.Batch.Batcher
import ChangeLedger.Event.Route
import ChangeLedger.Table.NumberText
import ChangeLedger.Table.Cell
import ChangeLedger.Table.Basic
import ChangeLedger.Table.Query
import ChangeLedger.Store.Basic
import ChangeLedger.Tracker.Basic
import ChangeLedger.Session.Basic
import ChangeLedger.Decimal.Shortest
import ChangeLedger.Json.Fault
import ChangeLedger.Json.Read
import ChangeLedger.Event.Line
import ChangeLedger.Text.Utf8
import ChangeLedger.Ingest.Run
import ChangeLedger.Tracker.Scoped
import ChangeLedger.Cli.Similar
import ChangeLedger.Cli.Spec
import ChangeLedger.Cli.Fault
import ChangeLedger.Cli.Help
import ChangeLedger.Cli.Parse
import ChangeLedger.Cli.Values
import ChangeLedger.Runner.Config
import ChangeLedger.Cli.Report
import ChangeLedger.Json.Pretty
import ChangeLedger.Inspect.App
import ChangeLedger.Inspect.Run
import ChangeLedger.Runner.LogFilter
import ChangeLedger.Runner.Disk
import ChangeLedger.Runner.Program
import ChangeLedger.Proofs.TableCommit
import ChangeLedger.Proofs.Queues
import ChangeLedger.Proofs.Visibility
import ChangeLedger.Proofs.Tracking
import ChangeLedger.Proofs.WriteThrough
import ChangeLedger.Proofs.SharedTable
import ChangeLedger.Proofs.Shutdown
import ChangeLedger.Proofs.DeletionMarker
import ChangeLedger.Proofs.Restoring
import ChangeLedger.Proofs.FirstIndexed
import ChangeLedger.Proofs.SlotWorkers
import ChangeLedger.Proofs.TrackDecision
import ChangeLedger.Proofs.TrackerCache
import ChangeLedger.Proofs.BatchCommit
import ChangeLedger.Proofs.CalendarOrder
import ChangeLedger.Proofs.StoredTextOrder
import ChangeLedger.Proofs.SinceQueries
import ChangeLedger.Proofs.BatchThreshold
import ChangeLedger.Proofs.SeenTimes
