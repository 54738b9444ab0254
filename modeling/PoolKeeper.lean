import PoolKeeper.Billing
import PoolKeeper.Config
import PoolKeeper.Controller.Basic
import PoolKeeper.Controller.Cycle
import PoolKeeper.Controller.Error
import PoolKeeper.Controller.Request
import PoolKeeper.Controller.Station
import PoolKeeper.Daemon
import PoolKeeper.Document.Config
import PoolKeeper.Document.Event
import PoolKeeper.Document.Machine
import PoolKeeper.Event
import PoolKeeper.Fetch.Cache
import PoolKeeper.Fetch.Error
import PoolKeeper.Fetch.Fetcher
import PoolKeeper.Fetch.LiveCache
import PoolKeeper.Fetch.Retry
import PoolKeeper.IdMap
import PoolKeeper.Invocation
import PoolKeeper.Json.Basic
import PoolKeeper.Json.Codec
import PoolKeeper.Json.Decoder
import PoolKeeper.Json.Node
import PoolKeeper.Json.Writer
import PoolKeeper.Lifecycle
import PoolKeeper.Machine
import PoolKeeper.Main
import PoolKeeper.Number.Binary64
import PoolKeeper.Overlay
import PoolKeeper.Plan
import PoolKeeper.Pool
import PoolKeeper.Proofs.Accounting
import PoolKeeper.Proofs.Akin
import PoolKeeper.Proofs.Alike
import PoolKeeper.Proofs.Answering
import PoolKeeper.Proofs.Attempts
import PoolKeeper.Proofs.Billing
import PoolKeeper.Proofs.Booting
import PoolKeeper.Proofs.Breakdown
import PoolKeeper.Proofs.Calendar
import PoolKeeper.Proofs.Changes
import PoolKeeper.Proofs.Chronology
import PoolKeeper.Proofs.Closing
import PoolKeeper.Proofs.Course
import PoolKeeper.Proofs.Cycle
import PoolKeeper.Proofs.Deeds
import PoolKeeper.Proofs.Departure
import PoolKeeper.Proofs.Digits
import PoolKeeper.Proofs.Document
import PoolKeeper.Proofs.Fading
import PoolKeeper.Proofs.Failure
import PoolKeeper.Proofs.Fleet
import PoolKeeper.Proofs.Forgetting
import PoolKeeper.Proofs.Growth
import PoolKeeper.Proofs.History
import PoolKeeper.Proofs.IdMap
import PoolKeeper.Proofs.Identifiers
import PoolKeeper.Proofs.Idle
import PoolKeeper.Proofs.JsonText
import PoolKeeper.Proofs.JsonToken
import PoolKeeper.Proofs.JsonValue
import PoolKeeper.Proofs.Launching
import PoolKeeper.Proofs.Learning
import PoolKeeper.Proofs.Lifecycle
import PoolKeeper.Proofs.LiveCache
import PoolKeeper.Proofs.Machines
import PoolKeeper.Proofs.Missing
import PoolKeeper.Proofs.Naming
import PoolKeeper.Proofs.NetSize
import PoolKeeper.Proofs.Outage
import PoolKeeper.Proofs.Overlap
import PoolKeeper.Proofs.Overlay
import PoolKeeper.Proofs.Period
import PoolKeeper.Proofs.Plan
import PoolKeeper.Proofs.Preference
import PoolKeeper.Proofs.Queue
import PoolKeeper.Proofs.Ranking
import PoolKeeper.Proofs.Reachable
import PoolKeeper.Proofs.Recollection
import PoolKeeper.Proofs.Reconcile
import PoolKeeper.Proofs.Refresh
import PoolKeeper.Proofs.Rename
import PoolKeeper.Proofs.Replacement
import PoolKeeper.Proofs.Replan
import PoolKeeper.Proofs.Requests
import PoolKeeper.Proofs.Restart
import PoolKeeper.Proofs.Roster
import PoolKeeper.Proofs.RoundTrip
import PoolKeeper.Proofs.Saving
import PoolKeeper.Proofs.Shift
import PoolKeeper.Proofs.Sizes
import PoolKeeper.Proofs.Sound
import PoolKeeper.Proofs.Sparing
import PoolKeeper.Proofs.StaleCache
import PoolKeeper.Proofs.Sturdy
import PoolKeeper.Proofs.Termination
import PoolKeeper.Proofs.TimeText
import PoolKeeper.Proofs.Transparency
import PoolKeeper.Proofs.Turn
import PoolKeeper.Proofs.Twin
import PoolKeeper.Proofs.Unreachable
import PoolKeeper.Provider.Basic
import PoolKeeper.Provider.Cloud
import PoolKeeper.Provider.Error
import PoolKeeper.Provider.Faults
import PoolKeeper.Provider.Fleet
import PoolKeeper.Provider.Settings
import PoolKeeper.Provider.Trace
import PoolKeeper.Startup
import PoolKeeper.Storage.Error
import PoolKeeper.Storage.FileSystem
import PoolKeeper.Storage.FileTree
import PoolKeeper.Storage.Store
import PoolKeeper.Termination
import PoolKeeper.Text.Blank
import PoolKeeper.Text.Hidden
import PoolKeeper.Text.Quoted
import PoolKeeper.Time.Date
import PoolKeeper.Time.Instant
import PoolKeeper.Time.Rfc3339
import PoolKeeper.Time.Span
import PoolKeeper.Time.Ticker
import PoolKeeper.Toml.Document
import PoolKeeper.Toml.Table
import PoolKeeper.Toml.Value
import PoolKeeper.Victim
import PoolKeeper.World
