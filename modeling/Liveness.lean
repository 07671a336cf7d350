import Liveness.Json.Printer
import Liveness.Json.Reader
import Liveness.Health.Document
import Liveness.Inspection
import Liveness.Proofs.Tracker.Consistency
import Liveness.Proofs.Tracker.Hysteresis
import Liveness.Proofs.Monitor.Progress
import Liveness.Proofs.Monitor.Life
import Liveness.Proofs.Monitor.Standing
import Liveness.Proofs.Monitor.DeliveredStatus
import Liveness.Proofs.Monitor.EventOrder
import Liveness.Proofs.Monitor.Polling
import Liveness.Proofs.Monitor.Stopping
import Liveness.Proofs.Tracker.Totals
import Liveness.Proofs.Check.Outcome
import Liveness.Proofs.Episode.Endurance
import Liveness.Proofs.Monitor.Endurance
import Liveness.Proofs.Monitor.Course
import Liveness.Proofs.Monitor.Listeners
import Liveness.Proofs.Monitor.Records
import Liveness.Proofs.Monitor.Bookkeeping
import Liveness.Proofs.Monitor.Cancellation
import Liveness.Proofs.Monitor.Lifecycle
import Liveness.Proofs.Monitor.EpisodeFlag
import Liveness.Proofs.Hub.FanOut
import Liveness.Proofs.Monitor.Deliveries
import Liveness.Proofs.Monitor.Observers
import Liveness.Proofs.Monitor.CrashFree
import Liveness.Proofs.Tracker.Resets
import Liveness.Proofs.Monitor.Schedule
import Liveness.Proofs.Monitor.InertSettings
import Liveness.Proofs.Episode.Trace
import Liveness.Proofs.Hub.Registry
import Liveness.Proofs.Episode.Budget
import Liveness.Proofs.Tracker.Accounting
import Liveness.Proofs.Tracker.Outcomes
import Liveness.Proofs.Check.Budget
import Liveness.Proofs.Check.Modes
import Liveness.Proofs.Backoff.Uniform
import Liveness.Proofs.Tracker.Average
import Liveness.Proofs.Numeric.Rounding
import Liveness.Proofs.Backoff.Growth
import Liveness.Proofs.Json.RoundTrip
import Liveness.Proofs.Numeric.Decimals
import Liveness.Proofs.Numeric.ReadBack
import Liveness.Proofs.Json.Records
import Liveness.Proofs.Settings.Documents
import Liveness.Proofs.Settings.Acceptance
