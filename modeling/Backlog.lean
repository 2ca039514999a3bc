import Backlog.Main
import Backlog.Host.Disk
import Backlog.Host.Machine
import Backlog.Proofs.Monitor.Isolation
import Backlog.Proofs.Monitor.Verdict
import Backlog.Proofs.Activity.Fallback
import Backlog.Proofs.Activity.Logger
import Backlog.Proofs.Activity.Size
import Backlog.Proofs.Service.Farewell
import Backlog.Proofs.Monitor.SampleLog
import Backlog.Proofs.Service.StateDocument
import Backlog.Proofs.Service.Toggle
import Backlog.Proofs.Trend.Constant
import Backlog.Proofs.Trend.Draining
import Backlog.Proofs.Monitor.Account
import Backlog.Proofs.Monitor.Switch
import Backlog.Proofs.Command.Status
import Backlog.Proofs.Command.Validate
import Backlog.Proofs.Monitor.Report
import Backlog.Proofs.Settings.Rendered
import Backlog.Proofs.Trend.LeastSquares
import Backlog.Proofs.Trend.Linear
import Backlog.Proofs.Trend.Reported
import Backlog.Proofs.Trend.Season
import Backlog.Proofs.Trend.Shift
import Backlog.Proofs.Trend.Simple
import Backlog.Proofs.Trend.Windows
import Backlog.Proofs.Activity.Descent
import Backlog.Proofs.Service.Staleness
import Backlog.Proofs.Command.Signalling
import Backlog.Proofs.Settings.Overridden
