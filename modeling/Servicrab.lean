import Servicrab.Config.Address
import Servicrab.Config.EnvLines
import Servicrab.Config.Environment
import Servicrab.Config.Escapes
import Servicrab.Config.Included
import Servicrab.Config.Valid
import Servicrab.Core.Backoff
import Servicrab.Core.Budget
import Servicrab.Core.Cycle
import Servicrab.Core.StartOrder
import Servicrab.Core.Status
import Servicrab.Daemon.Acceptor
import Servicrab.Daemon.Agreement
import Servicrab.Daemon.Client
import Servicrab.Daemon.Declared
import Servicrab.Daemon.Launch
import Servicrab.Daemon.Lifetimes
import Servicrab.Daemon.Lock
import Servicrab.Daemon.Reconcile
import Servicrab.Daemon.Remember
import Servicrab.Daemon.Server
import Servicrab.Daemon.Signals
import Servicrab.Daemon.Startup
import Servicrab.Events.Losses
import Servicrab.Events.Reports
import Servicrab.Logs.Excess
import Servicrab.Logs.Follow
import Servicrab.Logs.Retention
import Servicrab.Logs.Rotation
import Servicrab.Logs.Router
import Servicrab.Logs.Sink
import Servicrab.Logs.Tail
import Servicrab.Protocol.Forward
import Servicrab.Protocol.Frame
import Servicrab.Runner.Edges
import Servicrab.Runner.Exits
import Servicrab.Runner.Lifecycle
import Servicrab.Runner.Process
import Servicrab.Runner.Requests
import Servicrab.Supervisor.Removed
import Servicrab.Supervisor.StopTimeout
import Servicrab.Supervisor.Verdict
import Servicrab.Tasks.Aftermath
import Servicrab.Tasks.Changes
import Servicrab.Tasks.FileScan
import Servicrab.Tasks.Restarts
import Servicrab.Tasks.Wait
