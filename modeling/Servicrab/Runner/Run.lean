import Servicrab.Core.Readiness
import Servicrab.Library.TransitionSystem
import Servicrab.Runner.Service

/-!
# One supervised run of a service

A runner, the health monitors and output readers it has spawned, the event channel they share, and
the receiving end of that channel with its `ReadinessTracker`. Each of them takes its steps on its
own. Monitors and readers hold the channel open on their own account, so it may outlive the runner.

An event in the channel is tagged with the process run that caused it, and the run keeps a record
of what was received and of how each probe ended; nothing the program does depends on either.

## Main definitions

* `Run`, `Run.step`, `runSystem`.
-/

namespace Servicrab

/-- One run of `ServiceRunner`, with everything attached to its event channel. -/
structure Run where
  runner : Runner
  monitors : List Monitor
  /-- How many output readers hold the channel. -/
  readers : ℕ
  /-- The events sent but not received yet, each with the process run that caused it. -/
  channel : List (ℕ × EventKind)
  /-- The status the receiver has folded so far. -/
  tracker : DependencyStatus
  /-- The events received so far. -/
  received : List (ℕ × EventKind)
  /-- Every probe that has returned: the process run it was for, and whether it passed. -/
  probes : List (ℕ × Bool)

/-- A step of one of the parts of a run. -/
inductive RunAction
  | runner (action : RunnerAction)
  /-- The runner sends the next event it has to publish. -/
  | publish
  /-- The monitor at this position takes a step. -/
  | monitor (index : ℕ) (action : MonitorAction)
  /-- An output reader sends a line, or the count of the lines it had to drop. -/
  | output (kind : EventKind)
  /-- An output reader reaches the end of its pipe. -/
  | readerEnds
  /-- The next event is received. -/
  | receive
  deriving DecidableEq

/-- Whether the event is one of captured output. -/
def EventKind.isOutput (kind : EventKind) : Bool :=
  match kind with
  | .log _ _ | .logLinesDropped _ => true
  | _ => false

namespace Run

/-- A run as its supervision task begins it. -/
def new (service : Service) (options : RunOptions) : Run where
  runner := .new service options
  monitors := []
  readers := 0
  channel := []
  tracker := .new
  received := []
  probes := []

variable (r : Run)

/-- A service that declares a health check gets a monitor for each process. -/
def spawnMonitor : List Monitor :=
  match r.runner.service.health with
  | some check => r.monitors ++ [.new r.runner.runs check]
  | none => r.monitors

/-- What else happens when the runner takes a step: a spawned process has readers and a monitor,
and readers are drained, or aborted, once its group is swept. -/
def withRunner (runner : Runner) : RunnerAction → Run
  | .spawn (.ok _) =>
    { r with
      runner := runner
      monitors := r.spawnMonitor
      readers := r.readers + if r.runner.output = .capture then 2 else 0 }
  | .sweep (.ok ()) _ => { r with runner := runner, readers := 0 }
  | _ => { r with runner := runner }

/-- Whether the monitor of the process that runs now has declared it unhealthy. -/
def unhealthySignalled : Bool :=
  r.monitors.any fun m => r.runner.watches m.run && m.sent.any HealthSignal.isUnhealthy

/-- A step of the runner. -/
def stepRunner (action : RunnerAction) : Option Run :=
  if r.runner.outbox = [] ∧ (action = .unhealthy → r.unhealthySignalled) then
    (r.runner.step action).map fun runner => r.withRunner runner action
  else none

/-- How a probe ended, for the record. -/
def probed (m : Monitor) : MonitorAction → List (ℕ × Bool)
  | .probe result _ => [(m.run, result.isOk)]
  | _ => []

/-- A step of the monitor at a position. Its channel is closed once the runner has let go of the
receiver. -/
def stepMonitor (index : ℕ) (action : MonitorAction) : Option Run :=
  match r.monitors[index]? with
  | none => none
  | some m => (m.step (!r.runner.watches m.run) action).map fun next =>
    { r with
      monitors := r.monitors.set index next.1
      channel := r.channel ++ next.2.toList.map fun kind => (m.run, kind)
      probes := r.probes ++ probed m action }

/-- One step of a run. -/
def step : RunAction → Option Run
  | .runner action => r.stepRunner action
  | .publish =>
    match r.runner.outbox with
    | kind :: rest => some { r with
        runner := { r.runner with outbox := rest }
        channel := r.channel ++ [(r.runner.runs, kind)] }
    | [] => none
  | .monitor index action => r.stepMonitor index action
  | .output kind =>
    if 0 < r.readers ∧ kind.isOutput then
      some { r with channel := r.channel ++ [(r.runner.runs, kind)] }
    else none
  | .readerEnds => if 0 < r.readers then some { r with readers := r.readers - 1 } else none
  | .receive =>
    match r.channel with
    | event :: rest => some { r with
        channel := rest
        tracker := r.tracker.observe event.2
        received := r.received ++ [event] }
    | [] => none

/-- Whether somebody may still send on the channel. -/
def isOpen : Bool :=
  (match r.runner.phase with
    | .returned _ => false
    | _ => true) || 0 < r.readers || r.monitors.any fun m => m.phase != .done

end Run

/-- The runs of `ServiceRunner::run` for any service, with the fold of its events. -/
def runSystem : TransitionSystem Run RunAction where
  init r := ∃ (service : Service) (options : RunOptions), r = Run.new service options
  step := Run.step

end Servicrab
