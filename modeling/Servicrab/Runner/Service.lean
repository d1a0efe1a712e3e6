import Servicrab.Core.Event
import Servicrab.Core.Options
import Servicrab.Runner.Health

/-!
# The service runner

`ServiceRunner::run` with `shutdown` and `wait_backoff` (`unix.rs`), cut at its `await` points and
at the events it publishes. What the process, the kernel and the clock do is left open: an action
says what they answered. The value of the stop channel is part of the actions that read it.

`transition` takes the rest of the code as a continuation, which a rejected transition skips, as the
`?` of the source does.

## Main definitions

* `Runner`, `Runner.transition`, `Runner.step`.
-/

namespace Servicrab

/-- What is known about a process that has ended. -/
structure ExitStatus where
  code : Option ℤ
  signal : Option ℤ
  deriving DecidableEq, Repr

def ExitStatus.exitReason (status : ExitStatus) : ExitReason :=
  match status.code, status.signal with
  | some code, _ => .code code
  | none, some signal => .signal signal
  | none, none => .code (-1)

/-- Why `ProcessHandle::spawn` failed. -/
inductive SpawnError
  | command (source : IoError)
  /-- The child was reaped before its pid could be read. -/
  | noPid
  deriving DecidableEq, Repr

/-- The error that is reported for a failed spawn. -/
def SpawnError.error (e : SpawnError) (service : Service) : RuntimeError :=
  match e with
  | .command source => .spawnFailed service.name.raw service.executable source
  | .noPid =>
    .waitFailed service.name.raw ⟨.other, "child exited before its pid could be read"⟩

def SpawnError.retryable (e : SpawnError) : Bool :=
  match e with
  | .command source => source.spawnErrorIsRetryable
  | .noPid => false

/-- The name of the signal that asks a process group to stop. -/
def ShutdownSignal.osSignal (signal : ShutdownSignal) : String :=
  match signal with
  | .term => "SIGTERM"
  | .int => "SIGINT"
  | .quit => "SIGQUIT"
  | .hup => "SIGHUP"

/-- Where the runner is in its loop, once it has published what it had to. From `running` on it
has a process, of which `pgid` is the group. `stoppedBy` is the shutdown request that ended the
run; a run that is stopped without one is stopped as unhealthy. -/
inductive RunnerPhase
  /-- At the head of the loop. -/
  | head
  | spawning
  /-- In the `select!` that waits for the end of the process, a shutdown request or a verdict. -/
  | running (pgid : ℤ)
  /-- In `shutdown`, about to signal the group. -/
  | signalling (pgid : ℤ) (stoppedBy : Option ShutdownReason)
  /-- In `shutdown`, waiting for the end of the process, the timeout or a second request. -/
  | stopping (pgid : ℤ) (stoppedBy : Option ShutdownReason)
  /-- In `shutdown`, waiting for the end of a process that was killed. -/
  | killed (pgid : ℤ) (stoppedBy : Option ShutdownReason)
  /-- The process has ended; its group is to be swept. -/
  | sweeping (pgid : ℤ) (reason : ExitReason) (stoppedBy : Option ShutdownReason)
  /-- In `wait_backoff`, after the end of a process or after a failed spawn. -/
  | backoff (afterExit : Bool)
  /-- About to return. -/
  | returning (result : Except RuntimeError RunOutcome)
  | returned (result : Except RuntimeError RunOutcome)
  deriving DecidableEq

/-- The state of a runner, and the events it is about to publish. -/
structure Runner where
  service : Service
  tracker : RestartTracker
  state : ServiceState
  output : OutputMode
  restarts : ℕ
  /-- How often the runner went on to start a process. -/
  runs : ℕ
  phase : RunnerPhase
  outbox : List EventKind
  deriving DecidableEq

/-- A step of a runner that has nothing left to publish. -/
inductive RunnerAction
  | head (stop : Option ShutdownReason)
  | spawn (result : Except SpawnError ℤ)
  /-- `ProcessHandle::wait` returns. -/
  | wait (result : Except IoError ExitStatus)
  /-- `wait_for_shutdown` returns. -/
  | interrupted (reason : ShutdownReason)
  /-- `next_unhealthy` returns. -/
  | unhealthy
  | signal (result : Except IoError Unit)
  /-- The timeout has passed or a second request has come, and the group is killed. -/
  | escalate (result : Except IoError Unit)
  | sweep (result : Except IoError Unit) (uptime : Duration)
  /-- The restart delay has passed. -/
  | slept
  | return
  deriving DecidableEq

namespace Runner

/-- Build a runner for a validated service. -/
def new (service : Service) (options : RunOptions) : Runner where
  service := service
  tracker := (RestartTracker.fromService service).withPolicy
    (options.effectivePolicy service.restart)
  state := .pending
  output := options.output
  restarts := 0
  runs := 0
  phase := .head
  outbox := []

variable (r : Runner)

def emit (kind : EventKind) : Runner := { r with outbox := r.outbox ++ [kind] }

/-- `return Err(error)`. -/
def fail (error : RuntimeError) : Runner := { r with phase := .returning (.error error) }

/-- `return Ok(outcome)`. -/
def finish (outcome : RunOutcome) : Runner := { r with phase := .returning (.ok outcome) }

/-- `self.transition(next)?`, followed by `k`. -/
def transition (next : ServiceState) (k : Runner → Runner) : Runner :=
  match r.state.tryTransition next with
  | .ok state => k ({ r with state := state }.emit (.state state))
  | .error source => r.fail (.invalidTransition r.service.name.raw source)

/-- The head of the loop: a shutdown that was requested must not be overtaken by a new process. -/
def atHead (stop : Option ShutdownReason) : Runner :=
  match stop with
  | some reason => r.transition .stopped fun r => r.finish (.stopped reason)
  | none => r.transition .starting fun r => { r with runs := r.runs + 1, phase := .spawning }

/-- The service is to be started again after a delay. -/
def backOff (delay : Duration) (attempt : ℕ) (afterExit : Bool) : Runner :=
  r.transition .backoff fun r => { r.emit (.backoff delay attempt) with phase := .backoff afterExit }

/-- A process was spawned, or failed to be. -/
def spawned (result : Except SpawnError ℤ) : Runner :=
  match result with
  | .ok pgid => r.transition .running fun r => { r.emit (.started pgid) with phase := .running pgid }
  | .error e =>
    match r.tracker.decide ⟨.spawnFailure e.retryable, 0⟩ none with
    | (.restart delay attempt, tracker) => { r with tracker := tracker }.backOff delay attempt false
    | (_, tracker) =>
      let error := e.error r.service
      let r := { r with tracker := tracker }
      -- A rejected transition is ignored here.
      let r := match r.state.tryTransition .failed with
        | .ok state => { r with state := state }.emit (.state state)
        | .error _ => r
      (r.emit (.failed (toString error))).fail error

/-- `Wake::Signalled` and `Wake::Unhealthy`, up to the signal. -/
def stop (pgid : ℤ) (reason : ShutdownReason) (stoppedBy : Option ShutdownReason) : Runner :=
  (r.emit (.stopping reason)).transition .stopping fun r =>
    { r with phase := .signalling pgid stoppedBy }

/-- The process has ended. -/
def waited (pgid : ℤ) (stoppedBy : Option ShutdownReason) (unhealthy : Bool)
    (result : Except IoError ExitStatus) : Runner :=
  match result with
  | .ok status =>
    let reason := if unhealthy then .unhealthy else status.exitReason
    { r with phase := .sweeping pgid reason stoppedBy }
  | .error source => r.fail (.waitFailed r.service.name.raw source)

/-- The process was signalled with SIGKILL, and the runner goes on with `k`. -/
def killGroup (pgid : ℤ) (result : Except IoError Unit) (k : Runner → Runner) : Runner :=
  match result with
  | .ok () => k r
  | .error source =>
    r.fail (.forceKillFailed r.service.name.raw pgid r.service.shutdownTimeout source)

/-- The end of a run, once the group is swept and the output is drained. -/
def ended (reason : ExitReason) (stoppedBy : Option ShutdownReason) (uptime : Duration) : Runner :=
  match stoppedBy with
  | some why => r.transition .stopped fun r =>
    (r.emit (.finished s!"stopped ({why}), last status: {reason}")).finish (.stopped why)
  | none =>
    let r := r.emit (.exited reason uptime)
    match r.tracker.decide ⟨reason, uptime⟩ none with
    | (.restart delay attempt, tracker) => { r with tracker := tracker }.backOff delay attempt true
    | (.stop, tracker) => { r with tracker := tracker }.transition .exited fun r =>
      (r.emit (.finished (toString reason))).finish (.exited reason r.restarts)
    | (.fail _, tracker) => { r with tracker := tracker }.transition .failed fun r =>
      let error := RuntimeError.restartLimitExhausted r.service.name.raw r.restarts
      (r.emit (.failed (toString error))).fail error

/-- A stop request during a restart delay. -/
def stopBackoff (afterExit : Bool) (why : ShutdownReason) : Runner :=
  r.transition .stopped fun r =>
    (if afterExit then r.emit (.finished s!"stopped ({why})") else r).finish (.stopped why)

/-- Whether an unhealthy verdict stops the process. -/
def actOnUnhealthy : Bool := r.service.health.any HealthCheck.stopsProcess

/-- One step of a runner that has nothing left to publish. -/
def step (action : RunnerAction) : Option Runner :=
  match r.phase, action with
  | .head, .head stop => some (r.atHead stop)
  | .spawning, .spawn result => some (r.spawned result)
  | .running pgid, .wait result => some (r.waited pgid none false result)
  | .running pgid, .interrupted reason => some (r.stop pgid reason (some reason))
  | .running pgid, .unhealthy =>
    if r.actOnUnhealthy then some (r.stop pgid .unhealthy none) else none
  | .signalling pgid stoppedBy, .signal result => some <|
    match result with
    | .ok () => { r with phase := .stopping pgid stoppedBy }
    | .error source => r.fail
      (.signalDeliveryFailed r.service.name.raw r.service.shutdownSignal.osSignal pgid source)
  | .stopping pgid stoppedBy, .wait result | .killed pgid stoppedBy, .wait result =>
    some (r.waited pgid stoppedBy stoppedBy.isNone result)
  | .stopping pgid stoppedBy, .escalate result =>
    some (r.killGroup pgid result fun r => { r with phase := .killed pgid stoppedBy })
  | .sweeping pgid reason stoppedBy, .sweep result uptime =>
    some (r.killGroup pgid result fun r => r.ended reason stoppedBy uptime)
  | .backoff _, .slept => some { r with restarts := r.restarts + 1, phase := .head }
  | .backoff afterExit, .interrupted why => some (r.stopBackoff afterExit why)
  | .returning result, .return => some { r with phase := .returned result }
  | _, _ => none

/-- Whether the runner still holds the receiver of the monitor of the given run. -/
def watches (run : ℕ) : Bool :=
  run == r.runs &&
    match r.phase with
    | .head | .spawning | .returned _ => false
    | _ => true

end Runner

end Servicrab
