import Servicrab.Core.Event

/-!
# Health monitors

`HealthMonitor::run` (`health.rs`) as a machine that does at most one thing its surroundings can
see in a step: it waits for a tick or for the end of its channel, checks the channel once more,
probes, and then publishes what the result of the probe calls for, one item at a time. A probe in
flight is always allowed to finish. The clock and the probe itself are left open: a probe step
says what the probe returned, and whether the start period was still running.

## Main definitions

* `Monitor`, `Monitor.onProbe`, `Monitor.step`.
-/

namespace Servicrab

/-- What a health monitor reports back to the service runner. -/
inductive HealthSignal
  | ready
  | unhealthy (message : String)
  deriving DecidableEq, Repr

def HealthSignal.isUnhealthy (signal : HealthSignal) : Bool :=
  match signal with
  | .unhealthy _ => true
  | .ready => false

/-- Whether a failing health check should stop the process. -/
def HealthCheck.stopsProcess (check : HealthCheck) : Bool :=
  check.onUnhealthy == .restart

/-- Ceiling for the consecutive-failure counter. -/
def maxConsecutiveFailures : ℕ := 100000

/-- While a probe keeps failing, report every this many failures. -/
def reportFailureEvery : ℕ := 100

/-- Whether a failure at `consecutive` should be published. -/
def shouldReportFailure (consecutive retries reportedAt : ℕ) : Bool :=
  consecutive == 1 || consecutive == retries ||
    decide (min (reportedAt + reportFailureEvery) u32Max ≤ consecutive)

/-- One thing a monitor sends: an event, or a signal to the runner. -/
inductive MonitorOutput
  | emit (kind : EventKind)
  | send (signal : HealthSignal)
  deriving DecidableEq, Repr

/-- Where a monitor is in its loop. -/
inductive MonitorPhase
  /-- It waits for the next tick or the end of its channel. -/
  | idle
  /-- The tick came first. -/
  | ticked
  /-- A probe is in flight. -/
  | probing
  /-- A probe has returned, and this is left to be sent. -/
  | publishing (output : List MonitorOutput)
  | done
  deriving DecidableEq, Repr

/-- A health monitor, with the process run it was spawned for and the signals it has sent. -/
structure Monitor where
  run : ℕ
  check : HealthCheck
  consecutive : ℕ
  ready : Bool
  /-- Which failure was last published. -/
  reportedAt : ℕ
  phase : MonitorPhase
  sent : List HealthSignal
  deriving DecidableEq, Repr

/-- A step of a monitor. -/
inductive MonitorAction
  | tick
  /-- The channel turns out to be closed while the monitor waits. -/
  | close
  | check
  /-- The probe in flight returns. -/
  | probe (result : Except String Unit) (inStartPeriod : Bool)
  | publish
  deriving DecidableEq

namespace Monitor

/-- A monitor as it is spawned for a process run. -/
def new (run : ℕ) (check : HealthCheck) : Monitor where
  run := run
  check := check
  consecutive := 0
  ready := false
  reportedAt := 0
  phase := .idle
  sent := []

variable (m : Monitor)

/-- Never below `retries`, so that the cap cannot swallow the transition to unhealthy. -/
def ceiling : ℕ := max maxConsecutiveFailures m.check.retries

/-- Go on to send the given items, and then back to waiting. -/
def send (output : List MonitorOutput) : Monitor :=
  { m with phase := if output = [] then .idle else .publishing output }

/-- What the result of a probe calls for. -/
def onProbe (result : Except String Unit) (inStartPeriod : Bool) : Monitor :=
  match result with
  | .ok () =>
    let m := { m with consecutive := 0, reportedAt := 0 }
    if m.ready then m.send []
    else { m with ready := true }.send [.emit .healthy, .send .ready]
  | .error message =>
    -- Failures during the start period never count.
    if inStartPeriod then m.send []
    else
      let consecutive := min (min (m.consecutive + 1) u32Max) m.ceiling
      let report := shouldReportFailure consecutive m.check.retries m.reportedAt
      let reported : List MonitorOutput :=
        if report then [.emit (.healthProbeFailed message consecutive m.check.retries)] else []
      let gaveUp := consecutive == m.check.retries
      let verdict : List MonitorOutput :=
        if gaveUp then [.emit (.unhealthy message), .send (.unhealthy message)] else []
      { m with
        consecutive := consecutive
        reportedAt := if report then consecutive else m.reportedAt
        ready := m.ready && !gaveUp }.send (reported ++ verdict)

/-- One step of a monitor, given whether its channel is closed, with the event it emits. -/
def step (closed : Bool) : MonitorAction → Option (Monitor × Option EventKind)
  | .tick => if m.phase = .idle then some ({ m with phase := .ticked }, none) else none
  | .close => if m.phase = .idle ∧ closed then some ({ m with phase := .done }, none) else none
  | .check =>
    if m.phase = .ticked then
      some ({ m with phase := if closed then .done else .probing }, none)
    else none
  | .probe result inStartPeriod =>
    if m.phase = .probing then some (m.onProbe result inStartPeriod, none) else none
  | .publish =>
    match m.phase with
    | .publishing (.emit kind :: rest) => some (m.send rest, some kind)
    | .publishing (.send signal :: rest) =>
      if closed then some ({ m with phase := .done }, none)
      else some ({ m with sent := m.sent ++ [signal] }.send rest, none)
    | _ => none

end Monitor

end Servicrab
