import Servicrab.Core.Event

/-!
# What dependents are told about a service

The facts a supervision task broadcasts about its service, the fold that derives them from the
events of the service, and the verdict a dependent draws from them (`stack.rs`).

## Main definitions

* `DependencyStatus`, `DependencyStatus.readiness`.
* `DependencyStatus.observe`, `DependencyStatus.observed`: one step of `ReadinessTracker`.
-/

namespace Servicrab

/-- Whether a service can be depended on yet. -/
inductive Readiness
  /-- Not available yet; keep waiting. -/
  | pending
  /-- Available: dependents may start. -/
  | ready
  /-- It will never become available. -/
  | gone
  deriving DecidableEq, Repr

/-- What a service's own event stream says about it so far. -/
structure DependencyStatus where
  /-- The last lifecycle state observed. -/
  state : ServiceState
  /-- Whether a probe has passed for the process that is running now. -/
  healthy : Bool
  /-- Whether the current run is known to be unhealthy. -/
  unhealthy : Bool
  /-- Whether the last run that ended exited with status 0. -/
  exitedOk : Bool
  /-- Set when the service will not run at all. -/
  gone : Bool
  deriving DecidableEq, Repr

namespace DependencyStatus

/-- The status of a service that has not been started yet. -/
def new : DependencyStatus where
  state := .pending
  healthy := false
  unhealthy := false
  exitedOk := false
  gone := false

/-- Whether a dependent waiting for `condition` may start. -/
def readiness (status : DependencyStatus) (condition : DependencyCondition) : Readiness :=
  if status.gone then .gone
  else
    match status.state, condition with
    | .exited, .serviceCompletedSuccessfully => if status.exitedOk then .ready else .gone
    | .exited, _ => if status.unhealthy then .gone else .ready
    | .failed, _ | .stopped, _ => .gone
    | .running, .serviceStarted => .ready
    | .running, .serviceHealthy => if status.healthy then .ready else .pending
    | _, _ => .pending

/-- What `ReadinessTracker::observe` keeps after one runtime event; a tracker starts at `new`. -/
def observe (status : DependencyStatus) (kind : EventKind) : DependencyStatus :=
  match kind with
  | .healthy => { status with healthy := true, unhealthy := false }
  | .unhealthy _ => { status with healthy := false, unhealthy := true }
  | .exited reason _ =>
    { status with
      exitedOk := reason.isSuccess
      unhealthy := status.unhealthy || reason == .unhealthy }
  | .state state =>
    -- A restart gets a clean slate.
    if state = .starting then { status with state := state, healthy := false, unhealthy := false }
    else { status with state := state }
  | _ => status

/-- What `ReadinessTracker::observe` returns: the new status, when it changed. -/
def observed (status : DependencyStatus) (kind : EventKind) : Option DependencyStatus :=
  if status.observe kind = status then none else some (status.observe kind)

@[simp] theorem readiness_new (condition : DependencyCondition) :
    new.readiness condition = .pending := by
  cases condition <;> rfl

/-- A fold never brings a status back from `gone`, nor sends it there. -/
@[simp] theorem observe_gone (status : DependencyStatus) (kind : EventKind) :
    (status.observe kind).gone = status.gone := by
  cases kind <;> simp only [observe]
  split <;> rfl

end DependencyStatus

end Servicrab
