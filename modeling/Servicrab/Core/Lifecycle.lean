import Servicrab.Core.Config

/-!
# Lifecycle states and the restart logic

The pure half of supervision (`lifecycle.rs`): the states a service goes through, why a process
ended, why a service is shut down, and the tracker that decides whether it is started again.
-/

namespace Servicrab

/-! ### States -/

/-- Observable state of a single managed service. -/
inductive ServiceState
  | pending
  | starting
  | running
  | backoff
  | stopping
  | stopped
  | exited
  | failed
  deriving DecidableEq, Repr

namespace ServiceState

/-- Whether a transition from `s` to `next` is legal. -/
def canTransitionTo (s next : ServiceState) : Bool :=
  match s, next with
  | pending, starting | pending, stopped
  | starting, running | starting, backoff | starting, exited | starting, failed
  | starting, stopping
  | running, stopping | running, backoff | running, exited | running, failed
  | backoff, starting | backoff, stopped | backoff, failed
  | stopping, backoff | stopping, stopped | stopping, exited | stopping, failed => true
  | _, _ => false

/-- Whether no further transition is possible. -/
def isTerminal (s : ServiceState) : Bool :=
  match s with
  | stopped | exited | failed => true
  | _ => false

/-- A terminal state has no successor. -/
theorem not_canTransitionTo_of_isTerminal {s : ServiceState} (h : s.isTerminal) (next : ServiceState) :
    s.canTransitionTo next = false := by
  cases s <;> first | rfl | exact absurd h (by decide)

instance : ToString ServiceState where
  toString
    | pending => "pending"
    | starting => "starting"
    | running => "running"
    | backoff => "backoff"
    | stopping => "stopping"
    | stopped => "stopped"
    | exited => "exited"
    | failed => "failed"

end ServiceState

/-- A rejected transition. -/
structure InvalidTransition where
  source : ServiceState
  target : ServiceState
  deriving DecidableEq, Repr

instance : ToString InvalidTransition where
  toString e := s!"invalid transition {e.source} -> {e.target}"

/-- `StateMachine::try_transition`: the next state, or why the edge is illegal. -/
def ServiceState.tryTransition (s next : ServiceState) : Except InvalidTransition ServiceState :=
  if s.canTransitionTo next then .ok next else .error ⟨s, next⟩

/-! ### Reasons -/

/-- Why a supervised process stopped running. -/
inductive ExitReason
  | code (code : ℤ)
  | signal (signal : ℤ)
  | spawnFailure (retryable : Bool)
  | unhealthy
  deriving DecidableEq, Repr

/-- Whether this outcome counts as a successful run. -/
def ExitReason.isSuccess (reason : ExitReason) : Bool :=
  reason == .code 0

instance : ToString ExitReason where
  toString
    | .code code => s!"exited with code {code}"
    | .signal signal => s!"terminated by signal {signal}"
    | .spawnFailure retryable => s!"spawn failed (retryable: {retryable})"
    | .unhealthy => "stopped after failing its health check"

/-- Why the supervisor is shutting a service down. -/
inductive ShutdownReason
  | userInterrupt
  | terminated
  | hangUp
  | restartLimit
  | stackFailure
  | unhealthy
  | requested
  deriving DecidableEq, Repr

/-- Whether the shutdown was requested by the user, and must never trigger a restart. -/
def ShutdownReason.isUserRequested (reason : ShutdownReason) : Bool :=
  match reason with
  | .userInterrupt | .terminated | .hangUp | .requested => true
  | _ => false

instance : ToString ShutdownReason where
  toString
    | .userInterrupt => "interrupted by user"
    | .terminated => "supervisor terminated"
    | .hangUp => "controlling terminal closed"
    | .restartLimit => "restart limit exhausted"
    | .stackFailure => "another service failed"
    | .requested => "stopped on request"
    | .unhealthy => "failed its health check"

/-! ### Restarts -/

/-- The result of one supervised process run. -/
structure ProcessOutcome where
  reason : ExitReason
  uptime : Duration
  deriving DecidableEq, Repr

/-- What the supervisor should do after a `ProcessOutcome`. -/
inductive RestartDecision
  | restart (delay : Duration) (attempt : ℕ)
  | stop
  | fail (reason : ShutdownReason)
  deriving DecidableEq, Repr

/-- `u32::MAX`. -/
def u32Max : ℕ := 2 ^ 32 - 1

/-- The longest `Duration`: `u64::MAX` seconds and 999999999 nanoseconds. -/
def durationMax : Duration := 2 ^ 64 * 10 ^ 9 - 1

/-- Restart bookkeeping for a single service. It owns no clock and spawns nothing. -/
structure RestartTracker where
  policy : RestartPolicy
  restartDelay : Duration
  restartMaxDelay : Duration
  /-- Restarts allowed between stable runs; `0` means unlimited. -/
  maxRestarts : ℕ
  stableAfter : Duration
  attempts : ℕ
  deriving DecidableEq, Repr

namespace RestartTracker

/-- Build a tracker from a validated service. -/
def fromService (service : Service) : RestartTracker where
  policy := service.restart
  restartDelay := service.restartDelay
  restartMaxDelay := service.restartMaxDelay
  maxRestarts := service.maxRestarts
  stableAfter := service.stableAfter
  attempts := 0

/-- Force the policy (used by `--no-restart`). -/
def withPolicy (t : RestartTracker) (policy : RestartPolicy) : RestartTracker :=
  { t with policy := policy }

/-- Backoff delay for a zero-based attempt index. The shift is checked against the 64 bits of the
factor, the factor is cut to `u32::MAX`, and a product that is no `Duration` becomes the maximum
delay. -/
def backoffForAttempt (t : RestartTracker) (attempt : ℕ) : Duration :=
  let factor := if attempt < 64 then 2 ^ attempt else 2 ^ 64 - 1
  let factor := min factor u32Max
  let delay := if t.restartDelay * factor ≤ durationMax then t.restartDelay * factor
    else t.restartMaxDelay
  min delay t.restartMaxDelay

/-- Whether another restart attempt is allowed. -/
def budgetLeft (t : RestartTracker) : Bool :=
  t.maxRestarts == 0 || t.attempts < t.maxRestarts

/-- Whether the policy restarts a service after this end. -/
def shouldRestart (t : RestartTracker) (reason : ExitReason) : Bool :=
  match t.policy, reason with
  | .never, _ => false
  | .always, .spawnFailure retryable | .unlessStopped, .spawnFailure retryable => retryable
  | .always, _ | .unlessStopped, _ => true
  | .onFailure, .code code => code != 0
  | .onFailure, .signal _ | .onFailure, .unhealthy => true
  | .onFailure, .spawnFailure retryable => retryable

/-- Decide what to do after a process run. -/
def decide (t : RestartTracker) (outcome : ProcessOutcome) (shutdown : Option ShutdownReason) :
    RestartDecision × RestartTracker :=
  if shutdown.any ShutdownReason.isUserRequested then (.stop, t)
  else
    -- A long enough run gives a fresh budget before the policy is consulted.
    let t := if t.stableAfter ≤ outcome.uptime then { t with attempts := 0 } else t
    if !t.shouldRestart outcome.reason then (.stop, t)
    else if !t.budgetLeft then (.fail .restartLimit, t)
    else
      let delay := t.backoffForAttempt t.attempts
      let t := { t with attempts := min (t.attempts + 1) u32Max }
      (.restart delay t.attempts, t)

end RestartTracker

end Servicrab
