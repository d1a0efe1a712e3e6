import Servicrab.Runner.Steps

/-!
# The moves of a runner, in full

The state of the lifecycle machine is a function of where the runner is in its loop, up to the ways
a run can end. In a runner that is aligned in this sense no transition is rejected, so what a step
does can be said without `transition`: one case for every branch of `run` and `shutdown`.

## Main definitions

* `Runner.Aligned`: the lifecycle state fits the phase.
* `Runner.Moved`: what a step of an aligned runner does.

## Main results

* `Runner.moved_of_step`, `Runner.Moved.aligned`.
-/

namespace Servicrab

/-- The lifecycle state fits the end of a run: it is terminal unless the process was left behind by
a system call that failed. -/
def RuntimeError.Fits (error : RuntimeError) (state : ServiceState) : Prop :=
  match error with
  | .waitFailed .. | .signalDeliveryFailed .. | .forceKillFailed .. => True
  | .invalidTransition .. => False
  | _ => state.isTerminal

namespace Runner

/-- The result of the run, once it is decided. -/
def result (r : Runner) : Option (Except RuntimeError RunOutcome) :=
  match r.phase with
  | .returning result | .returned result => some result
  | _ => none

/-- The lifecycle state fits the phase. -/
def Aligned (r : Runner) : Prop :=
  match r.phase with
  | .head => r.state = .pending ∨ r.state = .backoff
  | .spawning => r.state = .starting
  | .running _ => r.state = .running
  | .signalling _ _ | .stopping _ _ | .killed _ _ => r.state = .stopping
  | .sweeping _ _ stoppedBy => r.state = .stopping ∨ r.state = .running ∧ stoppedBy = none
  | .backoff _ => r.state = .backoff
  | .returning (.ok _) | .returned (.ok _) => r.state.isTerminal
  | .returning (.error error) | .returned (.error error) => error.Fits r.state

theorem aligned_new (service : Service) (options : RunOptions) :
    (new service options).Aligned := .inl rfl

/-- Publish a new lifecycle state, and go on to a phase. -/
def moveTo (r : Runner) (state : ServiceState) (kinds : List EventKind) (phase : RunnerPhase) :
    Runner :=
  { r with state := state, outbox := r.outbox ++ kinds, phase := phase }

/-- What a step of an aligned runner does. -/
inductive Moved (r : Runner) : RunnerAction → Runner → Prop
  | stoppedAtHead {reason : ShutdownReason} (hphase : r.phase = .head) :
    Moved r (.head (some reason))
      (r.moveTo .stopped [.state .stopped] (.returning (.ok (.stopped reason))))
  | started (hphase : r.phase = .head) :
    Moved r (.head none)
      { r.moveTo .starting [.state .starting] .spawning with runs := r.runs + 1 }
  | spawned {pgid : ℤ} (hphase : r.phase = .spawning) :
    Moved r (.spawn (.ok pgid))
      (r.moveTo .running [.state .running, .started pgid] (.running pgid))
  | spawnRetried {e : SpawnError} {delay : Duration} {attempt : ℕ} {tracker : RestartTracker}
    (hphase : r.phase = .spawning)
    (hdecide : r.tracker.decide ⟨.spawnFailure e.retryable, 0⟩ none =
      (.restart delay attempt, tracker)) :
    Moved r (.spawn (.error e))
      { r.moveTo .backoff [.state .backoff, .backoff delay attempt] (.backoff false) with
        tracker := tracker }
  | spawnFailed {e : SpawnError} {tracker : RestartTracker} (hphase : r.phase = .spawning)
    (hdecide : ∀ delay attempt,
      (r.tracker.decide ⟨.spawnFailure e.retryable, 0⟩ none).1 ≠ .restart delay attempt) :
    Moved r (.spawn (.error e))
      { r.moveTo .failed [.state .failed, .failed (toString (e.error r.service))]
          (.returning (.error (e.error r.service))) with
        tracker := tracker }
  | exited {pgid : ℤ} {status : ExitStatus} (hphase : r.phase = .running pgid) :
    Moved r (.wait (.ok status)) { r with phase := .sweeping pgid status.exitReason none }
  | interrupted {pgid : ℤ} {reason : ShutdownReason} (hphase : r.phase = .running pgid) :
    Moved r (.interrupted reason)
      (r.moveTo .stopping [.stopping reason, .state .stopping] (.signalling pgid (some reason)))
  | unhealthy {pgid : ℤ} (hphase : r.phase = .running pgid) (hact : r.actOnUnhealthy) :
    Moved r .unhealthy
      (r.moveTo .stopping [.stopping .unhealthy, .state .stopping] (.signalling pgid none))
  | signalled {pgid : ℤ} {stoppedBy : Option ShutdownReason}
    (hphase : r.phase = .signalling pgid stoppedBy) :
    Moved r (.signal (.ok ())) { r with phase := .stopping pgid stoppedBy }
  | escalated {pgid : ℤ} {stoppedBy : Option ShutdownReason}
    (hphase : r.phase = .stopping pgid stoppedBy) :
    Moved r (.escalate (.ok ())) { r with phase := .killed pgid stoppedBy }
  | reaped {pgid : ℤ} {stoppedBy : Option ShutdownReason} {status : ExitStatus}
    (hphase : r.phase = .stopping pgid stoppedBy ∨ r.phase = .killed pgid stoppedBy) :
    Moved r (.wait (.ok status))
      { r with
        phase := .sweeping pgid (if stoppedBy.isNone then .unhealthy else status.exitReason)
          stoppedBy }
  | endedStopped {pgid : ℤ} {reason : ExitReason} {why : ShutdownReason} {uptime : Duration}
    (hphase : r.phase = .sweeping pgid reason (some why)) :
    Moved r (.sweep (.ok ()) uptime)
      (r.moveTo .stopped [.state .stopped, .finished s!"stopped ({why}), last status: {reason}"]
        (.returning (.ok (.stopped why))))
  | endedRestart {pgid : ℤ} {reason : ExitReason} {uptime delay : Duration} {attempt : ℕ}
    {tracker : RestartTracker} (hphase : r.phase = .sweeping pgid reason none)
    (hdecide : r.tracker.decide ⟨reason, uptime⟩ none = (.restart delay attempt, tracker)) :
    Moved r (.sweep (.ok ()) uptime)
      { r.moveTo .backoff [.exited reason uptime, .state .backoff, .backoff delay attempt]
          (.backoff true) with
        tracker := tracker }
  | endedStop {pgid : ℤ} {reason : ExitReason} {uptime : Duration} {tracker : RestartTracker}
    (hphase : r.phase = .sweeping pgid reason none)
    (hdecide : r.tracker.decide ⟨reason, uptime⟩ none = (.stop, tracker)) :
    Moved r (.sweep (.ok ()) uptime)
      { r.moveTo .exited [.exited reason uptime, .state .exited, .finished (toString reason)]
          (.returning (.ok (.exited reason r.restarts))) with
        tracker := tracker }
  | endedFail {pgid : ℤ} {reason : ExitReason} {uptime : Duration} {why : ShutdownReason}
    {tracker : RestartTracker} (hphase : r.phase = .sweeping pgid reason none)
    (hdecide : r.tracker.decide ⟨reason, uptime⟩ none = (.fail why, tracker)) :
    Moved r (.sweep (.ok ()) uptime)
      { r.moveTo .failed [.exited reason uptime, .state .failed,
          .failed (toString (RuntimeError.restartLimitExhausted r.service.name.raw r.restarts))]
          (.returning (.error (.restartLimitExhausted r.service.name.raw r.restarts))) with
        tracker := tracker }
  | slept {afterExit : Bool} (hphase : r.phase = .backoff afterExit) :
    Moved r .slept { r with restarts := r.restarts + 1, phase := .head }
  | stoppedInBackoff {afterExit : Bool} {why : ShutdownReason}
    (hphase : r.phase = .backoff afterExit) :
    Moved r (.interrupted why)
      (r.moveTo .stopped
        (.state .stopped :: if afterExit then [.finished s!"stopped ({why})"] else [])
        (.returning (.ok (.stopped why))))
  | returned {result : Except RuntimeError RunOutcome} (hphase : r.phase = .returning result) :
    Moved r .return { r with phase := .returned result }
  | waitBroke {pgid : ℤ} {source : IoError}
    (hphase : r.phase = .running pgid ∨
      ∃ stoppedBy, r.phase = .stopping pgid stoppedBy ∨ r.phase = .killed pgid stoppedBy) :
    Moved r (.wait (.error source)) (r.fail (.waitFailed r.service.name.raw source))
  | signalBroke {pgid : ℤ} {stoppedBy : Option ShutdownReason} {source : IoError}
    (hphase : r.phase = .signalling pgid stoppedBy) :
    Moved r (.signal (.error source))
      (r.fail (.signalDeliveryFailed r.service.name.raw r.service.shutdownSignal.osSignal pgid
        source))
  | escalateBroke {pgid : ℤ} {stoppedBy : Option ShutdownReason} {source : IoError}
    (hphase : r.phase = .stopping pgid stoppedBy) :
    Moved r (.escalate (.error source))
      (r.fail (.forceKillFailed r.service.name.raw pgid r.service.shutdownTimeout source))
  | sweepBroke {pgid : ℤ} {reason : ExitReason} {stoppedBy : Option ShutdownReason}
    {source : IoError} {uptime : Duration} (hphase : r.phase = .sweeping pgid reason stoppedBy) :
    Moved r (.sweep (.error source) uptime)
      (r.fail (.forceKillFailed r.service.name.raw pgid r.service.shutdownTimeout source))

variable {r r' : Runner} {action : RunnerAction}

theorem transition_of_can {next : ServiceState} (h : r.state.canTransitionTo next)
    (k : Runner → Runner) :
    r.transition next k = k ({ r with state := next }.emit (.state next)) := by
  simp only [transition, ServiceState.tryTransition, h, if_true]

theorem backOff_of_can (h : r.state.canTransitionTo .backoff) (delay : Duration) (attempt : ℕ)
    (afterExit : Bool) :
    r.backOff delay attempt afterExit =
      r.moveTo .backoff [.state .backoff, .backoff delay attempt] (.backoff afterExit) := by
  simp [backOff, transition_of_can h, emit, moveTo]

theorem moved_head (hphase : r.phase = .head) (hstate : r.state = .pending ∨ r.state = .backoff)
    (stop : Option ShutdownReason) : Moved r (.head stop) (r.atHead stop) := by
  have hcan : r.state.canTransitionTo .stopped ∧ r.state.canTransitionTo .starting := by
    rcases hstate with h | h <;> rw [h] <;> decide
  cases stop with
  | none =>
    rw [atHead, transition_of_can hcan.2]
    exact .started hphase
  | some reason =>
    rw [atHead, transition_of_can hcan.1]
    exact .stoppedAtHead hphase

theorem moved_spawned (hphase : r.phase = .spawning) (hstate : r.state = .starting)
    (result : Except SpawnError ℤ) : Moved r (.spawn result) (r.spawned result) := by
  have hcan : ∀ next ∈ [ServiceState.running, .backoff, .failed],
      r.state.canTransitionTo next := by
    rw [hstate]
    decide
  cases result with
  | ok pgid =>
    rw [spawned, transition_of_can (hcan _ (by simp))]
    have hmoved : Moved r (.spawn (.ok pgid)) _ := .spawned hphase
    simpa [emit, moveTo] using hmoved
  | error e =>
    unfold spawned
    simp only
    split
    · rename_i hdecide
      rw [backOff_of_can]
      · exact .spawnRetried hphase hdecide
      · exact hcan .backoff (by simp)
    · rename_i decision tracker hnot hdecide
      have hfailed : ∀ delay attempt,
          (r.tracker.decide ⟨.spawnFailure e.retryable, 0⟩ none).1 ≠ .restart delay attempt := by
        intro delay attempt he
        rw [hdecide] at he
        exact hnot delay attempt he
      simp only [ServiceState.tryTransition, hcan .failed (by simp), if_true]
      simpa [emit, fail, moveTo] using Moved.spawnFailed (r := r) (e := e) hphase hfailed

theorem moved_stop {pgid : ℤ} (hstate : r.state = .running) (reason : ShutdownReason)
    (stoppedBy : Option ShutdownReason) :
    r.stop pgid reason stoppedBy =
      r.moveTo .stopping [.stopping reason, .state .stopping] (.signalling pgid stoppedBy) := by
  have hcan : (r.emit (.stopping reason)).state.canTransitionTo .stopping := by
    rw [emit, hstate]
    decide
  rw [stop, transition_of_can hcan]
  simp [emit, moveTo]

theorem moved_ended {pgid : ℤ} {reason : ExitReason} {stoppedBy : Option ShutdownReason}
    (hphase : r.phase = .sweeping pgid reason stoppedBy)
    (hstate : r.state = .stopping ∨ r.state = .running ∧ stoppedBy = none) (uptime : Duration) :
    Moved r (.sweep (.ok ()) uptime) (r.ended reason stoppedBy uptime) := by
  have hcan : ∀ next ∈ [ServiceState.backoff, .exited, .failed], r.state.canTransitionTo next := by
    rcases hstate with h | ⟨h, -⟩ <;> rw [h] <;> decide
  unfold ended
  cases stoppedBy with
  | some why =>
    have hstopped : r.state.canTransitionTo .stopped := by
      rcases hstate with h | ⟨-, h⟩
      · rw [h]
        decide
      · cases h
    simp only
    rw [transition_of_can hstopped]
    have hmoved : Moved r (.sweep (.ok ()) uptime) _ := .endedStopped hphase
    simpa [emit, finish, moveTo] using hmoved
  | none =>
    have hemit : (r.emit (.exited reason uptime)).tracker = r.tracker := rfl
    simp only [hemit]
    split
    · rename_i delay attempt tracker hdecide
      rw [backOff_of_can]
      · simpa [emit, moveTo] using Moved.endedRestart hphase hdecide
      · exact hcan .backoff (by simp)
    · rename_i tracker hdecide
      rw [transition_of_can]
      · simpa [emit, finish, moveTo] using Moved.endedStop hphase hdecide
      · exact hcan .exited (by simp)
    · rename_i why tracker hdecide
      rw [transition_of_can]
      · simpa [emit, fail, moveTo] using Moved.endedFail hphase hdecide
      · exact hcan .failed (by simp)

/-- What a step of an aligned runner does. -/
theorem moved_of_step (hA : r.Aligned) (h : r.step action = some r') : Moved r action r' := by
  unfold step at h
  unfold Aligned at hA
  split at h
  case h_1 stop hphase =>
    cases h
    rw [hphase] at hA
    exact moved_head hphase hA stop
  case h_2 result hphase =>
    cases h
    rw [hphase] at hA
    exact moved_spawned hphase hA result
  case h_3 pgid result hphase =>
    cases h
    cases result with
    | ok status => exact .exited hphase
    | error source => exact .waitBroke (.inl hphase)
  case h_4 pgid reason hphase =>
    cases h
    rw [hphase] at hA
    rw [moved_stop hA]
    exact .interrupted hphase
  case h_5 pgid hphase =>
    split_ifs at h with hact
    cases h
    rw [hphase] at hA
    rw [moved_stop hA]
    exact .unhealthy hphase hact
  case h_6 pgid stoppedBy result hphase =>
    cases h
    cases result with
    | ok => exact .signalled hphase
    | error source => exact .signalBroke hphase
  case h_7 pgid stoppedBy result hphase =>
    cases h
    cases result with
    | ok status => exact .reaped (.inl hphase)
    | error source => exact .waitBroke (.inr ⟨stoppedBy, .inl hphase⟩)
  case h_8 pgid stoppedBy result hphase =>
    cases h
    cases result with
    | ok status => exact .reaped (.inr hphase)
    | error source => exact .waitBroke (.inr ⟨stoppedBy, .inr hphase⟩)
  case h_9 pgid stoppedBy result hphase =>
    cases h
    cases result with
    | ok => exact .escalated hphase
    | error source => exact .escalateBroke hphase
  case h_10 pgid reason stoppedBy result uptime hphase =>
    cases h
    rw [hphase] at hA
    cases result with
    | ok => exact moved_ended hphase hA uptime
    | error source => exact .sweepBroke hphase
  case h_11 hphase =>
    cases h
    exact .slept hphase
  case h_12 afterExit why hphase =>
    cases h
    rw [hphase] at hA
    have hcan : r.state.canTransitionTo .stopped := by
      rw [show r.state = .backoff from hA]
      decide
    rw [stopBackoff, transition_of_can hcan]
    have hmoved : Moved r (.interrupted why) _ := .stoppedInBackoff hphase
    cases afterExit <;> simpa [emit, finish, moveTo] using hmoved
  case h_13 result hphase =>
    cases h
    exact .returned hphase
  case h_14 => cases h

/-- A step keeps the lifecycle state and the phase together. -/
theorem Moved.aligned (hA : r.Aligned) (h : Moved r action r') : r'.Aligned := by
  unfold Aligned at hA
  cases h with
  | exited hphase =>
    rw [hphase] at hA
    exact .inr ⟨hA, rfl⟩
  | signalled hphase | escalated hphase =>
    rw [hphase] at hA
    exact hA
  | reaped hphase =>
    refine .inl ?_
    rcases hphase with hphase | hphase <;> rw [hphase] at hA <;> exact hA
  | slept hphase =>
    rw [hphase] at hA
    exact .inr hA
  | returned hphase =>
    rename_i result
    rw [hphase] at hA
    cases result <;> exact hA
  | waitBroke | signalBroke | escalateBroke | sweepBroke => trivial
  | @spawnFailed e =>
    cases e
    · rfl
    · trivial
  | _ => rfl

end Runner

end Servicrab
