import Servicrab.Core.Budget
import Servicrab.Runner.Freshness
import Servicrab.Runner.Moves

/-!
# A runner and its stop channel

The runner reads the stop channel at the head of its loop, in `wait_for_shutdown` while the process
runs or a restart delay passes, and as a further request in `shutdown`, where only the fact that
the channel has changed counts. An end that is taken while a request is pending (by the `select!` of
the loop, in `shutdown` for an unhealthy process, or from a failed spawn) is put to the restart
tracker without it.

## Main definitions

* `StoppableRunner`, `StoppableRunner.step`, `stoppableSystem`.
* `StoppableRunner.requested`, `StoppableRunner.observed`: a request of the user was made, and the
  runner has looked at its channel since.
* `StoppableRunner.Defies`, `StoppableRunner.Obeys`: a step goes, or does not go, against a request.
* `StoppableRunner.Overlooks`: the step takes an end to the restart policy without the request.

## Main results

* `StoppableRunner.defies_iff`: which steps go against a request.
* `StoppableRunner.obeys_iff`: which runs do.
-/

open TransitionSystem (AnyStep)

namespace Servicrab

/-- A runner, with the stop channel it is driven by. -/
structure StoppableRunner where
  runner : Runner
  /-- Every request sent on the channel. -/
  sent : List ShutdownReason
  /-- How many of them the runner has seen. -/
  seen : ℕ
  /-- For the record: whether the user had requested a shutdown when the last end, that of a process
  or of an attempt to start one, was observed. -/
  late : Bool
  deriving DecidableEq

/-- A step of the runner, or of somebody who sends on its stop channel. -/
inductive StopAction
  | request (reason : ShutdownReason)
  /-- A step of the runner; to escalate this way is to have run into the timeout. -/
  | runner (action : RunnerAction)
  /-- In `shutdown`, the channel turns out to have changed, and the group is killed. -/
  | secondRequest (result : Except IoError Unit)
  /-- The runner sends the next event it has to publish. -/
  | publish
  deriving DecidableEq

/-- Whether the end of a process, or of an attempt to start one, is observed. -/
def RunnerAction.isEnd (action : RunnerAction) : Bool :=
  match action with
  | .wait (.ok _) | .spawn (.error _) => true
  | _ => false

namespace StoppableRunner

/-- A runner as it begins its run, on a channel that may have been used before. -/
def new (service : Service) (options : RunOptions) (sent : List ShutdownReason) :
    StoppableRunner where
  runner := .new service options
  sent := sent
  seen := 0
  late := false

variable (s : StoppableRunner)

/-- The value of the channel. -/
def value : Option ShutdownReason := s.sent.getLast?

/-- `borrow_and_update`, or `changed`. -/
def look : StoppableRunner := { s with seen := s.sent.length }

/-- A shutdown that the user requested was made. -/
def requested : Bool := s.sent.any ShutdownReason.isUserRequested

/-- A move of the runner; of an end it is recorded whether a request came first. -/
def withRunner (action : RunnerAction) (runner : Runner) : StoppableRunner :=
  { s with runner := runner, late := if action.isEnd then s.requested else s.late }

/-- A step of the runner, unless it has events left to publish. -/
def stepRunner (action : RunnerAction) : Option StoppableRunner :=
  if s.runner.outbox = [] then (s.runner.step action).map (s.withRunner action) else none

/-- One step. -/
def step : StopAction → Option StoppableRunner
  | .request reason => some { s with sent := s.sent ++ [reason] }
  | .runner (.head stop) => if stop = s.value then s.look.stepRunner (.head stop) else none
  | .runner (.interrupted reason) =>
    if some reason = s.value then s.look.stepRunner (.interrupted reason) else none
  | .runner action => s.stepRunner action
  | .secondRequest result =>
    if s.seen < s.sent.length then s.look.stepRunner (.escalate result) else none
  | .publish =>
    match s.runner.outbox with
    | _ :: rest => some { s with runner := { s.runner with outbox := rest } }
    | [] => none

/-- A shutdown that the user requested was made, and the runner has looked at its channel since. -/
def observed : Bool := (s.sent.take s.seen).any ShutdownReason.isUserRequested

/-- A step spawns a process after a request was observed, or publishes a `Backoff` or ends the run at
the restart limit for an end that was observed after a request was made. -/
def Defies (action : StopAction) (s' : StoppableRunner) : Prop :=
  (s.observed ∧ ∃ pgid, action = .runner (.spawn (.ok pgid))) ∨
    s'.late ∧ ((∃ delay attempt, .backoff delay attempt ∈ s'.runner.outbox ∧
        .backoff delay attempt ∉ s.runner.outbox) ∨
      ∃ service attempts,
        s'.runner.result = some (.error (.restartLimitExhausted service attempts)) ∧
          s.runner.result = none)

/-- The step that is about to be taken puts an end that was observed after a request to the restart
policy, which does not leave it at that: the end of a process that was not being stopped for a
request, or a failed spawn. -/
def Overlooks (action : StopAction) : Prop :=
  (∃ (pgid : ℤ) (reason : ExitReason) (uptime : Duration),
    s.runner.phase = .sweeping pgid reason none ∧ action = .runner (.sweep (.ok ()) uptime) ∧
      s.late ∧ (s.runner.tracker.decide ⟨reason, uptime⟩ none).1 ≠ .stop) ∨
    ∃ (e : SpawnError) (delay : Duration) (attempt : ℕ),
      s.runner.phase = .spawning ∧ action = .runner (.spawn (.error e)) ∧ s.requested ∧
        (s.runner.tracker.decide ⟨.spawnFailure e.retryable, 0⟩ none).1 = .restart delay attempt

end StoppableRunner

/-- The runs of `ServiceRunner::run` on a stop channel. -/
def stoppableSystem : TransitionSystem StoppableRunner StopAction where
  init s := ∃ service options sent, s = StoppableRunner.new service options sent
  step := StoppableRunner.step

namespace StoppableRunner

variable {s s' : StoppableRunner} {action : StopAction}

/-- The invariant. -/
structure Tracked (s : StoppableRunner) : Prop where
  aligned : s.runner.Aligned
  seen_le : s.seen ≤ s.sent.length
  /-- A runner that has observed a request starts no process. -/
  heeds : s.observed → s.runner.phase ≠ .spawning

/-- What a step does when the runner is aligned. -/
inductive Stepped (s : StoppableRunner) : StopAction → StoppableRunner → Prop
  | request {reason : ShutdownReason} :
    Stepped s (.request reason) { s with sent := s.sent ++ [reason] }
  | head {stop : Option ShutdownReason} {runner : Runner} (hout : s.runner.outbox = [])
    (hstop : stop = s.value) (hmoved : s.runner.Moved (.head stop) runner) :
    Stepped s (.runner (.head stop)) (s.look.withRunner (.head stop) runner)
  | interrupted {reason : ShutdownReason} {runner : Runner} (hout : s.runner.outbox = [])
    (hmoved : s.runner.Moved (.interrupted reason) runner) :
    Stepped s (.runner (.interrupted reason)) (s.look.withRunner (.interrupted reason) runner)
  | secondRequest {result : Except IoError Unit} {runner : Runner} (hout : s.runner.outbox = [])
    (hmoved : s.runner.Moved (.escalate result) runner) :
    Stepped s (.secondRequest result) (s.look.withRunner (.escalate result) runner)
  | runner {runnerAction : RunnerAction} {runner : Runner} (hout : s.runner.outbox = [])
    (hhead : ∀ stop, runnerAction ≠ .head stop)
    (hinterrupted : ∀ reason, runnerAction ≠ .interrupted reason)
    (hmoved : s.runner.Moved runnerAction runner) :
    Stepped s (.runner runnerAction) (s.withRunner runnerAction runner)
  | publish {kind : EventKind} {rest : List EventKind} (hout : s.runner.outbox = kind :: rest) :
    Stepped s .publish { s with runner := { s.runner with outbox := rest } }

theorem stepRunner_cases {runnerAction : RunnerAction} (hA : s.runner.Aligned)
    (h : s.stepRunner runnerAction = some s') :
    ∃ runner, s.runner.outbox = [] ∧ s.runner.Moved runnerAction runner ∧
      s' = s.withRunner runnerAction runner := by
  obtain ⟨hout, h⟩ := Option.ite_none_right_eq_some.mp h
  obtain ⟨runner, hrunner, rfl⟩ := Option.map_eq_some_iff.mp h
  exact ⟨runner, hout, Runner.moved_of_step hA hrunner, rfl⟩

theorem stepped_of_step (hA : s.runner.Aligned) (h : s.step action = some s') :
    s.Stepped action s' := by
  unfold step at h
  split at h
  · cases h
    exact .request
  · obtain ⟨hstop, h⟩ := Option.ite_none_right_eq_some.mp h
    obtain ⟨runner, hout, hmoved, rfl⟩ := stepRunner_cases (s := s.look) hA h
    exact .head hout hstop hmoved
  · obtain ⟨-, h⟩ := Option.ite_none_right_eq_some.mp h
    obtain ⟨runner, hout, hmoved, rfl⟩ := stepRunner_cases (s := s.look) hA h
    exact .interrupted hout hmoved
  · rename_i hhead hinterrupted
    obtain ⟨runner, hout, hmoved, rfl⟩ := stepRunner_cases hA h
    exact .runner hout (fun stop he => hhead stop he) (fun reason he => hinterrupted reason he)
      hmoved
  · obtain ⟨-, h⟩ := Option.ite_none_right_eq_some.mp h
    obtain ⟨runner, hout, hmoved, rfl⟩ := stepRunner_cases (s := s.look) hA h
    exact .secondRequest hout hmoved
  · split at h
    · rename_i hout
      cases h
      exact .publish hout
    · cases h

/-- Without a request nothing is observed. -/
theorem not_observed_of_value (h : s.value = none) : ¬ s.observed := by
  have hnil : s.sent = [] := List.getLast?_eq_none_iff.mp h
  simp [observed, hnil]

theorem observed_request {reason : ShutdownReason} (hseen : s.seen ≤ s.sent.length) :
    observed { s with sent := s.sent ++ [reason] } = s.observed := by
  rw [observed, observed, List.take_append_of_le_length hseen]

/-- Only the head of the loop goes on to start a process. -/
theorem phase_ne_spawning {r r' : Runner} {runnerAction : RunnerAction}
    (hhead : runnerAction ≠ .head none) (hmoved : r.Moved runnerAction r') :
    r'.phase ≠ .spawning := by
  cases hmoved with
  | started => exact absurd rfl hhead
  | _ => exact nofun

theorem tracked_of_reachable (h : stoppableSystem.Reachable AnyStep s) : s.Tracked := by
  refine h.invariant ?_ fun {u action v} _ hT _ hstep => ?_
  · rintro s₀ ⟨service, options, sent, rfl⟩
    exact ⟨Runner.aligned_new service options, Nat.zero_le _, by simp [observed, new]⟩
  · cases stepped_of_step hT.aligned hstep with
    | request =>
      refine ⟨hT.aligned, by simpa using Nat.le_succ_of_le hT.seen_le, ?_⟩
      rw [observed_request hT.seen_le]
      exact hT.heeds
    | @head stop runner hout hstop hmoved =>
      refine ⟨hmoved.aligned hT.aligned, le_rfl, fun hobs => phase_ne_spawning ?_ hmoved⟩
      rintro ⟨⟩
      -- The channel was empty, so nothing can have been observed.
      exact absurd hobs (not_observed_of_value (s := u.look) hstop.symm)
    | interrupted hout hmoved =>
      exact ⟨hmoved.aligned hT.aligned, le_rfl,
        fun _ => phase_ne_spawning (r := u.runner) (by simp) hmoved⟩
    | secondRequest hout hmoved =>
      exact ⟨hmoved.aligned hT.aligned, le_rfl,
        fun _ => phase_ne_spawning (r := u.runner) (by simp) hmoved⟩
    | runner hout hhead _ hmoved =>
      exact ⟨hmoved.aligned hT.aligned, hT.seen_le,
        fun _ => phase_ne_spawning (hhead none) hmoved⟩
    | publish => exact ⟨hT.aligned, hT.seen_le, hT.heeds⟩

/-- A step that spawns nothing, publishes nothing new and ends no run goes against no request. -/
theorem not_defies (hspawn : ∀ pgid, action ≠ .runner (.spawn (.ok pgid)))
    (hbackoff : ∀ delay attempt, .backoff delay attempt ∈ s'.runner.outbox →
      .backoff delay attempt ∈ s.runner.outbox)
    (hresult : ∀ service attempts,
      s'.runner.result = some (.error (.restartLimitExhausted service attempts)) →
        s.runner.result ≠ none) : ¬ s.Defies action s' := by
  rintro (⟨-, pgid, he⟩ | ⟨-, ⟨delay, attempt, hmem, hnot⟩ | ⟨service, attempts, hnew, hnone⟩⟩)
  · exact hspawn pgid he
  · exact hnot (hbackoff delay attempt hmem)
  · exact hresult service attempts hnew hnone

/-- The error of a failed spawn is not that of the restart limit. -/
theorem spawnError_ne (e : SpawnError) (service : Service) (name : String) (attempts : ℕ) :
    e.error service ≠ .restartLimitExhausted name attempts := by
  cases e <;> exact nofun

/-- A move that puts no end to the restart policy goes against no request, unless it starts a
process. -/
theorem not_defies_of_moved {runnerAction : RunnerAction} {runner : Runner}
    (hout : s.runner.outbox = []) (hmoved : s.runner.Moved runnerAction runner)
    (hspawn : ∀ result, runnerAction ≠ .spawn result)
    (hsweep : ∀ uptime, runnerAction ≠ .sweep (.ok ()) uptime)
    (haction : ∀ result, action ≠ .runner (.spawn result)) (hrunner : s'.runner = runner) :
    ¬ s.Defies action s' := by
  refine not_defies (fun pgid => haction _) ?_ ?_ <;> rw [hrunner]
  · intro delay attempt hmem
    cases hmoved with
    | spawned | spawnRetried | spawnFailed => exact absurd rfl (hspawn _)
    | endedStopped | endedRestart | endedStop | endedFail => exact absurd rfl (hsweep _)
    | @stoppedInBackoff afterExit =>
      cases afterExit <;> simp [Runner.moveTo, hout] at hmem
    | stoppedAtHead | started | interrupted | unhealthy => simp [Runner.moveTo, hout] at hmem
    | _ => exact hmem
  · intro service attempts hresult
    cases hmoved with
    | spawned | spawnRetried | spawnFailed => exact absurd rfl (hspawn _)
    | endedStopped | endedRestart | endedStop | endedFail => exact absurd rfl (hsweep _)
    | returned hphase => simp [Runner.result, hphase]
    | _ => simp [Runner.result, Runner.moveTo, Runner.fail] at hresult

/-- The moves of a runner alone that go against a request, of those that are neither at the head of
the loop nor for a request. -/
theorem moved_defies_iff (hT : s.Tracked) {runnerAction : RunnerAction} {runner : Runner}
    (hout : s.runner.outbox = []) (hmoved : s.runner.Moved runnerAction runner) :
    s.Defies (.runner runnerAction) (s.withRunner runnerAction runner) ↔
      s.Overlooks (.runner runnerAction) := by
  by_cases hends : (∃ result, runnerAction = .spawn result) ∨
      ∃ uptime, runnerAction = .sweep (.ok ()) uptime
  swap
  · obtain ⟨hspawn, hsweep⟩ := not_or.mp hends
    refine iff_of_false (not_defies_of_moved hout hmoved (fun result he => hspawn ⟨result, he⟩)
      (fun uptime he => hsweep ⟨uptime, he⟩)
      (fun result he => hspawn ⟨result, StopAction.runner.inj he⟩) rfl) ?_
    rintro (⟨-, -, uptime, -, he, -⟩ | ⟨e, -, -, -, he, -⟩)
    · exact hsweep ⟨uptime, StopAction.runner.inj he⟩
    · exact hspawn ⟨_, StopAction.runner.inj he⟩
  cases hmoved with
  | spawned hphase =>
    -- A request that was observed keeps the runner from starting a process.
    simp only [Defies, Overlooks, withRunner, Runner.moveTo, hout, hphase]
    simpa [Runner.result] using fun hobs : s.observed => hT.heeds hobs hphase
  | spawnRetried hphase hdecide =>
    simp [Defies, Overlooks, withRunner, Runner.moveTo, Runner.result, RunnerAction.isEnd, hout,
      hphase, hdecide]
  | @spawnFailed e tracker hphase hdecide =>
    simp [Defies, Overlooks, withRunner, Runner.moveTo, Runner.result, hout, hphase, hdecide,
      spawnError_ne]
  | endedStopped hphase | endedStop hphase hdecide | endedRestart hphase hdecide
  | endedFail hphase hdecide =>
    simp [Defies, Overlooks, withRunner, Runner.moveTo, Runner.result, RunnerAction.isEnd, *]
  | _ => simp at hends

/-- **Which steps go against a request**: those that put an end which was observed after the request
to the restart policy, when the policy does not leave it at that. -/
theorem defies_iff (h : stoppableSystem.Reachable AnyStep s) (hstep : s.step action = some s') :
    s.Defies action s' ↔ s.Overlooks action := by
  have hT := tracked_of_reachable h
  have hquiet : (∀ runnerAction, action ≠ .runner runnerAction) → ¬ s.Overlooks action := by
    rintro hnot (⟨-, -, _, -, he, -⟩ | ⟨_, -, -, -, he, -⟩) <;> exact hnot _ he
  cases stepped_of_step hT.aligned hstep with
  | request => exact iff_of_false (not_defies nofun (fun _ _ => id) fun _ _ h he => by
      simp [he] at h) (hquiet nofun)
  | head hout hstop hmoved =>
    refine iff_of_false (not_defies_of_moved hout hmoved nofun nofun nofun rfl) ?_
    simp [Overlooks]
  | interrupted hout hmoved =>
    refine iff_of_false (not_defies_of_moved hout hmoved nofun nofun nofun rfl) ?_
    simp [Overlooks]
  | secondRequest hout hmoved =>
    exact iff_of_false (not_defies_of_moved hout hmoved nofun nofun nofun rfl) (hquiet nofun)
  | runner hout _ _ hmoved => exact moved_defies_iff hT hout hmoved
  | publish hout =>
    refine iff_of_false (not_defies nofun (fun _ _ hmem => ?_) fun _ _ h he => ?_) (hquiet nofun)
    · rw [hout]
      exact List.mem_cons_of_mem _ hmem
    · exact absurd (he.symm.trans h) nofun

/-- A step does not go against a request of the user. -/
def Obeys (s : StoppableRunner) (action : StopAction) (s' : StoppableRunner) : Prop :=
  ¬ s.Defies action s'

/-- The step overlooks no request. -/
def NotOverlooked (s : StoppableRunner) (action : StopAction) (_ : StoppableRunner) : Prop :=
  ¬ s.Overlooks action

/-- **An explicit shutdown stops, but for these ends**: a run spawns no process after a request of
the user was observed, and publishes no `Backoff` and does not end at the restart limit for an end
that was observed after a request was made, if and only if none of its steps puts such an end to the
restart policy with an answer other than to stop. -/
theorem obeys_iff {s₀ : StoppableRunner} (h : stoppableSystem.init s₀) (actions : List StopAction) :
    stoppableSystem.Throughout Obeys s₀ actions ↔
      stoppableSystem.Throughout NotOverlooked s₀ actions :=
  TransitionSystem.throughout_congr (fun hs hstep => not_congr (defies_iff hs hstep)) actions
    (.initial h)

/-- A service that is restarted when it is unhealthy. -/
def touchyService : Service :=
  { probedService with
    health := probedService.health.map fun check => { check with onUnhealthy := .restart } }

def touchyRunner : StoppableRunner := new touchyService probedOptions []

theorem init_touchyRunner : stoppableSystem.init touchyRunner := ⟨_, _, _, rfl⟩

/-- The same service, if nothing is restarted. -/
def oneShotRunner : StoppableRunner := new touchyService { probedOptions with noRestart := true } []

theorem init_oneShotRunner : stoppableSystem.init oneShotRunner := ⟨_, _, _, rfl⟩

/-- A process is started, and exits on its own while a request is pending. -/
def exitPending : List StopAction :=
  [.runner (.head none), .publish, .runner (.spawn (.ok 100)), .publish, .publish,
    .request .requested, .runner (.wait (.ok ⟨some 0, none⟩))]

/-- Evaluates the condition. -/
def overlooks (s : StoppableRunner) (action : StopAction) : Bool :=
  match s.runner.phase, action with
  | .sweeping _ reason none, .runner (.sweep (.ok ()) uptime) =>
    s.late && (s.runner.tracker.decide ⟨reason, uptime⟩ none).1 != .stop
  | .spawning, .runner (.spawn (.error e)) => s.requested &&
    (s.runner.tracker.decide ⟨.spawnFailure e.retryable, 0⟩ none).1.attempt.isSome
  | _, _ => false

theorem notOverlooked_of_check (s : StoppableRunner) (action : StopAction) (s' : StoppableRunner)
    (h : !overlooks s action) (_ : stoppableSystem.step s action = some s') :
    NotOverlooked s action s' := by
  rintro (⟨pgid, reason, uptime, hphase, rfl, hlate, hdecide⟩ |
    ⟨e, delay, attempt, hphase, rfl, hrequested, hdecide⟩)
  · simp [overlooks, hphase, hlate, hdecide] at h
  · simp [overlooks, hphase, hrequested, hdecide, RestartDecision.attempt] at h

/-- An exit that is taken while a request is pending ends the run of a service that is not
restarted, and goes against the request if the service is restarted. -/
theorem obeys_iff_exitPending :
    (∃ s, stoppableSystem.run oneShotRunner (exitPending ++ [.runner (.sweep (.ok ()) 0)]) = some s ∧
      s.late ∧ s.runner.result = some (.ok (.exited (.code 0) 0))) ∧
    stoppableSystem.Throughout Obeys oneShotRunner (exitPending ++ [.runner (.sweep (.ok ()) 0)]) ∧
    ¬ stoppableSystem.Throughout Obeys touchyRunner (exitPending ++ [.runner (.sweep (.ok ()) 0)]) := by
  refine ⟨⟨_, rfl, rfl, rfl⟩, (obeys_iff init_oneShotRunner _).mpr ?_,
    mt (obeys_iff init_touchyRunner _).mp fun hall => ?_⟩
  · have hrun : (stoppableSystem.checkedRun (fun s action => !overlooks s action) oneShotRunner
        (exitPending ++ [.runner (.sweep (.ok ()) 0)])).isSome := by decide +kernel
    obtain ⟨s, hs⟩ := Option.isSome_iff_exists.mp hrun
    exact TransitionSystem.throughout_of_checkedRun notOverlooked_of_check hs
  · have hrun : ((stoppableSystem.run touchyRunner exitPending).bind fun s =>
        (s.step (.runner (.sweep (.ok ()) 0))).map fun _ => decide
          (s.runner.phase = .sweeping 100 (.code 0) none ∧ s.late ∧
            (s.runner.tracker.decide ⟨.code 0, 0⟩ none).1 ≠ .stop)) = some true := by
      decide +kernel
    obtain ⟨s, hs, hrun⟩ := Option.bind_eq_some_iff.mp hrun
    obtain ⟨s', hs', hfacts⟩ := Option.map_eq_some_iff.mp hrun
    obtain ⟨hphase, hlate, hdecide⟩ := of_decide_eq_true hfacts
    exact hall.of_run_append hs hs' (.inl ⟨100, .code 0, 0, hphase, rfl, hlate, hdecide⟩)

/-- The process is stopped as unhealthy when the request comes. -/
def stopUnhealthy : List StopAction :=
  [.runner (.head none), .publish, .runner (.spawn (.ok 100)), .publish, .publish,
    .runner .unhealthy, .publish, .publish, .runner (.signal (.ok ())), .request .requested,
    .secondRequest (.ok ()), .runner (.wait (.ok ⟨some 0, none⟩))]

/-- The request is observed as a further one, which kills the process, and the run goes on to
publish a `Backoff`. -/
theorem stopUnhealthy_defies :
    ¬ ∀ s, stoppableSystem.Reachable AnyStep s → ∀ action s',
      s.step action = some s' → s.Obeys action s' := by
  intro hall
  have hrun : ((stoppableSystem.run touchyRunner stopUnhealthy).bind fun s =>
      (s.step (.runner (.sweep (.ok ()) 0))).map fun s' =>
        decide (s'.late ∧ .backoff 0 1 ∈ s'.runner.outbox ∧
          .backoff 0 1 ∉ s.runner.outbox)) = some true := by decide +kernel
  obtain ⟨s, hs, hrun⟩ := Option.bind_eq_some_iff.mp hrun
  obtain ⟨s', hs', hfacts⟩ := Option.map_eq_some_iff.mp hrun
  obtain ⟨hlate, hmem, hnot⟩ := of_decide_eq_true hfacts
  have hreach : stoppableSystem.Reachable AnyStep s :=
    ⟨_, init_touchyRunner, TransitionSystem.steps_of_run hs⟩
  exact hall s hreach _ s' hs' (.inr ⟨hlate, .inl ⟨0, 1, hmem, hnot⟩⟩)

end StoppableRunner

end Servicrab
