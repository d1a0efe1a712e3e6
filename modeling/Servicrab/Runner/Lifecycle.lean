import Servicrab.Runner.Freshness
import Servicrab.Runner.Moves
import Mathlib.Data.List.Chain

/-!
# The lifecycle of a run is legal

The `State` events of a run, in the order they are sent, form a path of the lifecycle graph, and no
transition is ever rejected. The invariant is `Runner.Aligned` together with the path so far, which
ends in the state the machine is in.

## Main definitions

* `Run.states`: the lifecycle states published so far.
* `Run.Lawful`.

## Main results

* `Run.aligned_of_reachable`.
* `Run.lawful_of_reachable`.
-/

open TransitionSystem (AnyStep)

namespace Servicrab

/-- The lifecycle state an event announces. -/
def EventKind.state? (kind : EventKind) : Option ServiceState :=
  match kind with
  | .state next => some next
  | _ => none

/-- The lifecycle states that a list of events announces. -/
def announced (kinds : List EventKind) : List ServiceState := kinds.filterMap EventKind.state?

@[simp] theorem announced_nil : announced [] = [] := rfl

@[simp] theorem announced_append (kinds kinds' : List EventKind) :
    announced (kinds ++ kinds') = announced kinds ++ announced kinds' := List.filterMap_append

theorem announced_eq_nil {kinds : List EventKind} (h : ∀ kind ∈ kinds, kind.state? = none) :
    announced kinds = [] := List.filterMap_eq_nil_iff.mpr h

/-- Whether the event says nothing about the lifecycle state or the process of its service. -/
def EventKind.isPlain (kind : EventKind) : Bool :=
  match kind with
  | .state _ | .started _ => false
  | _ => true

theorem EventKind.isPlain_of_isProbeReport {kind : EventKind} (h : kind.isProbeReport) :
    kind.isPlain := by
  cases kind <;> first | rfl | cases h

theorem EventKind.isPlain_of_isOutput {kind : EventKind} (h : kind.isOutput) : kind.isPlain := by
  cases kind <;> first | rfl | cases h

/-- Whether the event comes from a monitor or an output reader. -/
def EventKind.isAside (kind : EventKind) : Bool := kind.isProbeReport || kind.isOutput

theorem EventKind.isPlain_of_isAside {kind : EventKind} (h : kind.isAside) : kind.isPlain :=
  (Bool.or_eq_true _ _ ▸ h).elim isPlain_of_isProbeReport isPlain_of_isOutput

theorem EventKind.state?_of_isPlain {kind : EventKind} (h : kind.isPlain) : kind.state? = none := by
  cases kind <;> first | rfl | cases h

theorem announced_of_isPlain {kinds : List EventKind} (h : ∀ kind ∈ kinds, kind.isPlain) :
    announced kinds = [] := announced_eq_nil fun kind hkind => kind.state?_of_isPlain (h kind hkind)

namespace Runner

variable {r r' : Runner} {action : RunnerAction}

/-- A step announces nothing and keeps the state, or announces one legal transition. -/
def Extends (r r' : Runner) : Prop :=
  announced r'.outbox = announced r.outbox ∧ r'.state = r.state ∨
    announced r'.outbox = announced r.outbox ++ [r'.state] ∧ r.state.canTransitionTo r'.state

/-- A move that publishes its state, which may follow the state before. -/
theorem Extends.of_outbox {kinds : List EventKind} (hout : r'.outbox = r.outbox ++ kinds)
    (hkinds : announced kinds = [r'.state]) (hcan : r.state.canTransitionTo r'.state) :
    r.Extends r' :=
  .inr ⟨by rw [hout, announced_append, hkinds], hcan⟩

theorem Moved.extends (hA : r.Aligned) (h : Moved r action r') : r.Extends r' := by
  unfold Aligned at hA
  cases h with
  | exited | signalled | escalated | reaped | slept | returned | waitBroke | signalBroke
  | escalateBroke | sweepBroke => exact .inl ⟨rfl, rfl⟩
  | stoppedAtHead hphase | started hphase =>
    rw [hphase] at hA
    refine .of_outbox rfl rfl ?_
    rcases hA with h | h <;> rw [h] <;> rfl
  | spawned hphase | spawnRetried hphase | spawnFailed hphase =>
    rw [hphase] at hA
    exact .of_outbox rfl rfl (by rw [show r.state = .starting from hA]; rfl)
  | interrupted hphase | unhealthy hphase =>
    rw [hphase] at hA
    exact .of_outbox rfl rfl (by rw [show r.state = .running from hA]; rfl)
  | endedStopped hphase =>
    rw [hphase] at hA
    refine .of_outbox rfl rfl ?_
    rcases hA with h | ⟨-, h⟩
    · rw [h]
      rfl
    · cases h
  | endedRestart hphase | endedStop hphase | endedFail hphase =>
    rw [hphase] at hA
    refine .of_outbox rfl rfl ?_
    rcases hA with h | ⟨h, -⟩ <;> rw [h] <;> rfl
  | stoppedInBackoff hphase =>
    rename_i afterExit _
    rw [hphase] at hA
    refine .of_outbox rfl ?_ (by rw [show r.state = .backoff from hA]; rfl)
    cases afterExit <;> rfl

end Runner

namespace Run

variable {r r' : Run} {action : RunAction}

/-- Everything published so far, received or not, or decided on and about to be published. -/
def published (r : Run) : List EventKind :=
  r.sent.map Prod.snd ++ r.runner.outbox

/-- The lifecycle states published so far. -/
def states (r : Run) : List ServiceState := announced r.published

/-- What is asked of a run: its transitions are legal, and it ends in a terminal state unless a
system call on the process failed. -/
structure Lawful (r : Run) : Prop where
  /-- The published states are a path of the lifecycle graph, from `Pending` on. -/
  path : (.pending :: r.states).IsChain fun state next => state.canTransitionTo next
  last : (.pending :: r.states).getLast? = some r.runner.state
  valid : ∀ service source, r.runner.result ≠ some (.error (.invalidTransition service source))
  /-- A spawn failure that is not retried gets to publish `Failed`. -/
  spawn : ∀ e r', r.step (.runner (.spawn (.error e))) = some r' →
    r'.runner.phase = .backoff false ∨ r'.runner.state = .failed
  ok : ∀ outcome, r.runner.result = some (.ok outcome) → r.runner.state.isTerminal
  restartLimit : ∀ service attempts,
    r.runner.result = some (.error (.restartLimitExhausted service attempts)) →
      r.runner.state.isTerminal
  spawnFailed : ∀ service executable source,
    r.runner.result = some (.error (.spawnFailed service executable source)) →
      r.runner.state.isTerminal

/-- A step of a run is a step of its runner, or sends what the runner is about to publish, or leaves
the runner alone and sends what comes from the others. -/
theorem step_sends (hH : r.Honest) (h : r.step action = some r') :
    (∃ runnerAction, action = .runner runnerAction ∧ r.runner.outbox = [] ∧
      r.runner.step runnerAction = some r'.runner ∧ r'.sent = r.sent) ∨
    (∃ kind rest, r.runner.outbox = kind :: rest ∧
      r'.runner = { r.runner with outbox := rest } ∧
      r'.sent.map Prod.snd = r.sent.map Prod.snd ++ [kind]) ∨
    r'.runner = r.runner ∧ ∃ kinds : List EventKind,
      r'.sent.map Prod.snd = r.sent.map Prod.snd ++ kinds ∧ ∀ kind ∈ kinds, kind.isAside := by
  cases action with
  | runner runnerAction =>
    left
    obtain ⟨hout, -, runner, hstep, rfl⟩ := stepRunner_cases h
    obtain ⟨monitors, readers, he, -⟩ := r.withRunner_eq runner runnerAction
    rw [he]
    exact ⟨runnerAction, rfl, hout, hstep, rfl⟩
  | publish =>
    right; left
    simp only [step] at h
    split at h
    · rename_i kind rest hout
      cases h
      exact ⟨kind, rest, hout, rfl, by simp [sent]⟩
    · cases h
  | monitor index monitorAction =>
    right; right
    obtain ⟨m, m', out, hget, hstepped, rfl⟩ := stepMonitor_cases h
    have hsub : r.probes ⊆ r.probes ++ probed m monitorAction := List.subset_append_left _ _
    obtain ⟨-, hout⟩ :=
      hstepped.owed ((hH.monitors_owed m (List.mem_of_getElem? hget)).mono hsub)
    refine ⟨rfl, out.toList, by simp [sent], fun kind hkind => ?_⟩
    rw [EventKind.isAside, (hout kind (Option.mem_toList.mp hkind)).1]
    rfl
  | output kind =>
    right; right
    obtain ⟨⟨-, hkind⟩, h⟩ := Option.ite_none_right_eq_some.mp h
    cases h
    refine ⟨rfl, [kind], by simp [sent], fun k hk => ?_⟩
    rw [EventKind.isAside, List.mem_singleton.mp hk, hkind, Bool.or_true]
  | readerEnds =>
    right; right
    obtain ⟨-, h⟩ := Option.ite_none_right_eq_some.mp h
    cases h
    exact ⟨rfl, [], by simp [sent], by simp⟩
  | receive =>
    right; right
    simp only [step] at h
    split at h
    · rename_i event rest hchannel
      cases h
      exact ⟨rfl, [], by simp [sent, hchannel], by simp⟩
    · cases h

/-- A step of a run is a step of its runner, or leaves the runner as it is but for what it has
published. -/
theorem step_runner (hH : r.Honest) (h : r.step action = some r') :
    (∃ runnerAction, action = .runner runnerAction ∧ r.runner.outbox = [] ∧
      r.runner.step runnerAction = some r'.runner ∧ r'.sent = r.sent) ∨
    r'.runner = { r.runner with outbox := r'.runner.outbox } ∧ r'.states = r.states := by
  rcases step_sends hH h with hrunner | ⟨kind, rest, hout, he, hsent⟩ | ⟨he, kinds, hsent, haside⟩
  · exact .inl hrunner
  · right
    rw [he]
    exact ⟨rfl, by simp [states, published, he, hsent, hout]⟩
  · right
    rw [he]
    have hnone : announced kinds = [] :=
      announced_of_isPlain fun kind hkind => EventKind.isPlain_of_isAside (haside kind hkind)
    exact ⟨rfl, by simp [states, published, he, hsent, hnone]⟩

/-- The runner of a run stays aligned. -/
theorem aligned_of_reachable {C : Run → RunAction → Run → Prop} (h : runSystem.Reachable C r) :
    r.runner.Aligned := by
  refine h.invariant (I := fun r => r.runner.Aligned) ?_ fun {u action v} hu hA _ hstep => ?_
  · rintro r₀ ⟨service, options, rfl⟩
    exact Runner.aligned_new service options
  · rcases step_runner (honest_of_reachable hu) hstep with ⟨_, -, -, hrunner, -⟩ | ⟨he, -⟩
    · exact (Runner.moved_of_step hA hrunner).aligned hA
    · rw [he]
      exact hA

/-- The states published so far are a path from `Pending` to the state of the machine. -/
def OnPath (r : Run) : Prop :=
  ((.pending :: r.states).IsChain fun state next => state.canTransitionTo next) ∧
    (.pending :: r.states).getLast? = some r.runner.state

theorem onPath_of_reachable {C : Run → RunAction → Run → Prop} (h : runSystem.Reachable C r) :
    r.OnPath := by
  refine h.invariant (I := OnPath) ?_ fun {u action v} hu hP _ hstep => ?_
  · rintro r₀ ⟨service, options, rfl⟩
    exact ⟨.singleton _, rfl⟩
  · rcases step_runner (honest_of_reachable hu) hstep with
      ⟨runnerAction, -, hout, hrunner, hsent⟩ | ⟨he, hstates⟩
    · have hmoved := Runner.moved_of_step (aligned_of_reachable hu) hrunner
      have hbefore : u.states = announced (u.sent.map Prod.snd) := by
        simp [states, published, hout]
      have hafter : v.states = u.states ++ announced v.runner.outbox := by
        rw [hbefore, states, published, hsent, announced_append]
      obtain ⟨hchain, hlast⟩ := hP
      rcases hmoved.extends (aligned_of_reachable hu) with ⟨hnone, hstate⟩ | ⟨hnext, hcan⟩
      · rw [hout] at hnone
        rw [OnPath, hafter, hnone, hstate, announced_nil, List.append_nil]
        exact ⟨hchain, hlast⟩
      · rw [hout] at hnext
        rw [OnPath, hafter, hnext, announced_nil, List.nil_append, ← List.cons_append]
        refine ⟨hchain.append (.singleton _) ?_, List.getLast?_concat⟩
        rw [hlast]
        simpa using hcan
    · rw [OnPath, hstates, he]
      exact hP

/-- **The lifecycle of every run is legal**: no transition is rejected, the published states are a
path of the lifecycle graph from `Pending`, and the run ends in a terminal state if it returns an
outcome, at its restart limit or because of a failed spawn. -/
theorem lawful_of_reachable (h : runSystem.Reachable AnyStep r) : r.Lawful := by
  have hA := aligned_of_reachable h
  obtain ⟨hchain, hlast⟩ := onPath_of_reachable h
  have hresult : ∀ result, r.runner.result = some result →
      match result with
      | .ok _ => r.runner.state.isTerminal
      | .error error => error.Fits r.runner.state := by
    intro result hresult
    unfold Runner.result at hresult
    unfold Runner.Aligned at hA
    split at hresult
    · rename_i hphase
      cases hresult
      rw [hphase] at hA
      cases result <;> exact hA
    · rename_i hphase
      cases hresult
      rw [hphase] at hA
      cases result <;> exact hA
    · cases hresult
  refine ⟨hchain, hlast, ?_, ?_, ?_, ?_, ?_⟩
  · exact fun service source he => hresult _ he
  · intro e r' hstep
    obtain ⟨-, -, runner, hrunner, rfl⟩ := stepRunner_cases hstep
    cases Runner.moved_of_step hA hrunner with
    | spawnRetried => exact .inl rfl
    | spawnFailed => exact .inr rfl
  · exact fun outcome he => hresult _ he
  · exact fun service attempts he => hresult _ he
  · exact fun service executable source he => hresult _ he

theorem lawful_stopProcess :
    ∃ r, runSystem.run (new probedService probedOptions) (startProcess 100 ++ stopProcess) = some r ∧
      r.states = [.starting, .running, .stopping, .stopped] ∧ r.Lawful := by
  have hrun : ((runSystem.run (new probedService probedOptions)
      (startProcess 100 ++ stopProcess)).map fun r =>
      decide (r.states = [.starting, .running, .stopping, .stopped])) = some true := by
    decide +kernel
  obtain ⟨r, hr, hstates⟩ := Option.map_eq_some_iff.mp hrun
  refine ⟨r, hr, of_decide_eq_true hstates, lawful_of_reachable ?_⟩
  exact ⟨_, ⟨probedService, probedOptions, rfl⟩, TransitionSystem.steps_of_run hr⟩

end Run

end Servicrab
