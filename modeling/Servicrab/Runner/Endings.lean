import Servicrab.Runner.Lifecycle

/-!
# How a run ends

A run that has returned leaves the lifecycle machine in a terminal state, unless a system call on
the process failed: `run` and `shutdown` return the error of a failed wait or signal as it is, with
no transition in front of it. In the other runs, whoever has received everything that a returned
run has published was told so.

## Main definitions

* `RunAction.losesProcess`: a system call on a process fails.
* `Run.CallsSucceed`: the guard.
* `ServiceState.after`: the last state that is announced.

## Main results

* `Run.concluded_of_reachable`.
* `Run.tracker_isTerminal`, `Run.tracker_of_started`.
-/

open TransitionSystem (AnyStep)

namespace Servicrab

/-- Whether a wait for the process, or a signal to its group, fails. -/
def RunnerAction.losesProcess (action : RunnerAction) : Bool :=
  match action with
  | .wait (.error _) | .signal (.error _) | .escalate (.error _) | .sweep (.error _) _ => true
  | _ => false

def RunAction.losesProcess (action : RunAction) : Bool :=
  match action with
  | .runner action => action.losesProcess
  | _ => false

/-! ### The state announced last -/

/-- The lifecycle state that was announced last, if the given one was before. -/
def ServiceState.after (state : ServiceState) (kinds : List EventKind) : ServiceState :=
  kinds.foldl (fun state kind => kind.state?.getD state) state

theorem ServiceState.after_append (state : ServiceState) (kinds kinds' : List EventKind) :
    state.after (kinds ++ kinds') = (state.after kinds).after kinds' := List.foldl_append

theorem ServiceState.after_cons (state : ServiceState) (kind : EventKind)
    (kinds : List EventKind) :
    state.after (kind :: kinds) = (kind.state?.getD state).after kinds := rfl

/-- The path of the announced states ends in the state announced last. -/
theorem getLast?_announced (kinds : List EventKind) : ∀ state : ServiceState,
    (state :: announced kinds).getLast? = some (state.after kinds) := by
  induction kinds with
  | nil => exact fun _ => rfl
  | cons kind kinds ih =>
    intro state
    rw [ServiceState.after_cons, ← ih]
    cases h : kind.state? with
    | none => simp only [announced, List.filterMap_cons_none h, Option.getD_none]
    | some next =>
      rw [announced, List.filterMap_cons_some h, List.getLast?_cons_cons]
      rfl

theorem DependencyStatus.observe_state (status : DependencyStatus) (kind : EventKind) :
    (status.observe kind).state = kind.state?.getD status.state := by
  cases kind <;> simp only [observe, EventKind.state?, Option.getD_none, Option.getD_some]
  split <;> rfl

/-- A tracker has the state that was announced last. -/
theorem DependencyStatus.foldl_observe_state (kinds : List EventKind) :
    ∀ status : DependencyStatus,
      (kinds.foldl DependencyStatus.observe status).state = status.state.after kinds := by
  induction kinds with
  | nil => exact fun _ => rfl
  | cons kind kinds ih =>
    intro status
    rw [List.foldl_cons, ih, observe_state, ServiceState.after_cons]

/-- A process is announced to have started in the state `Running` only. -/
def Punctual (state : ServiceState) : List EventKind → Prop
  | [] => True
  | kind :: kinds =>
    (∀ pgid, kind = .started pgid → state = .running) ∧ Punctual (kind.state?.getD state) kinds

theorem punctual_append (kinds kinds' : List EventKind) : ∀ state : ServiceState,
    Punctual state (kinds ++ kinds') ↔
      Punctual state kinds ∧ Punctual (state.after kinds) kinds' := by
  induction kinds with
  | nil => exact fun state => by simp [Punctual, ServiceState.after]
  | cons kind kinds ih =>
    intro state
    rw [List.cons_append, Punctual, Punctual, ih, and_assoc]
    rfl

/-- Where no process is announced to have started. -/
theorem punctual_of_forall {kinds : List EventKind} (h : ∀ pgid, .started pgid ∉ kinds) :
    ∀ state : ServiceState, Punctual state kinds := by
  induction kinds with
  | nil => exact fun _ => trivial
  | cons kind kinds ih =>
    refine fun state => ⟨?_, ih (fun pgid hmem => h pgid (List.mem_cons_of_mem _ hmem)) _⟩
    rintro pgid rfl
    exact absurd List.mem_cons_self (h pgid)

namespace Runner

variable {r r' : Runner} {action : RunnerAction}

/-- A run that has a result has ended in a terminal state. -/
def Concluded (r : Runner) : Prop := r.result.isSome → r.state.isTerminal

theorem Moved.concluded (h : r.Concluded) (hmoved : Moved r action r')
    (hcalls : action.losesProcess = false) : r'.Concluded := by
  cases hmoved with
  | returned hphase =>
    intro _
    exact h (by rw [result, hphase]; rfl)
  | stoppedAtHead | spawnFailed | endedStopped | endedStop | endedFail | stoppedInBackoff =>
    exact fun _ => rfl
  | waitBroke | signalBroke | escalateBroke | sweepBroke => cases hcalls
  | _ => exact fun hresult => absurd hresult (by simp [result, moveTo])

/-- The move that returns publishes nothing. -/
theorem Moved.silent (h : Moved r action r') (hout : r.outbox = []) :
    ∀ result, r'.phase = .returned result → r'.outbox = [] := by
  intro result hphase
  cases h with
  | returned => exact hout
  | _ => simp [moveTo, fail] at hphase

/-- What a move publishes after everything before it was sent. -/
theorem Moved.punctual (h : Moved r action r') (hout : r.outbox = []) (state : ServiceState) :
    Punctual state r'.outbox := by
  cases h with
  | spawned =>
    rw [moveTo, hout]
    exact ⟨by simp, fun _ _ => rfl, trivial⟩
  | stoppedInBackoff =>
    rename_i afterExit _ _
    refine punctual_of_forall (fun pgid => ?_) state
    cases afterExit <;> simp [moveTo, hout]
  | _ =>
    refine punctual_of_forall (fun pgid => ?_) state
    simp [moveTo, fail, hout]

end Runner

namespace Run

variable {r r' : Run} {action : RunAction}

/-- The guard that no system call on a process fails. -/
def CallsSucceed (_ : Run) (action : RunAction) (_ : Run) : Prop := action.losesProcess = false

theorem concluded_of_reachable (h : runSystem.Reachable CallsSucceed r) : r.runner.Concluded := by
  refine h.invariant (I := fun r => r.runner.Concluded) ?_ fun {u action v} hu hC hcalls hstep => ?_
  · rintro r₀ ⟨service, options, rfl⟩ hresult
    cases hresult
  · rcases step_runner (honest_of_reachable hu) hstep with
      ⟨runnerAction, rfl, -, hrunner, -⟩ | ⟨he, -⟩
    · exact (Runner.moved_of_step (aligned_of_reachable hu) hrunner).concluded hC hcalls
    · rw [he]
      exact hC

/-- A run that has returned has nothing left to publish. -/
def Silent (r : Run) : Prop := ∀ result, r.runner.phase = .returned result → r.runner.outbox = []

theorem silent_of_reachable {C : Run → RunAction → Run → Prop} (h : runSystem.Reachable C r) :
    r.Silent := by
  refine h.invariant (I := Silent) ?_ fun {u action v} hu hS _ hstep => ?_
  · rintro r₀ ⟨service, options, rfl⟩ result -
    rfl
  · rcases step_sends (honest_of_reachable hu) hstep with
      ⟨runnerAction, rfl, hout, hrunner, -⟩ | ⟨kind, rest, hout, he, -⟩ | ⟨he, -⟩
    · exact (Runner.moved_of_step (aligned_of_reachable hu) hrunner).silent hout
    · intro result hphase
      rw [he] at hphase
      exact absurd (hS result hphase) (by simp [hout])
    · intro result hphase
      rw [he] at hphase ⊢
      exact hS result hphase

/-- What a run publishes is punctual. -/
theorem punctual_of_reachable {C : Run → RunAction → Run → Prop} (h : runSystem.Reachable C r) :
    Punctual .pending r.published := by
  refine h.invariant (I := fun r => Punctual .pending r.published) ?_
    fun {u action v} hu hP _ hstep => ?_
  · rintro r₀ ⟨service, options, rfl⟩
    trivial
  · rw [published, punctual_append] at hP ⊢
    rcases step_sends (honest_of_reachable hu) hstep with
      ⟨runnerAction, rfl, hout, hrunner, hsent⟩ | ⟨kind, rest, hout, he, hsent⟩ |
      ⟨he, kinds, hsent, haside⟩
    · have hmoved := Runner.moved_of_step (aligned_of_reachable hu) hrunner
      rw [hsent]
      exact ⟨hP.1, hmoved.punctual hout _⟩
    · rw [hout, ← List.singleton_append, ← punctual_append, ← List.append_assoc, punctual_append]
        at hP
      rw [hsent, he]
      exact hP
    · have hkinds : ∀ state, Punctual state kinds := punctual_of_forall fun pgid hmem => by
        cases haside _ hmem
      have hafter : ∀ state : ServiceState, state.after kinds = state := fun state => by
        have hlast := getLast?_announced kinds state
        rw [announced_of_isPlain fun kind hkind => EventKind.isPlain_of_isAside (haside kind hkind)]
          at hlast
        exact (Option.some.inj hlast).symm
      rw [hsent, he, punctual_append, ServiceState.after_append, hafter]
      exact ⟨⟨hP.1, hkinds _⟩, hP.2⟩

/-- The tracker has the state that was announced last among what was received. -/
theorem tracker_state {C : Run → RunAction → Run → Prop} (h : runSystem.Reachable C r) :
    r.tracker.state = ServiceState.pending.after (r.received.map Prod.snd) := by
  rw [(honest_of_reachable h).tracker_eq, DependencyStatus.foldl_observe_state]
  rfl

/-- A start is received while the tracker says that the service runs. -/
theorem tracker_of_started {C : Run → RunAction → Run → Prop} (h : runSystem.Reachable C r)
    {tag : ℕ} {pgid : ℤ} {rest : List (ℕ × EventKind)}
    (hchannel : r.channel = (tag, .started pgid) :: rest) : r.tracker.state = .running := by
  have hP := punctual_of_reachable h
  rw [published, sent, hchannel, List.map_append, List.append_assoc, punctual_append,
    ← tracker_state h] at hP
  exact hP.2.1 pgid rfl

/-- **The last word of a run.** Once everything that a returned run has published was received, the
tracker is in a terminal state, if no system call on a process failed. -/
theorem tracker_isTerminal (h : runSystem.Reachable CallsSucceed r)
    {result : Except RuntimeError RunOutcome} (hreturned : r.runner.phase = .returned result)
    (hchannel : r.channel = []) : r.tracker.state.isTerminal := by
  have hstate : r.runner.state.isTerminal :=
    concluded_of_reachable h (by rw [Runner.result, hreturned]; rfl)
  have hpublished : r.published = r.received.map Prod.snd := by
    simp [published, sent, hchannel, silent_of_reachable h result hreturned]
  obtain ⟨-, hlast⟩ := onPath_of_reachable h
  rw [states, hpublished, getLast?_announced, ← tracker_state h] at hlast
  rw [Option.some.inj hlast]
  exact hstate

end Run

end Servicrab
