import Servicrab.Runner.Freshness
import Servicrab.Runner.Moves

/-!
# The process group of a service

A `ProcessHandle` owns a process group from the spawn to the moment it is dropped, which is at the
end of an iteration of the loop, on every return, and on a cancellation at any `await`. What is
done to each group is kept in a history of its own: every `killpg`, and the reaping of its leader.

The histories of the groups that are gone show a `SIGKILL` after the last graceful signal, on every
path. A group is signalled after it was swept and its leader was reaped in one case: the sweep that
follows an escalation.

## Main definitions

* `ProcessHandle`, `OwnedRunner`, `OwnedRunner.step`, `ownedSystem`.
* `OwnedRunner.Contained`: no group outlives its handle.
* `OwnedRunner.Spared`, `OwnedRunner.SweepsOnce`.

## Main results

* `OwnedRunner.contained_of_reachable`.
* `OwnedRunner.spared_iff_sweepsOnce`: which runs signal no stranger.
-/

open TransitionSystem (AnyStep)

namespace Servicrab

/-- Something done to a process group. -/
inductive GroupEvent
  /-- `killpg` with the shutdown signal of the service. -/
  | signal
  /-- `killpg` with `SIGKILL`. -/
  | kill
  /-- A `wait` for the leader has returned. -/
  | reap
  deriving DecidableEq, Repr

/-- Whether this is a call of `killpg`. -/
def GroupEvent.isKillpg (event : GroupEvent) : Bool :=
  match event with
  | .signal | .kill => true
  | .reap => false

/-- A running service process and the process group it leads, with what was done to the group. -/
structure ProcessHandle where
  pgid : ℤ
  /-- Set once the group has been swept. -/
  swept : Bool
  history : List GroupEvent
  deriving DecidableEq, Repr

namespace ProcessHandle

def new (pgid : ℤ) : ProcessHandle where
  pgid := pgid
  swept := false
  history := []

variable (h : ProcessHandle)

/-- `signal_group`. -/
def signalGroup : ProcessHandle := { h with history := h.history ++ [.signal] }

/-- `kill_group`: the group counts as swept whether or not the signal is delivered. -/
def killGroup : ProcessHandle := { h with swept := true, history := h.history ++ [.kill] }

/-- `wait` has returned. -/
def reaped : ProcessHandle := { h with history := h.history ++ [.reap] }

/-- `drop`: a group that has not been swept is swept now. -/
def drop : List GroupEvent := if h.swept then h.history else h.history ++ [.kill]

end ProcessHandle

/-- A runner, with the handle it owns. -/
structure OwnedRunner where
  runner : Runner
  handle : Option ProcessHandle
  /-- The histories of the groups whose handles are gone. -/
  past : List (List GroupEvent)
  /-- How many processes were spawned. -/
  spawned : ℕ
  /-- Set once the task was aborted. -/
  cancelled : Bool
  deriving DecidableEq

/-- A step of the runner, or of whoever aborts its task. -/
inductive OwnedAction
  | runner (action : RunnerAction)
  | publish
  /-- The task is aborted at an `await`. -/
  | cancel
  /-- The task is aborted while the output is drained, the group having been swept. -/
  | cancelDraining
  deriving DecidableEq

namespace OwnedRunner

/-- A runner as it begins its run. -/
def new (service : Service) (options : RunOptions) : OwnedRunner where
  runner := .new service options
  handle := none
  past := []
  spawned := 0
  cancelled := false

variable (s : OwnedRunner)

/-- Change the handle, if there is one. -/
def onHandle (f : ProcessHandle → ProcessHandle) : OwnedRunner := { s with handle := s.handle.map f }

/-- The handle goes out of scope. -/
def dropHandle : OwnedRunner :=
  { s with handle := none, past := s.past ++ s.handle.toList.map ProcessHandle.drop }

/-- What a step of the runner does to its handle. -/
def handled : RunnerAction → OwnedRunner
  | .spawn (.ok pgid) => { s with handle := some (.new pgid), spawned := s.spawned + 1 }
  | .wait (.ok _) => s.onHandle .reaped
  | .signal _ => s.onHandle .signalGroup
  | .escalate _ | .sweep _ _ => s.onHandle .killGroup
  -- The end of an iteration, and of `run`.
  | .slept | .return => s.dropHandle
  | _ => s

/-- One step. -/
def step (action : OwnedAction) : Option OwnedRunner :=
  if s.cancelled then none
  else
    match action with
    | .runner action =>
      if s.runner.outbox = [] then
        (s.runner.step action).map fun runner => { s.handled action with runner := runner }
      else none
    | .publish =>
      match s.runner.outbox with
      | _ :: rest => some { s with runner := { s.runner with outbox := rest } }
      | [] => none
    | .cancel => some { s.dropHandle with cancelled := true }
    | .cancelDraining =>
      match s.runner.phase with
      | .sweeping _ _ _ => some { (s.onHandle .killGroup).dropHandle with cancelled := true }
      | _ => none

/-- Every group there was, with what was done to it. -/
def histories : List (List GroupEvent) := s.past ++ s.handle.toList.map ProcessHandle.history

end OwnedRunner

/-- The runs of `ServiceRunner::run`, aborted at any point or not at all. -/
def ownedSystem : TransitionSystem OwnedRunner OwnedAction where
  init s := ∃ service options, s = OwnedRunner.new service options
  step := OwnedRunner.step

/-- A group was swept, and not signalled gracefully afterwards. -/
def Swept (history : List GroupEvent) : Prop :=
  ∃ before after, history = before ++ .kill :: after ∧ .signal ∉ after

theorem swept_kill (history : List GroupEvent) : Swept (history ++ [.kill]) :=
  ⟨history, [], rfl, by simp⟩

theorem Swept.reaped {history : List GroupEvent} (h : Swept history) :
    Swept (history ++ [.reap]) := by
  obtain ⟨before, after, rfl, hafter⟩ := h
  exact ⟨before, after ++ [.reap], by simp, by simp [hafter]⟩

namespace ProcessHandle

/-- The flag says whether the group was swept. -/
structure Honest (h : ProcessHandle) : Prop where
  swept_iff : h.swept ↔ .kill ∈ h.history
  swept : h.swept → Swept h.history

variable {h : ProcessHandle}

theorem honest_new (pgid : ℤ) : (new pgid).Honest := ⟨by simp [new], by simp [new]⟩

theorem Honest.reaped (hH : h.Honest) : h.reaped.Honest where
  swept_iff := by simpa [ProcessHandle.reaped] using hH.swept_iff
  swept hs := (hH.swept hs).reaped

theorem Honest.signalGroup (hH : h.Honest) (hs : h.swept = false) : h.signalGroup.Honest where
  swept_iff := by simpa [ProcessHandle.signalGroup] using hH.swept_iff
  swept hswept := by
    have hswept' : h.swept := hswept
    rw [hs] at hswept'
    cases hswept'

theorem honest_killGroup (h : ProcessHandle) : h.killGroup.Honest where
  swept_iff := by simp [killGroup]
  swept _ := swept_kill h.history

theorem Honest.drop (hH : h.Honest) : Swept h.drop := by
  unfold ProcessHandle.drop
  split_ifs with hs
  · exact hH.swept hs
  · exact swept_kill h.history

end ProcessHandle

namespace OwnedRunner

variable {s s' : OwnedRunner} {action : OwnedAction}

/-- What the handle looks like, by where the runner is. -/
def Held (phase : RunnerPhase) (handle : Option ProcessHandle) : Prop :=
  match phase with
  | .head | .spawning | .backoff false | .returned _ => handle = none
  | .running _ | .signalling _ _ | .stopping _ _ => ∃ h, handle = some h ∧ h.swept = false
  | .killed _ _ => ∃ h, handle = some h
  | .sweeping _ _ _ => ∃ h, handle = some h ∧ .reap ∈ h.history
  | .backoff true | .returning _ => True

/-- What is known of the handles, whatever the runner is doing. -/
structure Accounted (s : OwnedRunner) : Prop where
  honest : ∀ h ∈ s.handle, h.Honest
  swept : ∀ history ∈ s.past, Swept history
  spawned_eq : s.spawned = s.histories.length

/-- The invariant. -/
structure Kept (s : OwnedRunner) : Prop where
  aligned : s.runner.Aligned
  held : s.cancelled = false → Held s.runner.phase s.handle
  dropped : s.cancelled → s.handle = none
  accounted : s.Accounted

/-- What a step does when the invariant holds. -/
inductive Stepped (s : OwnedRunner) : OwnedAction → OwnedRunner → Prop
  | runner {runnerAction : RunnerAction} {runner : Runner} (hout : s.runner.outbox = [])
    (hmoved : s.runner.Moved runnerAction runner) :
    Stepped s (.runner runnerAction) { s.handled runnerAction with runner := runner }
  | publish {kind : EventKind} {rest : List EventKind} (hout : s.runner.outbox = kind :: rest) :
    Stepped s .publish { s with runner := { s.runner with outbox := rest } }
  | cancel : Stepped s .cancel { s.dropHandle with cancelled := true }
  | cancelDraining {pgid : ℤ} {reason : ExitReason} {stoppedBy : Option ShutdownReason}
    (hphase : s.runner.phase = .sweeping pgid reason stoppedBy) :
    Stepped s .cancelDraining { (s.onHandle .killGroup).dropHandle with cancelled := true }

theorem stepped_of_step (hA : s.runner.Aligned) (h : s.step action = some s') :
    s.cancelled = false ∧ s.Stepped action s' := by
  obtain ⟨hcancelled, h⟩ := Option.ite_none_left_eq_some.mp h
  refine ⟨by simpa using hcancelled, ?_⟩
  cases action with
  | runner runnerAction =>
    obtain ⟨hout, h⟩ := Option.ite_none_right_eq_some.mp h
    obtain ⟨runner, hrunner, rfl⟩ := Option.map_eq_some_iff.mp h
    exact .runner hout (Runner.moved_of_step hA hrunner)
  | publish =>
    simp only at h
    split at h
    · rename_i hout
      cases h
      exact .publish hout
    · cases h
  | cancel =>
    cases h
    exact .cancel
  | cancelDraining =>
    simp only at h
    split at h
    · rename_i hphase
      cases h
      exact .cancelDraining hphase
    · cases h

/-! ### The invariant -/

theorem Accounted.dropHandle (hA : s.Accounted) : s.dropHandle.Accounted where
  honest := by simp [OwnedRunner.dropHandle]
  swept history hmem := by
    rcases List.mem_append.mp hmem with hmem | hmem
    · exact hA.swept history hmem
    · obtain ⟨h, hh, rfl⟩ := List.mem_map.mp hmem
      exact (hA.honest h (Option.mem_toList.mp hh)).drop
  spawned_eq := by simpa [histories, OwnedRunner.dropHandle] using hA.spawned_eq

theorem Accounted.onHandle (hA : s.Accounted) {f : ProcessHandle → ProcessHandle}
    (hf : ∀ h ∈ s.handle, (f h).Honest) : (s.onHandle f).Accounted where
  honest h hmem := by
    obtain ⟨before, hbefore, rfl⟩ := Option.map_eq_some_iff.mp hmem
    exact hf before hbefore
  swept := hA.swept
  spawned_eq := by
    have heq := hA.spawned_eq
    cases hhandle : s.handle <;> simpa [histories, OwnedRunner.onHandle, hhandle] using heq

theorem Accounted.spawned (hA : s.Accounted) (hnone : s.handle = none) (pgid : ℤ) :
    Accounted { s with handle := some (.new pgid), spawned := s.spawned + 1 } where
  honest h hmem := by
    obtain rfl : ProcessHandle.new pgid = h := Option.some.inj hmem
    exact ProcessHandle.honest_new pgid
  swept := hA.swept
  spawned_eq := by
    have heq := hA.spawned_eq
    simp [histories, hnone] at heq ⊢
    exact heq

theorem Accounted.withRunner (hA : s.Accounted) (runner : Runner) (cancelled : Bool) :
    Accounted { s with runner := runner, cancelled := cancelled } :=
  ⟨hA.honest, hA.swept, hA.spawned_eq⟩

/-- The handle is accounted for after every move of the runner. -/
theorem Accounted.handled (hA : s.Accounted) (hheld : Held s.runner.phase s.handle)
    {runnerAction : RunnerAction} {runner : Runner} (hmoved : s.runner.Moved runnerAction runner) :
    (s.handled runnerAction).Accounted := by
  cases hmoved with
  | spawned hphase =>
    rw [hphase] at hheld
    exact hA.spawned hheld _
  | exited | reaped => exact hA.onHandle fun h hh => (hA.honest h hh).reaped
  | signalled hphase | signalBroke hphase =>
    rw [hphase] at hheld
    obtain ⟨held, hhandle, hswept⟩ := hheld
    refine hA.onHandle fun h hh => ?_
    obtain rfl : held = h := Option.some.inj (hhandle.symm.trans hh)
    exact (hA.honest held hh).signalGroup hswept
  | escalated | escalateBroke | endedStopped | endedRestart | endedStop | endedFail | sweepBroke =>
    exact hA.onHandle fun h _ => h.honest_killGroup
  | slept | returned => exact hA.dropHandle
  | _ => exact hA

/-- The handle is what it should be after every move of the runner. -/
theorem held_handled (hheld : Held s.runner.phase s.handle) {runnerAction : RunnerAction}
    {runner : Runner} (hmoved : s.runner.Moved runnerAction runner) :
    Held runner.phase (s.handled runnerAction).handle := by
  cases hmoved with
  | spawned => exact ⟨.new _, rfl, rfl⟩
  | exited hphase =>
    rw [hphase] at hheld
    obtain ⟨h, hhandle, -⟩ := hheld
    exact ⟨h.reaped, by simp [handled, onHandle, hhandle], by simp [ProcessHandle.reaped]⟩
  | reaped hphase =>
    obtain ⟨h, hhandle⟩ : ∃ h, s.handle = some h := by
      rcases hphase with hphase | hphase <;> rw [hphase] at hheld
      · obtain ⟨h, hhandle, -⟩ := hheld
        exact ⟨h, hhandle⟩
      · exact hheld
    exact ⟨h.reaped, by simp [handled, onHandle, hhandle], by simp [ProcessHandle.reaped]⟩
  | signalled hphase =>
    rw [hphase] at hheld
    obtain ⟨h, hhandle, hswept⟩ := hheld
    exact ⟨h.signalGroup, by simp [handled, onHandle, hhandle], hswept⟩
  | escalated hphase =>
    rw [hphase] at hheld
    obtain ⟨h, hhandle, -⟩ := hheld
    exact ⟨h.killGroup, by simp [handled, onHandle, hhandle]⟩
  | interrupted hphase | unhealthy hphase | started hphase | spawnRetried hphase =>
    rw [hphase] at hheld
    exact hheld
  | slept | returned => rfl
  | _ => trivial

theorem cancelled_handled (runnerAction : RunnerAction) :
    (s.handled runnerAction).cancelled = s.cancelled := by
  unfold handled
  split <;> rfl

theorem kept_of_reachable (h : ownedSystem.Reachable AnyStep s) : s.Kept := by
  refine h.invariant ?_ fun {u action v} _ hK _ hstep => ?_
  · rintro s₀ ⟨service, options, rfl⟩
    exact ⟨Runner.aligned_new service options, fun _ => rfl, nofun, by simp [new], by simp [new],
      rfl⟩
  · obtain ⟨hcancelled, hstepped⟩ := stepped_of_step hK.aligned hstep
    have hheld := hK.held hcancelled
    cases hstepped with
    | runner hout hmoved =>
      refine ⟨hmoved.aligned hK.aligned, fun _ => held_handled hheld hmoved, fun hc => ?_,
        (hK.accounted.handled hheld hmoved).withRunner _ _⟩
      rw [show _ = u.cancelled from cancelled_handled _, hcancelled] at hc
      cases hc
    | publish => exact ⟨hK.aligned, fun _ => hheld, hK.dropped, hK.accounted.withRunner _ _⟩
    | cancel => exact ⟨hK.aligned, nofun, fun _ => rfl, hK.accounted.dropHandle.withRunner _ _⟩
    | cancelDraining =>
      have hkilled := hK.accounted.onHandle fun h _ => h.honest_killGroup
      exact ⟨hK.aligned, nofun, fun _ => rfl, hkilled.dropHandle.withRunner _ _⟩

/-! ### No group outlives its handle -/

/-- Every group that was spawned is accounted for, and has been swept, after its last graceful
signal, by the time its handle is gone; no process is spawned while there is a handle, and none is
left when the run is over. -/
structure Contained (s : OwnedRunner) : Prop where
  spawned_eq : s.spawned = s.histories.length
  swept : ∀ history ∈ s.past, Swept history
  alone : ∀ pgid s', s.step (.runner (.spawn (.ok pgid))) = some s' → s.handle = none
  ended : (s.cancelled ∨ ∃ result, s.runner.phase = .returned result) → s.handle = none

/-- **No process group outlives its handle**: the groups are contained in every state of every run,
wherever it is cancelled. -/
theorem contained_of_reachable (h : ownedSystem.Reachable AnyStep s) : s.Contained := by
  have hK := kept_of_reachable h
  refine ⟨hK.accounted.spawned_eq, hK.accounted.swept, fun pgid s' hstep => ?_, ?_⟩
  · obtain ⟨hcancelled, hstepped⟩ := stepped_of_step hK.aligned hstep
    have hheld := hK.held hcancelled
    cases hstepped with
    | runner _ hmoved =>
      cases hmoved with
      | spawned hphase =>
        rw [hphase] at hheld
        exact hheld
  · rintro (hcancelled | ⟨result, hphase⟩)
    · exact hK.dropped hcancelled
    · rcases hc : s.cancelled
      · have hheld := hK.held hc
        rw [hphase] at hheld
        exact hheld
      · exact hK.dropped hc

/-! ### Whether a stranger is signalled -/

/-- No `killpg` comes after the group was swept and its leader was reaped. -/
def SparesStrangers (history : List GroupEvent) : Prop :=
  ∀ before event after, history = before ++ event :: after →
    .kill ∈ before → .reap ∈ before → event.isKillpg = false

theorem sparesStrangers_nil : SparesStrangers [] := by
  intro before event after heq
  simp at heq

/-- One more event: it may be a `killpg` as long as the group was not swept and its leader was not
reaped, both, before. -/
theorem sparesStrangers_append {history : List GroupEvent} {event : GroupEvent} :
    SparesStrangers (history ++ [event]) ↔
      SparesStrangers history ∧ (.kill ∈ history → .reap ∈ history → event.isKillpg = false) := by
  constructor
  · intro h
    refine ⟨fun before e after heq => h before e (after ++ [event]) (by simp [heq]), ?_⟩
    exact h history event [] rfl
  · rintro ⟨hold, hnew⟩ before e after heq
    rcases List.eq_nil_or_concat after with rfl | ⟨after, last, rfl⟩
    · obtain ⟨rfl, hlast⟩ := List.append_inj' heq rfl
      obtain rfl : event = e := List.singleton_inj.mp hlast
      exact hnew
    · have heq : history ++ [event] = (before ++ e :: after) ++ [last] := by simpa using heq
      exact hold before e after (List.append_inj' heq rfl).1

/-- The step that is about to be taken sweeps, after the exit of the leader, a group that has been
swept already. -/
def SweepsAgain (s : OwnedRunner) (action : OwnedAction) : Prop :=
  (∃ pgid reason stoppedBy, s.runner.phase = .sweeping pgid reason stoppedBy) ∧
    (∃ h, s.handle = some h ∧ h.swept) ∧
    ((∃ result uptime, action = .runner (.sweep result uptime)) ∨ action = .cancelDraining)

/-- The step does not sweep a group again. -/
def SweepsOnce (s : OwnedRunner) (action : OwnedAction) (_ : OwnedRunner) : Prop :=
  ¬ s.SweepsAgain action

/-- No group has been signalled when it was a stranger's. -/
def Spared (s : OwnedRunner) : Prop := ∀ history ∈ s.histories, SparesStrangers history

theorem spared_iff :
    s.Spared ↔ (∀ history ∈ s.past, SparesStrangers history) ∧
      ∀ h ∈ s.handle, SparesStrangers h.history := by
  simp [Spared, histories, or_imp, forall_and]

theorem spared_onHandle {f : ProcessHandle → ProcessHandle} {h : ProcessHandle} {event : GroupEvent}
    (hhandle : s.handle = some h) (hf : (f h).history = h.history ++ [event]) :
    (s.onHandle f).Spared ↔
      s.Spared ∧ (.kill ∈ h.history → .reap ∈ h.history → event.isKillpg = false) := by
  have hpast : (s.onHandle f).past = s.past := rfl
  have hnew : (s.onHandle f).handle = some (f h) := by simp [onHandle, hhandle]
  simp only [spared_iff, hpast, hnew, hhandle, Option.mem_some_iff, forall_eq', hf,
    sparesStrangers_append, and_assoc]

/-- What is done to a group that was not swept does no harm. -/
theorem spared_onHandle_of_unswept (hA : s.Accounted) {f : ProcessHandle → ProcessHandle}
    {h : ProcessHandle} {event : GroupEvent} (hhandle : s.handle = some h) (hs : h.swept = false)
    (hf : (f h).history = h.history ++ [event]) : (s.onHandle f).Spared ↔ s.Spared := by
  have hunswept : .kill ∉ h.history := by
    rw [← (hA.honest h hhandle).swept_iff, hs]
    simp
  rw [spared_onHandle hhandle hf]
  exact and_iff_left fun hkill => absurd hkill hunswept

theorem spared_reaped {h : ProcessHandle} (hhandle : s.handle = some h) :
    (s.onHandle .reaped).Spared ↔ s.Spared := by
  rw [spared_onHandle hhandle rfl]
  exact and_iff_left fun _ _ => rfl

/-- A drop looks at the flag. -/
theorem spared_dropHandle (hA : s.Accounted) : s.dropHandle.Spared ↔ s.Spared := by
  rcases hhandle : s.handle with _ | h
  · simp [Spared, histories, OwnedRunner.dropHandle, hhandle]
  · have hdrop : SparesStrangers h.drop ↔ SparesStrangers h.history := by
      unfold ProcessHandle.drop
      split_ifs with hs
      · rfl
      · rw [sparesStrangers_append, ← (hA.honest h hhandle).swept_iff]
        exact and_iff_left fun hswept => absurd hswept hs
    simp [Spared, histories, OwnedRunner.dropHandle, hhandle, or_imp, forall_and, hdrop]

/-- The sweep after the exit does not look at the flag. -/
theorem spared_swept (hA : s.Accounted) {h : ProcessHandle} (hhandle : s.handle = some h)
    (hreap : .reap ∈ h.history) : (s.onHandle .killGroup).Spared ↔ s.Spared ∧ ¬ h.swept := by
  rw [spared_onHandle hhandle rfl, (hA.honest h hhandle).swept_iff]
  simp [hreap, GroupEvent.isKillpg]

theorem sweepsOnce_of_action (hsweep : ∀ result uptime, action ≠ .runner (.sweep result uptime))
    (hdraining : action ≠ .cancelDraining) : s.SweepsOnce action s' := by
  rintro ⟨-, -, ⟨result, uptime, heq⟩ | heq⟩
  · exact hsweep _ _ heq
  · exact hdraining heq

/-- The sweep after the exit, given that it is taken. -/
theorem sweepsOnce_iff_of_sweep {pgid : ℤ} {reason : ExitReason} {stoppedBy : Option ShutdownReason}
    {h : ProcessHandle} (hphase : s.runner.phase = .sweeping pgid reason stoppedBy)
    (hhandle : s.handle = some h)
    (haction : (∃ result uptime, action = .runner (.sweep result uptime)) ∨
      action = .cancelDraining) : s.SweepsOnce action s' ↔ ¬ h.swept := by
  refine not_congr ⟨?_, fun hswept => ⟨⟨_, _, _, hphase⟩, ⟨h, hhandle, hswept⟩, haction⟩⟩
  rintro ⟨-, ⟨held, hheld, hswept⟩, -⟩
  obtain rfl : h = held := Option.some.inj (hhandle.symm.trans hheld)
  exact hswept

/-- A step signals a stranger if and only if it sweeps a group again. -/
theorem spared_handled (hA : s.Accounted) (hheld : Held s.runner.phase s.handle)
    {runnerAction : RunnerAction} {runner : Runner} (hmoved : s.runner.Moved runnerAction runner) :
    (s.handled runnerAction).Spared ↔ s.Spared ∧ s.SweepsOnce (.runner runnerAction) s' := by
  cases hmoved with
  | endedStopped hphase | endedRestart hphase | endedStop hphase | endedFail hphase
  | sweepBroke hphase =>
    rw [hphase] at hheld
    obtain ⟨h, hhandle, hreap⟩ := hheld
    rw [sweepsOnce_iff_of_sweep hphase hhandle (.inl ⟨_, _, rfl⟩)]
    exact spared_swept hA hhandle hreap
  | spawned hphase =>
    rw [hphase] at hheld
    rw [and_iff_left (sweepsOnce_of_action (by simp) (by simp)), spared_iff, spared_iff]
    have hnone : s.handle = none := hheld
    simp [handled, hnone, ProcessHandle.new, sparesStrangers_nil]
  | exited hphase =>
    rw [hphase] at hheld
    obtain ⟨h, hhandle, -⟩ := hheld
    rw [and_iff_left (sweepsOnce_of_action (by simp) (by simp))]
    exact spared_reaped hhandle
  | reaped hphase =>
    rw [and_iff_left (sweepsOnce_of_action (by simp) (by simp))]
    rcases hphase with hphase | hphase <;> rw [hphase] at hheld
    · obtain ⟨h, hhandle, -⟩ := hheld
      exact spared_reaped hhandle
    · obtain ⟨h, hhandle⟩ := hheld
      exact spared_reaped hhandle
  | signalled hphase | signalBroke hphase =>
    rw [hphase] at hheld
    obtain ⟨h, hhandle, hswept⟩ := hheld
    rw [and_iff_left (sweepsOnce_of_action (by simp) (by simp))]
    exact spared_onHandle_of_unswept hA hhandle hswept rfl
  | escalated hphase | escalateBroke hphase =>
    rw [hphase] at hheld
    obtain ⟨h, hhandle, hswept⟩ := hheld
    rw [and_iff_left (sweepsOnce_of_action (by simp) (by simp))]
    exact spared_onHandle_of_unswept hA hhandle hswept rfl
  | slept | returned =>
    rw [and_iff_left (sweepsOnce_of_action (by simp) (by simp))]
    exact spared_dropHandle hA
  | _ => exact (and_iff_left (sweepsOnce_of_action (by simp) (by simp))).symm

theorem spared_step (h : ownedSystem.Reachable AnyStep s) (hstep : s.step action = some s') :
    s'.Spared ↔ s.Spared ∧ s.SweepsOnce action s' := by
  have hK := kept_of_reachable h
  obtain ⟨hcancelled, hstepped⟩ := stepped_of_step hK.aligned hstep
  have hheld := hK.held hcancelled
  cases hstepped with
  | runner hout hmoved => exact spared_handled hK.accounted hheld hmoved
  | publish => exact (and_iff_left (sweepsOnce_of_action (by simp) (by simp))).symm
  | cancel =>
    rw [and_iff_left (sweepsOnce_of_action (by simp) (by simp))]
    exact spared_dropHandle hK.accounted
  | cancelDraining hphase =>
    have hkilled := hK.accounted.onHandle fun h _ => h.honest_killGroup
    rw [hphase] at hheld
    obtain ⟨h, hhandle, hreap⟩ := hheld
    rw [sweepsOnce_iff_of_sweep hphase hhandle (.inr rfl), ← spared_swept hK.accounted hhandle hreap]
    exact spared_dropHandle hkilled

/-- **No stranger is signalled, but for one case**: in a run no `killpg` reaches a group that was
swept and whose leader was reaped if and only if no step sweeps, after the exit of the leader, a
group that an escalation has swept. -/
theorem spared_iff_sweepsOnce {s₀ s : OwnedRunner} (h : ownedSystem.init s₀)
    {actions : List OwnedAction} (hrun : ownedSystem.run s₀ actions = some s) :
    s.Spared ↔ ownedSystem.Throughout SweepsOnce s₀ actions := by
  rw [TransitionSystem.throughout_iff (fun hs hstep => spared_step hs hstep) (.initial h) hrun]
  refine and_iff_right ?_
  obtain ⟨service, options, rfl⟩ := h
  simp [Spared, histories, new]

/-- A runner of a service, with no process yet. -/
def idleRunner : OwnedRunner := new probedService probedOptions

theorem init_idleRunner : ownedSystem.init idleRunner := ⟨_, _, rfl⟩

/-- The process is stopped within the timeout, and the run returns. -/
def stopInTime : List OwnedAction :=
  [.runner (.head none), .publish, .runner (.spawn (.ok 100)), .publish, .publish,
    .runner (.interrupted .requested), .publish, .publish, .runner (.signal (.ok ())),
    .runner (.wait (.ok ⟨some 0, none⟩)), .runner (.sweep (.ok ()) 0), .publish, .publish,
    .runner .return]

theorem contained_stopInTime :
    ∃ s, ownedSystem.run idleRunner stopInTime = some s ∧ s.past = [[.signal, .reap, .kill]] ∧
      s.Contained := by
  have hrun : (ownedSystem.run idleRunner stopInTime).map (fun s =>
      decide (s.past = [[.signal, .reap, .kill]])) = some true := by decide +kernel
  obtain ⟨s, hs, hpast⟩ := Option.map_eq_some_iff.mp hrun
  exact ⟨s, hs, of_decide_eq_true hpast,
    contained_of_reachable ⟨_, init_idleRunner, TransitionSystem.steps_of_run hs⟩⟩

/-- The stop runs into the timeout. -/
def stopTooLate : List OwnedAction :=
  [.runner (.head none), .publish, .runner (.spawn (.ok 100)), .publish, .publish,
    .runner (.interrupted .requested), .publish, .publish, .runner (.signal (.ok ())),
    .runner (.escalate (.ok ())), .runner (.wait (.ok ⟨some 0, none⟩)),
    .runner (.sweep (.ok ()) 0)]

/-- The stop runs into the timeout, and the task is cancelled while the process is still there. -/
def stopCancelled : List OwnedAction := stopTooLate.take 10 ++ [.cancel]

/-- Evaluates the condition. -/
def sweepsAgain (s : OwnedRunner) (action : OwnedAction) : Bool :=
  match s.runner.phase, action with
  | .sweeping _ _ _, .runner (.sweep _ _) | .sweeping _ _ _, .cancelDraining =>
    s.handle.any ProcessHandle.swept
  | _, _ => false

theorem sweepsOnce_of_check (s : OwnedRunner) (action : OwnedAction) (s' : OwnedRunner)
    (h : !sweepsAgain s action) (_ : ownedSystem.step s action = some s') :
    SweepsOnce s action s' := by
  rintro ⟨⟨pgid, reason, stoppedBy, hphase⟩, ⟨handle, hhandle, hswept⟩,
    ⟨result, uptime, rfl⟩ | rfl⟩
  all_goals simp [sweepsAgain, hphase, hhandle, hswept] at h

/-- A group that an escalation has swept is left alone by a run that is cut short, and not by one
that goes on. -/
theorem spared_iff_sweepsOnce_stopCancelled :
    (∃ s, ownedSystem.run idleRunner stopCancelled = some s ∧ s.past = [[.signal, .kill]] ∧
      s.Spared) ∧
    ∃ s, ownedSystem.run idleRunner stopTooLate = some s ∧ ¬ s.Spared := by
  constructor
  · have hrun : (ownedSystem.checkedRun (fun s action => !sweepsAgain s action) idleRunner
        stopCancelled).map (fun s => decide (s.past = [[.signal, .kill]])) = some true := by
      decide +kernel
    obtain ⟨s, hs, hpast⟩ := Option.map_eq_some_iff.mp hrun
    have hs' := TransitionSystem.run_of_checkedRun hs
    exact ⟨s, hs', of_decide_eq_true hpast, (spared_iff_sweepsOnce init_idleRunner hs').mpr
      (TransitionSystem.throughout_of_checkedRun sweepsOnce_of_check hs)⟩
  · have hrun : (ownedSystem.run idleRunner (stopTooLate.take 11)).bind (fun s =>
        (s.step (.runner (.sweep (.ok ()) 0))).map fun _ => decide
          (s.runner.phase = .sweeping 100 (.code 0) (some .requested) ∧
            s.handle = some ⟨100, true, [.signal, .kill, .reap]⟩)) = some true := by decide +kernel
    obtain ⟨s, hs, hrun⟩ := Option.bind_eq_some_iff.mp hrun
    obtain ⟨s', hs', hfacts⟩ := Option.map_eq_some_iff.mp hrun
    obtain ⟨hphase, hhandle⟩ := of_decide_eq_true hfacts
    have hsplit : stopTooLate = stopTooLate.take 11 ++ [.runner (.sweep (.ok ()) 0)] := rfl
    have hsweep : ownedSystem.step s (.runner (.sweep (.ok ()) 0)) = some s' := hs'
    have hlast : ownedSystem.run idleRunner stopTooLate = some s' := by
      rw [hsplit, TransitionSystem.run_append, hs, Option.bind_some,
        TransitionSystem.run_cons_of_step hsweep]
      rfl
    refine ⟨s', hlast, mt (spared_iff_sweepsOnce init_idleRunner hlast).mp fun hall => ?_⟩
    rw [hsplit] at hall
    exact hall.of_run_append hs hsweep
      ⟨⟨_, _, _, hphase⟩, ⟨_, hhandle, rfl⟩, .inl ⟨_, _, rfl⟩⟩

/-- The group is swept by the escalation, its leader is reaped, and it is killed once more. -/
theorem stopTooLate_not_spared : ¬ ∀ s, ownedSystem.Reachable AnyStep s → s.Spared := by
  intro hall
  have hrun : (ownedSystem.run idleRunner stopTooLate).map (fun s =>
      decide (s.histories = [[.signal, .kill, .reap, .kill]])) = some true := by decide +kernel
  obtain ⟨s, hs, hhistories⟩ := Option.map_eq_some_iff.mp hrun
  have hspared := hall s ⟨_, init_idleRunner, TransitionSystem.steps_of_run hs⟩
    [.signal, .kill, .reap, .kill] (by simp [of_decide_eq_true hhistories])
  cases hspared [.signal, .kill, .reap] .kill [] rfl (by simp) (by simp)

end OwnedRunner

end Servicrab
