import Servicrab.Core.Status
import Servicrab.Runner.Endings
import Servicrab.Tasks.Stale

/-!
# What a task leaves behind

Once a supervision task has ended, its last words stand: the status its dependents watch and the
entry of the service in the registry stay as the relay has left them. Both are final on every way
out of `run` and `shutdown` that goes through a transition. The ways out that do not are those of
a wait or a signal that failed, which leave the service `Running` or `Stopping` for good.

The invariant is that of a debt: as long as a status or an entry is not final, some task of the
service still waits, is about to give up, or has a relay that is going to hear of a final state.

## Main definitions

* `StatusEntry.Rested`, `Conclusive`, `DependencyStatus.Concluded`.
* `World.LeavesOrder`: what is asked of every state.
* `World.CallsSucceed`: the guard.
* `TaskLocal.Owes`, `World.Covered`: the invariant.

## Main results

* `World.leavesOrder_of_reachable`.
-/

open TransitionSystem (AnyStep)

namespace Servicrab

/-! ### Final entries -/

/-- Nothing runs for the service as far as the entry knows. -/
structure StatusEntry.Rested (entry : StatusEntry) : Prop where
  pid_eq : entry.pid = none
  state_notMem : entry.state ∉ [.starting, .running, .backoff, .stopping]

/-- An event after which an entry that was at rest is at rest. -/
def EventKind.isHarmless (kind : EventKind) : Bool :=
  match kind with
  | .state next => next.isTerminal
  | .started _ => false
  | _ => true

theorem EventKind.isHarmless_of_isPlain {kind : EventKind} (h : kind.isPlain) :
    kind.isHarmless := by
  cases kind <;> first | rfl | cases h

theorem EventKind.isHarmless_of_isWatch {kind : EventKind} (h : kind.isWatch) :
    kind.isHarmless := by
  cases kind <;> first | rfl | cases h

namespace StatusEntry

variable {entry : StatusEntry}

theorem rested_new (hasHealth : Bool) : (new hasHealth).Rested := ⟨rfl, by simp [new]⟩

theorem rested_apply_state (entry : StatusEntry) (now : Instant) {state : ServiceState}
    (h : state.isTerminal) : (entry.apply now (.state state)).Rested := by
  cases state with
  | stopped | exited | failed => exact ⟨rfl, by simp [StatusEntry.apply]⟩
  | _ => cases h

theorem Rested.apply (h : entry.Rested) {kind : EventKind} (hharmless : kind.isHarmless)
    (now : Instant) : (entry.apply now kind).Rested := by
  cases kind with
  | state state => exact rested_apply_state entry now hharmless
  | started => cases hharmless
  | _ => exact ⟨h.pid_eq, h.state_notMem⟩

end StatusEntry

/-- Whoever folds these events into a new entry, from whichever of them on, ends up with an entry
at rest. -/
def Conclusive (kinds : List EventKind) : Prop :=
  ∀ events : List (Instant × EventKind), events.map Prod.snd <:+ kinds →
    ∀ hasHealth, ((StatusEntry.new hasHealth).applyAll events).Rested

theorem conclusive_nil : Conclusive [] := by
  intro events hsuffix hasHealth
  rw [List.map_eq_nil_iff.mp (List.suffix_nil.mp hsuffix)]
  exact StatusEntry.rested_new hasHealth

/-- One more event, after which an entry is at rest. -/
theorem conclusive_concat {kinds : List EventKind} {kind : EventKind}
    (h : ∀ events : List (Instant × EventKind), events.map Prod.snd <:+ kinds →
      ∀ hasHealth now, (((StatusEntry.new hasHealth).applyAll events).apply now kind).Rested) :
    Conclusive (kinds ++ [kind]) := by
  intro events hsuffix hasHealth
  rcases List.eq_nil_or_concat events with rfl | ⟨init, ⟨now, last⟩, rfl⟩
  · exact StatusEntry.rested_new hasHealth
  · rw [List.concat_eq_append, List.map_append] at hsuffix
    obtain ⟨pre, hpre⟩ := hsuffix
    rw [← List.append_assoc] at hpre
    obtain ⟨hinit, hlast⟩ := List.append_inj' hpre rfl
    obtain rfl : last = kind := by simpa using hlast
    rw [List.concat_eq_append, StatusEntry.applyAll_append]
    exact h init ⟨pre, hinit⟩ hasHealth now

theorem Conclusive.concat {kinds : List EventKind} (h : Conclusive kinds) {kind : EventKind}
    (hharmless : kind.isHarmless) : Conclusive (kinds ++ [kind]) :=
  conclusive_concat fun events hsuffix hasHealth now =>
    (h events hsuffix hasHealth).apply hharmless now

theorem Conclusive.append {kinds' : List EventKind} (hharmless : ∀ kind ∈ kinds', kind.isHarmless) :
    ∀ {kinds : List EventKind}, Conclusive kinds → Conclusive (kinds ++ kinds') := by
  induction kinds' with
  | nil =>
    intro kinds h
    rwa [List.append_nil]
  | cons kind kinds' ih =>
    intro kinds h
    rw [← List.singleton_append, ← List.append_assoc]
    exact ih (fun k hk => hharmless k (List.mem_cons_of_mem _ hk))
      (h.concat (hharmless kind List.mem_cons_self))

/-- Whatever came before, a final state concludes it. -/
theorem conclusive_state (kinds : List EventKind) {state : ServiceState} (h : state.isTerminal) :
    Conclusive (kinds ++ [.state state]) :=
  conclusive_concat fun _ _ _ now => StatusEntry.rested_apply_state _ now h

/-! ### Final statuses -/

/-- The service is not going to change its state any more. -/
def DependencyStatus.Concluded (status : DependencyStatus) : Prop :=
  status.gone ∨ status.state.isTerminal

theorem DependencyStatus.Concluded.readiness {status : DependencyStatus} (h : status.Concluded)
    (condition : DependencyCondition) :
    status.readiness condition ≠ .pending ∧
      ¬ (status.readiness condition = .ready ∧ status.state = .running) := by
  unfold DependencyStatus.readiness
  rcases h with hgone | hstate
  · simp [hgone]
  · cases hs : status.state with
    | stopped | failed | exited => cases condition <;> simp <;> split_ifs <;> simp
    | _ => simp [hs, ServiceState.isTerminal] at hstate

/-- A change of the state is written, and announced. -/
theorem relayEffects_of_state_ne {tracker : DependencyStatus} {kind : EventKind}
    (h : (tracker.observe kind).state ≠ tracker.state) :
    .write (tracker.observe kind) ∈ TaskLocal.relayEffects tracker kind ∧
      ∃ state, .emit (.state state) ∈ TaskLocal.relayEffects tracker kind := by
  have hne : tracker.observe kind ≠ tracker := fun he => h (congrArg DependencyStatus.state he)
  have hobserved : tracker.observed kind = some (tracker.observe kind) := by
    rw [DependencyStatus.observed, if_neg hne]
  constructor
  · simp [TaskLocal.relayEffects, hobserved]
  · cases kind with
    | state state => exact ⟨state, by simp [TaskLocal.relayEffects]⟩
    | _ => exact absurd (DependencyStatus.observe_state tracker _) h

namespace Effect

/-- What the relay does with an event fits the status it has derived so far. -/
def Tells (tracker : DependencyStatus) : Effect → Prop
  | .write status => status = tracker
  | .emit (.state state) => state = tracker.state
  | .emit (.started _) => tracker.state = .running
  | _ => True

/-- The effect says nothing about the lifecycle state or the process of the service. -/
def Plain : Effect → Prop
  | .write _ => False
  | .emit kind => kind.isPlain
  | _ => True

/-- The status in the cell of the task, after the effect. -/
def applied (effect : Effect) (status : DependencyStatus) : DependencyStatus :=
  match effect with
  | .write status => status
  | .giveUp => { status with gone := true }
  | _ => status

/-- The events that are published. -/
def emitted (effect : Effect) : List EventKind :=
  match effect with
  | .emit kind => [kind]
  | _ => []

end Effect

/-- What the relay does with an event fits the status it derives from the event. -/
theorem tells_relayEffects {tracker : DependencyStatus} {kind : EventKind}
    (hstarted : ∀ pgid, kind = .started pgid → tracker.state = .running) :
    ∀ effect ∈ TaskLocal.relayEffects tracker kind, effect.Tells (tracker.observe kind) := by
  intro effect heffect
  simp only [TaskLocal.relayEffects, List.mem_append, List.mem_singleton] at heffect
  rcases heffect with (hstore | hwrite) | rfl
  · split at hstore <;> simp_all [Effect.Tells]
  · split at hwrite
    · rename_i next hobserved
      rw [List.mem_singleton] at hwrite
      rw [hwrite, Effect.Tells]
      unfold DependencyStatus.observed at hobserved
      split_ifs at hobserved
      exact (Option.some.inj hobserved).symm
    · cases hwrite
  · cases kind with
    | state state => exact (DependencyStatus.observe_state tracker (.state state)).symm
    | started pgid =>
      exact (DependencyStatus.observe_state tracker (.started pgid)).trans (hstarted pgid rfl)
    | _ => trivial

/-! ### Debts -/

/-- Whether a step of a task has a system call on its process fail. -/
def WorldAction.losesProcess (action : WorldAction) : Bool :=
  match action with
  | .task _ (.run action) => action.losesProcess
  | _ => false

namespace TaskLocal

/-- What is known about the run of a task and what its relay has left to do. -/
structure Faithful (l : TaskLocal) : Prop where
  reachable : ∀ run, l.run = some run → runSystem.Reachable Run.CallsSucceed run
  waiting : ∀ rest looked, l.phase = .waiting rest looked → l.run = none
  relay_run : ∀ effects, l.relay = some effects → ∃ run, l.run = some run
  returned : ∀ effects run, l.phase = .ending effects → l.run = some run →
    ∃ result, run.runner.phase = .returned result
  plain : ∀ effects, l.phase = .ending effects → ∀ effect ∈ effects, effect.Plain
  tells : ∀ effects run, l.relay = some effects → l.run = some run →
    ∀ effect ∈ effects, effect.Tells run.tracker

/-- The relay has something of the given kind left to do, or is going to hear of a final state. -/
def RelayOwes (kind : Effect → Prop) (l : TaskLocal) : Prop :=
  ∃ effects run, l.relay = some effects ∧ l.run = some run ∧
    ((∃ effect ∈ effects, kind effect) ∨ ¬ run.tracker.state.isTerminal)

/-- The effect writes a status. -/
def writes (effect : Effect) : Prop := ∃ status, effect = .write status

/-- The effect announces a lifecycle state. -/
def announces (effect : Effect) : Prop := ∃ state, effect = .emit (.state state)

/-- The task is going to write a final status. -/
def Owes (l : TaskLocal) : Prop :=
  (∃ rest looked, l.phase = .waiting rest looked) ∨
    (∃ effects, l.phase = .ending effects ∧ .giveUp ∈ effects) ∨ l.RelayOwes writes

/-- Everything the run of the task has published so far was relayed. -/
def Relayed (l : TaskLocal) : Prop :=
  ∀ effects, l.relay = some effects → effects = [] ∧ ∀ run, l.run = some run → run.channel = []

variable {w : World} {task : ℕ} {spawned : Task} {l : TaskLocal} {action : TaskAction}
  {next : TaskLocal × Option Effect}

/-- A run that has returned stays so. -/
theorem returned_of_step {run run' : Run} {action : RunAction}
    (hrun : runSystem.Reachable Run.CallsSucceed run) (hstep : run.step action = some run')
    {result : Except RuntimeError RunOutcome} (hreturned : run.runner.phase = .returned result) :
    run'.runner.phase = .returned result := by
  rcases Run.step_sends (Run.honest_of_reachable hrun) hstep with
    ⟨runnerAction, -, -, hrunner, -⟩ | ⟨_, _, -, he, -⟩ | ⟨he, -⟩
  · simp [Runner.step, hreturned] at hrunner
  · rw [he]
    exact hreturned
  · rw [he]
    exact hreturned

/-- The channel of a run is not closed before the runner has returned. -/
theorem returned_of_not_isOpen {run : Run} (h : run.isOpen = false) :
    ∃ result, run.runner.phase = .returned result := by
  simp only [Run.isOpen, Bool.or_eq_false_iff] at h
  obtain ⟨⟨hphase, -⟩, -⟩ := h
  split at hphase
  · rename_i result hreturned
    exact ⟨result, hreturned⟩
  · cases hphase

theorem receive_eq {run run' : Run} {event : ℕ × EventKind} {rest : List (ℕ × EventKind)}
    (hchannel : run.channel = event :: rest) (hstep : run.step .receive = some run') :
    run' = { run with
      channel := rest
      tracker := run.tracker.observe event.2
      received := run.received ++ [event] } := by
  simp only [Run.step, hchannel] at hstep
  exact (Option.some.inj hstep).symm

theorem faithful_new (spawned : Task) : (TaskLocal.new spawned).Faithful := by
  constructor <;> simp [TaskLocal.new]

/-- A task that has no run yet goes on to wait, or to give up. -/
theorem Faithful.of_waiting (h : l.Faithful) {rest : List DependencyEdge} {looked : Bool}
    (hphase : l.phase = .waiting rest looked) {phase : TaskPhase}
    (hplain : ∀ effects, phase = .ending effects → ∀ effect ∈ effects, effect.Plain) :
    { l with phase := phase }.Faithful := by
  have hrun : l.run = none := h.waiting rest looked hphase
  exact {
    reachable := h.reachable
    waiting := fun _ _ _ => hrun
    relay_run := h.relay_run
    returned := fun _ run _ hr => by rw [hrun] at hr; cases hr
    plain := hplain
    tells := h.tells }

/-- The run of a task takes a step, after which its relay has these effects left. -/
theorem Faithful.advance (h : l.Faithful) {run run' : Run} (hrun : l.run = some run)
    {action : RunAction} (hcalls : action.losesProcess = false)
    (hstep : run.step action = some run') {relay : Option (List Effect)}
    (htells : ∀ effects, relay = some effects → ∀ effect ∈ effects, effect.Tells run'.tracker) :
    { l with run := some run', relay := relay }.Faithful := by
  have hreach := h.reachable run hrun
  constructor
  case reachable =>
    rintro _ ⟨⟩
    exact hreach.step hcalls hstep
  case waiting =>
    intro rest looked hphase
    rw [h.waiting rest looked hphase] at hrun
    cases hrun
  case relay_run => exact fun _ _ => ⟨run', rfl⟩
  case returned =>
    rintro effects _ hphase ⟨⟩
    obtain ⟨result, hreturned⟩ := h.returned effects run hphase hrun
    exact ⟨result, returned_of_step hreach hstep hreturned⟩
  case plain => exact h.plain
  case tells =>
    rintro effects _ hrelay ⟨⟩
    exact htells effects hrelay

theorem Faithful.step (h : l.Faithful) (hstep : World.LocalStep w task spawned l action next)
    (hcalls : (WorldAction.task task action).losesProcess = false) : next.1.Faithful := by
  cases hstep with
  | ready hphase | pending hphase => exact h.of_waiting hphase (by simp)
  | gone hphase | lost hphase =>
    refine h.of_waiting hphase ?_
    simp [blocked, Effect.Plain, EventKind.isPlain]
  | heed hphase =>
    refine h.of_waiting hphase ?_
    simp [shutDown, Effect.Plain]
  | started hphase =>
    constructor
    case reachable =>
      rintro _ ⟨⟩
      exact .initial ⟨_, _, rfl⟩
    all_goals simp
  | run hrun hreceive hstop hrunStep =>
    refine h.advance hrun hcalls hrunStep fun effects hrelay => ?_
    rw [(Run.receipts_of_step hrunStep hreceive).1]
    exact h.tells effects _ hrelay hrun
  | receive hrelay hrun hchannel hrunStep =>
    refine h.advance hrun rfl hrunStep ?_
    rintro _ ⟨⟩
    rw [receive_eq hchannel hrunStep]
    refine tells_relayEffects ?_
    rintro pgid hkind
    exact Run.tracker_of_started (h.reachable _ hrun) (hchannel.trans (by rw [← hkind]))
  | relay hrelay =>
    refine ⟨h.reachable, h.waiting, fun _ _ => h.relay_run _ hrelay, h.returned, h.plain, ?_⟩
    rintro _ run ⟨⟩ hrun effect heffect
    exact h.tells _ run hrelay hrun effect (List.mem_cons_of_mem _ heffect)
  | close => exact ⟨h.reachable, h.waiting, by simp, h.returned, h.plain, by simp⟩
  | wrapUp hphase hrun hreturned hdrained =>
    rename_i run result _
    refine ⟨h.reachable, ?_, h.relay_run, ?_, ?_, h.tells⟩
    · unfold wrappedUp
      split <;> simp
    · rintro effects other - hother
      exact ⟨result, Option.some.inj (hrun.symm.trans hother) ▸ hreturned⟩
    · unfold wrappedUp
      split <;> simp [Effect.Plain, EventKind.isPlain]
  | conclude hphase =>
    refine ⟨h.reachable, by simp, h.relay_run, fun _ run _ hrun => h.returned _ run hphase hrun, ?_,
      h.tells⟩
    rintro _ ⟨⟩ effect heffect
    exact h.plain _ hphase effect (List.mem_cons_of_mem _ heffect)

/-- An effect of a task is plain, or it is one of its relay that fits its tracker. -/
theorem Faithful.effect (h : l.Faithful) (hstep : World.LocalStep w task spawned l action next)
    {effect : Effect} (heffect : next.2 = some effect) :
    effect.Plain ∨ ∃ run rest, next.1.relay = some rest ∧ next.1.run = some run ∧
      effect.Tells run.tracker := by
  cases hstep with
  | relay hrelay =>
    right
    obtain ⟨run, hrun⟩ := h.relay_run _ hrelay
    cases heffect
    exact ⟨run, _, rfl, hrun, h.tells _ run hrelay hrun _ List.mem_cons_self⟩
  | conclude hphase =>
    cases heffect
    exact .inl (h.plain _ hphase _ List.mem_cons_self)
  | _ => cases heffect

/-- A status that is written is final, or that of a relay in debt. -/
theorem Faithful.write (h : l.Faithful) (hstep : World.LocalStep w task spawned l action next)
    {status : DependencyStatus} (heffect : next.2 = some (.write status)) :
    status.state.isTerminal ∨ next.1.Owes := by
  rcases h.effect hstep heffect with hplain | ⟨run, rest, hrelay, hrun, rfl⟩
  · cases hplain
  · by_cases hterminal : run.tracker.state.isTerminal
    · exact .inl hterminal
    · exact .inr (.inr (.inr ⟨rest, run, hrelay, hrun, .inr hterminal⟩))

/-- An event that is published is harmless, or that of a relay in debt. -/
theorem Faithful.emit (h : l.Faithful) (hstep : World.LocalStep w task spawned l action next)
    {event : EventKind} (heffect : next.2 = some (.emit event)) :
    event.isHarmless ∨ ∀ kind, next.1.RelayOwes kind := by
  rcases h.effect hstep heffect with hplain | ⟨run, rest, hrelay, hrun, htells⟩
  · exact .inl (EventKind.isHarmless_of_isPlain hplain)
  · by_cases hterminal : run.tracker.state.isTerminal
    · left
      cases event with
      | state state =>
        obtain rfl : state = run.tracker.state := htells
        exact hterminal
      | started =>
        rw [show run.tracker.state = .running from htells] at hterminal
        cases hterminal
      | _ => rfl
    · exact .inr fun kind => ⟨rest, run, hrelay, hrun, .inr hterminal⟩

/-- A relay that was drained to the end of a run that has returned owes nothing. -/
theorem Faithful.not_relayOwes (h : l.Faithful) {kind : Effect → Prop} {run : Run}
    (hrun : l.run = some run) {result : Except RuntimeError RunOutcome}
    (hreturned : run.runner.phase = .returned result) (hrelay : l.relay = some [])
    (hchannel : run.channel = []) : ¬ l.RelayOwes kind := by
  rintro ⟨effects, other, heffects, hother, howes⟩
  obtain rfl := Option.some.inj (hrun.symm.trans hother)
  obtain rfl := Option.some.inj (hrelay.symm.trans heffects)
  have hterminal := Run.tracker_isTerminal (h.reachable run hrun) hreturned hchannel
  simp [hterminal] at howes

/-- A debt of a relay stays, or is paid. -/
theorem RelayOwes.step {kind : Effect → Prop} (h : l.RelayOwes kind) (hfaithful : l.Faithful)
    (hkind : ∀ {tracker : DependencyStatus} {event : EventKind},
      (tracker.observe event).state ≠ tracker.state →
        ∃ effect ∈ relayEffects tracker event, kind effect)
    (hstep : World.LocalStep w task spawned l action next) :
    next.1.RelayOwes kind ∨ ∃ effect tracker, next.2 = some effect ∧ kind effect ∧
      effect.Tells tracker ∧ tracker.state.isTerminal := by
  obtain ⟨effects, run, hrelay, hrun, howes⟩ := h
  cases hstep with
  | ready | gone | pending | lost | heed | wrapUp | conclude =>
    exact .inl ⟨effects, run, hrelay, hrun, howes⟩
  | started hphase =>
    rw [hfaithful.waiting _ _ hphase] at hrun
    cases hrun
  | run hrun' hreceive hstop hrunStep =>
    obtain rfl := Option.some.inj (hrun.symm.trans hrun')
    refine .inl ⟨effects, _, hrelay, rfl, ?_⟩
    rwa [(Run.receipts_of_step hrunStep hreceive).1]
  | receive hrelay' hrun' hchannel hrunStep =>
    obtain rfl := Option.some.inj (hrun.symm.trans hrun')
    obtain rfl := Option.some.inj (hrelay.symm.trans hrelay')
    refine .inl ⟨_, _, rfl, rfl, ?_⟩
    rw [receive_eq hchannel hrunStep]
    have hopen : ¬ run.tracker.state.isTerminal := by simpa using howes
    rename_i event _
    by_cases hstate : (run.tracker.observe event.2).state = run.tracker.state
    · right
      rw [hstate]
      exact hopen
    · exact .inl (hkind hstate)
  | relay hrelay' =>
    rename_i effect rest
    obtain rfl := Option.some.inj (hrelay.symm.trans hrelay')
    have htells := hfaithful.tells _ run hrelay hrun effect List.mem_cons_self
    rcases howes with ⟨owed, howed, hk⟩ | hopen
    · rcases List.mem_cons.mp howed with rfl | hmem
      · by_cases hopen : run.tracker.state.isTerminal
        · exact .inr ⟨owed, run.tracker, rfl, hk, htells, hopen⟩
        · exact .inl ⟨rest, run, rfl, hrun, .inr hopen⟩
      · exact .inl ⟨rest, run, rfl, hrun, .inl ⟨owed, hmem, hk⟩⟩
    · exact .inl ⟨rest, run, rfl, hrun, .inr hopen⟩
  | close hrelay' hrun' hchannel hopen =>
    obtain rfl := Option.some.inj (hrun.symm.trans hrun')
    obtain ⟨result, hreturned⟩ := returned_of_not_isOpen hopen
    exact absurd ⟨effects, run, hrelay, hrun, howes⟩
      (hfaithful.not_relayOwes hrun hreturned hrelay' hchannel)

/-- A debt of a task stays, or is paid with a final status. -/
theorem Owes.step (h : l.Owes) (hfaithful : l.Faithful)
    (hstep : World.LocalStep w task spawned l action next) :
    next.1.Owes ∨ next.2 = some .giveUp ∨
      ∃ status, next.2 = some (.write status) ∧ status.state.isTerminal := by
  rcases h with ⟨rest, looked, hphase⟩ | ⟨effects, hphase, hmem⟩ | howes
  · have hne : ∀ {phase : TaskPhase}, l.phase = phase → phase = .waiting rest looked :=
      fun he => he.symm.trans hphase
    have hrun : l.run = none := hfaithful.waiting rest looked hphase
    cases hstep with
    | ready | pending => exact .inl (.inl ⟨_, _, rfl⟩)
    | gone | lost | heed => exact .inl (.inr (.inl ⟨_, rfl, by simp⟩))
    | started => exact .inl (.inr (.inr ⟨[], _, rfl, rfl, .inr Bool.false_ne_true⟩))
    | run | receive | relay | close => exact .inl (.inl ⟨rest, looked, hphase⟩)
    | wrapUp h | conclude h => cases hne h
  · have hne : ∀ {phase : TaskPhase}, l.phase = phase → phase = .ending effects :=
      fun he => he.symm.trans hphase
    cases hstep with
    | run | receive | relay | close => exact .inl (.inr (.inl ⟨effects, hphase, hmem⟩))
    | conclude h =>
      obtain rfl := TaskPhase.ending.inj (hne h)
      rcases List.mem_cons.mp hmem with rfl | hmem
      · exact .inr (.inl rfl)
      · exact .inl (.inr (.inl ⟨_, rfl, hmem⟩))
    | ready h | gone h | pending h | started h | lost h | heed h | wrapUp h => cases hne h
  · rcases howes.step hfaithful
      (fun hstate => ⟨_, (relayEffects_of_state_ne hstate).1, _, rfl⟩) hstep with
      howes | ⟨_, tracker, heffect, ⟨status, rfl⟩, rfl, hterminal⟩
    · exact .inl (.inr (.inr howes))
    · exact .inr (.inr ⟨status, heffect, hterminal⟩)

/-- A task that has ended, and whose run was relayed, owes nothing. -/
theorem Faithful.not_owes (h : l.Faithful) (hphase : l.phase = .ending []) (hrelayed : l.Relayed)
    {kind : Effect → Prop} : ¬ l.RelayOwes kind ∧ ¬ l.Owes := by
  have hrelay : ∀ {kind : Effect → Prop}, ¬ l.RelayOwes kind := by
    rintro kind ⟨effects, run, heffects, hrun, howes⟩
    obtain ⟨rfl, hchannel⟩ := hrelayed effects heffects
    obtain ⟨result, hreturned⟩ := h.returned _ run hphase hrun
    exact h.not_relayOwes hrun hreturned heffects (hchannel run hrun)
      ⟨[], run, heffects, hrun, howes⟩
  refine ⟨hrelay, ?_⟩
  rintro (⟨_, _, hwaiting⟩ | ⟨effects, hending, hmem⟩ | howes)
  · cases hphase.symm.trans hwaiting
  · cases hphase.symm.trans hending
    cases hmem
  · exact hrelay howes

end TaskLocal

/-! ### What the supervisor does to cells and events -/

namespace Stack

variable {w w' : Stack} {cell : ℕ}

/-- Everything that was published about a service. -/
def eventsOf (w : Stack) (name : ServiceName) : List EventKind :=
  (w.events.filter fun event => event.service = name).map ServiceEvent.kind

theorem eventsOf_append {events : List ServiceEvent} (h : w'.events = w.events ++ events)
    (name : ServiceName) :
    w'.eventsOf name =
      w.eventsOf name ++ (events.filter fun event => event.service = name).map ServiceEvent.kind := by
  rw [eventsOf, h, List.filter_append, List.map_append]
  rfl

/-- Between two states a cell stays as it is, unless a task is spawned for its slot, and nothing is
published. -/
structure KeepsCells (w w' : Stack) : Prop where
  cells : ∀ cell < w.cells.length, w'.cells[cell]? = w.cells[cell]? ∨ w.SpawnsOnto w' cell
  length_le : w.cells.length ≤ w'.cells.length
  tasks : w.tasks <+: w'.tasks
  events_eq : w'.events = w.events

theorem KeepsCells.refl (w : Stack) : KeepsCells w w :=
  ⟨fun _ _ => .inl rfl, le_rfl, List.prefix_rfl, rfl⟩

theorem KeepsCells.of_eq (hcells : w'.cells = w.cells) (htasks : w'.tasks = w.tasks)
    (hevents : w'.events = w.events) : KeepsCells w w' :=
  ⟨fun _ _ => .inl (by rw [hcells]), by rw [hcells], by rw [htasks], hevents⟩

theorem KeepsCells.trans {w'' : Stack} (h : KeepsCells w w') (h' : KeepsCells w' w'') :
    KeepsCells w w'' := by
  refine ⟨fun cell hcell => ?_, h.length_le.trans h'.length_le, h.tasks.trans h'.tasks,
    h'.events_eq.trans h.events_eq⟩
  rcases h'.cells cell (hcell.trans_le h.length_le) with heq | ⟨task, spawned, hlt, hspawned⟩
  · rw [heq]
    refine (h.cells cell hcell).imp_right ?_
    rintro ⟨task, spawned, hlt, htask, hshared⟩
    refine ⟨task, spawned, hlt, ?_, hshared⟩
    rw [getElem?_of_isPrefix h'.tasks (List.getElem?_eq_some_iff.mp htask).1, htask]
  · exact .inr ⟨task, spawned, h.tasks.length_le.trans hlt, hspawned⟩

/-- A spawn wipes the cell of its slot, and no other. -/
theorem KeepsCells.spawn {slot : Slot}
    (hcells : w'.cells = w.cells.modify slot.shared fun _ => { status := .new, pgid := 0 })
    (htasks : w'.tasks =
      w.tasks ++ [{ service := slot.service, deps := slot.deps, shared := slot.shared }])
    (hevents : w'.events = w.events) : KeepsCells w w' := by
  refine ⟨fun cell _ => ?_, ?_, ?_, hevents⟩
  · by_cases he : slot.shared = cell
    · right
      exact ⟨w.tasks.length, _, le_rfl, by rw [htasks, List.getElem?_concat_length], he⟩
    · left
      rw [hcells, List.getElem?_modify_ne _ _ he]
  · rw [hcells, List.length_modify]
  · rw [htasks]
    exact List.prefix_append _ _

theorem Op.keepsCells (hop : Op w w') : KeepsCells w w' := by
  cases hop with
  | config | set | ask | erase | rewire => exact .of_eq rfl rfl rfl
  | insert hs =>
    rw [insertSlot_of_none hs]
    refine ⟨fun cell hcell => .inl ?_, ?_, List.prefix_rfl, rfl⟩
    · exact List.getElem?_append_left hcell
    · simp
  | spawn hs hidle => exact .spawn rfl rfl rfl

theorem Ops.keepsCells (hops : Ops w w') : KeepsCells w w' := by
  induction hops with
  | refl => exact .refl w
  | tail _ hop ih => exact ih.trans hop.keepsCells

/-- What the supervisor and its surroundings do to cells and events. -/
theorem keepsCells_of_step (hI : w.Inv) {action : StackAction} (houtside : action.isOutside)
    (hstep : w.step action = some w') :
    KeepsCells w { w' with events := w.events } ∧
      ∃ events : List ServiceEvent, w'.events = w.events ++ events ∧
        ∀ event ∈ events, event.kind.isWatch := by
  cases action with
  | control =>
    obtain ⟨_, rest, answers, w₁, -, hops, rfl⟩ := hI.ops_control hstep
    have htaken : KeepsCells w { w with control := rest } := .of_eq rfl rfl rfl
    have hkept : KeepsCells w { w₁ with answers := answers } :=
      (htaken.trans hops.keepsCells).trans (.of_eq rfl rfl rfl)
    refine ⟨?_, [], by rw [hkept.events_eq, List.append_nil], by simp⟩
    exact ⟨hkept.cells, hkept.length_le, hkept.tasks, rfl⟩
  | report =>
    obtain ⟨_, _, _, slot, _, _, -, -, -, heffect⟩ := hI.step_report hstep
    cases heffect with
    | removed | stopped => exact ⟨.of_eq rfl rfl rfl, [], by simp, by simp⟩
    | respawned => exact ⟨.spawn rfl rfl rfl, [], by simp, by simp⟩
  | submit | interrupt | idle =>
    simp only [step] at hstep
    split_ifs at hstep
    cases hstep
    exact ⟨.of_eq rfl rfl rfl, [], by simp, by simp⟩
  | emit event =>
    cases hstep
    refine ⟨.of_eq rfl rfl rfl, [event], rfl, ?_⟩
    simpa [StackAction.isOutside] using houtside
  | finish | write | store => cases houtside

/-- Nothing but the services that are held back was published when the loop is entered. -/
theorem events_initial {options : StackOptions} {config : ValidConfig} {plan : StartPlan config.1}
    {stopped : Finset ServiceName} (event : ServiceEvent)
    (h : event ∈ (Stack.initial options config plan.1 stopped).events) :
    event.kind = .state .stopped := by
  refine initial_induction (P := fun w => ∀ event ∈ w.events, event.kind = .state .stopped)
    (by simp [Stack.empty]) (fun w name hw => ?_) (fun _ hw => hw) (fun w name hw => ?_) event h
  · unfold insertPlanned
    split
    · intro event hevent
      rw [insertSlot, debugAssert_eq] at hevent
      exact hw event hevent
    · exact hw
  · unfold startService publishStopped
    split_ifs
    · split
      · exact hw
      · intro event hevent
        rcases List.mem_append.mp hevent with hevent | hevent
        · exact hw event hevent
        · rw [List.mem_singleton.mp hevent]
    · split <;> exact hw

end Stack

namespace World

variable {w w' : World} {task : ℕ} {spawned : Task} {l : TaskLocal} {name : ServiceName}

/-! ### The guard and the property -/

/-- The guard that no system call on the process of a service fails. -/
def CallsSucceed (_ : World) (action : WorldAction) (_ : World) : Prop :=
  action.losesProcess = false

/-- Everything that the tasks of the service have published so far was relayed. -/
def Relayed (w : World) (name : ServiceName) : Prop :=
  ∀ (task : ℕ) (spawned : Task) (l : TaskLocal), w.stack.tasks[task]? = some spawned →
    spawned.service.name = name → w.locals[task]? = some l → l.Relayed

/-- Once the tasks of a service have ended, their reports were processed and what they published was
relayed, nobody waits for the service in vain or starts against a process that is gone, and no entry
made from the events of the service says that something runs. -/
structure LeavesOrder (w : World) : Prop where
  /-- The cell of a task is that of its slot, as long as there is one. -/
  status : ∀ {task : ℕ} {spawned : Task} {cell : Cell}, w.stack.tasks[task]? = some spawned →
    w.stack.live spawned.service.name = none → w.Relayed spawned.service.name →
    w.stack.cells[spawned.shared]? = some cell → ∀ condition,
      cell.status.readiness condition ≠ .pending ∧
        ¬ (cell.status.readiness condition = .ready ∧ cell.status.state = .running)
  /-- The entry may be as old as the stack, or was made later on. -/
  entry : ∀ {name : ServiceName} {registry : StatusRegistry} {hasHealth : Bool}
    {events : List (Instant × ServiceEvent)} {entry : StatusEntry},
    w.stack.live name = none → w.Relayed name →
    registry.services[name]? = some (.new hasHealth) →
    events.map Prod.snd <:+ w.stack.events →
    (registry.applyAll events).services[name]? = some entry → entry.Rested

/-! ### The invariant -/

theorem faithful_of_reachable (h : worldSystem.Reachable CallsSucceed w) :
    ∀ (task : ℕ) (l : TaskLocal), w.locals[task]? = some l → l.Faithful := by
  refine h.invariant (I := fun w => ∀ (task : ℕ) (l : TaskLocal), w.locals[task]? = some l →
    l.Faithful) ?_ fun {u action v} hu hF hcalls hstep => ?_
  · rintro w₀ ⟨stack, -, rfl⟩ task l hl
    simp only [World.initial, List.getElem?_map, Option.map_eq_some_iff] at hl
    obtain ⟨spawned, -, rfl⟩ := hl
    exact TaskLocal.faithful_new spawned
  · rcases step_cases hstep with ⟨_, stack, -, -, -, rfl⟩ | ⟨_, _, -, rfl⟩ |
      ⟨task, taskAction, spawned, l, rfl, -, hl, hs⟩
    · intro task l hl
      rcases locals_withStack_cases hl with hl | ⟨-, spawned, -, rfl⟩
      · exact hF task l hl
      · exact TaskLocal.faithful_new spawned
    · exact hF
    · obtain ⟨next, hlocal, hlocals, -, -⟩ := stepTask_cases hs
      intro other l' hl'
      rw [hlocals, List.getElem?_set] at hl'
      split_ifs at hl'
      · cases hl'
        exact (hF task l hl).step (localStep_of_step hlocal) hcalls
      · exact hF other l' hl'

/-- The status in the cell is final. -/
def CellConcluded (w : World) (cell : ℕ) : Prop :=
  ∀ c, w.stack.cells[cell]? = some c → c.status.Concluded

/-- Some task is in debt. -/
def InDebt (w : World) (P : Task → TaskLocal → Prop) : Prop :=
  ∃ (task : ℕ) (spawned : Task) (l : TaskLocal), w.stack.tasks[task]? = some spawned ∧
    w.locals[task]? = some l ∧ P spawned l

/-- What is not final is owed by some task. -/
structure Covered (w : World) : Prop where
  cells : ∀ {task : ℕ} {spawned : Task}, w.stack.tasks[task]? = some spawned →
    w.CellConcluded spawned.shared ∨
      w.InDebt fun other l => other.shared = spawned.shared ∧ l.Owes
  events : ∀ name, Conclusive (w.stack.eventsOf name) ∨
    w.InDebt fun other l => other.service.name = name ∧ l.RelayOwes TaskLocal.announces

/-- A debt stays when the supervisor takes a step. -/
theorem InDebt.withStack {P : Task → TaskLocal → Prop} (h : w.InDebt P) {stack : Stack}
    (htasks : w.stack.tasks <+: stack.tasks) : (w.withStack stack).InDebt P := by
  obtain ⟨task, spawned, l, hspawned, hl, hP⟩ := h
  refine ⟨task, spawned, l, ?_, ?_, hP⟩
  · exact (Stack.getElem?_of_isPrefix htasks (List.getElem?_eq_some_iff.mp hspawned).1).trans
      hspawned
  · exact (getElem?_withStack (List.getElem?_eq_some_iff.mp hl).1).trans hl

/-- A debt stays when a task takes a step, unless it is the debt of that task and is paid. -/
theorem InDebt.stepTask {P : Task → TaskLocal → Prop} (h : w.InDebt P) (paid : Prop)
    {next : TaskLocal × Option Effect} (hspawned : w.stack.tasks[task]? = some spawned)
    (hl : w.locals[task]? = some l) (htasks : w'.stack.tasks = w.stack.tasks)
    (hlocals : w'.locals = w.locals.set task next.1)
    (hstep : P spawned l → P spawned next.1 ∨ paid) : w'.InDebt P ∨ paid := by
  obtain ⟨other, spawned', l', hspawned', hl', hP⟩ := h
  by_cases he : task = other
  · subst he
    obtain rfl := Option.some.inj (hl.symm.trans hl')
    obtain rfl := Option.some.inj (hspawned.symm.trans hspawned')
    refine (hstep hP).imp_left fun hP => ⟨task, spawned, next.1, ?_, ?_, hP⟩
    · rw [htasks, hspawned]
    · rw [hlocals, List.getElem?_set_self (List.getElem?_eq_some_iff.mp hl).1]
  · refine .inl ⟨other, spawned', l', ?_, ?_, hP⟩
    · rw [htasks, hspawned']
    · rw [hlocals, List.getElem?_set_ne he, hl']

/-- The status of a cell after one of the cells was modified. -/
theorem cell_of_modify {cells : List Cell} {shared cell : ℕ} {change : Cell → Cell}
    {told : DependencyStatus → DependencyStatus} {c' : Cell}
    (hc' : (cells.modify shared change)[cell]? = some c')
    (hchange : ∀ c, cells[shared]? = some c → (change c).status = told c.status) :
    ∃ c, cells[cell]? = some c ∧
      c'.status = if shared = cell then told c.status else c.status := by
  rw [List.getElem?_modify] at hc'
  obtain ⟨c, hc, rfl⟩ := Option.map_eq_some_iff.mp hc'
  refine ⟨c, hc, ?_⟩
  split_ifs with he
  · exact hchange c (he ▸ hc)
  · rfl

/-- What an effect does to a cell. -/
theorem cell_of_perform {effect : Effect} {stack : Stack}
    (h : w.perform task spawned effect = some stack) {cell : ℕ} {c' : Cell}
    (hc' : stack.cells[cell]? = some c') :
    ∃ c, w.stack.cells[cell]? = some c ∧
      c'.status = if spawned.shared = cell then effect.applied c.status else c.status := by
  cases effect with
  | write status =>
    cases h
    exact cell_of_modify hc' fun _ _ => rfl
  | giveUp =>
    obtain ⟨c₀, hc₀, h⟩ := Option.bind_eq_some_iff.mp h
    cases h
    refine cell_of_modify hc' fun c hc => ?_
    rw [Option.some.inj (hc.symm.trans hc₀)]
    rfl
  | store pgid =>
    cases h
    exact cell_of_modify hc' fun _ _ => rfl
  | emit =>
    cases h
    exact ⟨c', hc', (ite_self _).symm⟩
  | report =>
    obtain ⟨_, -, -, rfl⟩ := Stack.finishTask_cases h
    exact ⟨c', hc', (ite_self _).symm⟩

/-- What an effect publishes is about the service of its task. -/
theorem events_of_perform {effect : Effect} {stack : Stack}
    (h : w.perform task spawned effect = some stack) :
    stack.events = w.stack.events ++ effect.emitted.map (ServiceEvent.mk spawned.service.name) := by
  obtain ⟨stackAction, hstep, haction⟩ := perform_cases h
  cases effect with
  | report =>
    subst haction
    obtain ⟨_, -, -, rfl⟩ := Stack.finishTask_cases hstep
    simp [Effect.emitted]
  | giveUp =>
    obtain ⟨_, rfl⟩ := haction
    cases hstep
    simp [Effect.emitted]
  | _ =>
    subst haction
    cases hstep
    simp [Effect.emitted]

/-- What an effect does to the events of a service. -/
theorem eventsOf_of_perform {effect : Effect} {stack : Stack}
    (h : w.perform task spawned effect = some stack) (name : ServiceName) :
    stack.eventsOf name =
      w.stack.eventsOf name ++ if spawned.service.name = name then effect.emitted else [] := by
  rw [Stack.eventsOf_append (events_of_perform h), kinds_filter_mk]

theorem Covered.withStack (h : w.Covered) (hI : w.stack.Inv) (hsettled : w.Settled)
    {stackAction : StackAction} {stack : Stack} (houtside : stackAction.isOutside)
    (hstep : w.stack.step stackAction = some stack) : (w.withStack stack).Covered := by
  obtain ⟨hkept, events, hevents, hwatch⟩ := Stack.keepsCells_of_step hI houtside hstep
  have htasks : w.stack.tasks <+: stack.tasks := hkept.tasks
  -- A task that was just spawned waits, and is in debt for its cell.
  have hnew : ∀ {cell : ℕ}, w.stack.SpawnsOnto stack cell →
      (w.withStack stack).InDebt fun other l => other.shared = cell ∧ l.Owes := by
    rintro cell ⟨task, spawned, hge, htask, hshared⟩
    refine ⟨task, spawned, TaskLocal.new spawned, htask, ?_, hshared, .inl ⟨_, _, rfl⟩⟩
    rw [← hsettled.length_eq] at hge
    rw [World.withStack, List.getElem?_append_right hge, List.getElem?_map, List.getElem?_drop,
      Nat.add_sub_cancel' hge, htask]
    rfl
  constructor
  · intro task spawned hspawned
    by_cases hold : task < w.stack.tasks.length
    · change stack.tasks[task]? = some spawned at hspawned
      rw [Stack.getElem?_of_isPrefix htasks hold] at hspawned
      rcases hkept.cells _ (hI.task_cell hspawned) with hcell | hspawn
      · refine (h.cells hspawned).imp (fun hconcluded c hc => hconcluded c ?_)
          fun hdebt => hdebt.withStack htasks
        exact hcell.symm.trans hc
      · exact .inr (hnew hspawn)
    · exact .inr (hnew ⟨task, spawned, not_lt.mp hold, hspawned, rfl⟩)
  · intro name
    refine (h.events name).imp (fun hconclusive => ?_) fun hdebt => hdebt.withStack htasks
    rw [show (w.withStack stack).stack.eventsOf name = _ from Stack.eventsOf_append hevents name]
    refine Conclusive.append (fun kind hkind => ?_) hconclusive
    obtain ⟨event, hevent, rfl⟩ := List.mem_map.mp hkind
    exact EventKind.isHarmless_of_isWatch (hwatch event (List.mem_filter.mp hevent).1)

/-- The status of a cell stays covered when a task takes a step. -/
theorem Covered.cells_stepTask (h : w.Covered) {taskAction : TaskAction} (hfaithful : l.Faithful)
    (hspawned : w.stack.tasks[task]? = some spawned) (hl : w.locals[task]? = some l)
    (hstep : w.stepTask task spawned l taskAction = some w') {other : ℕ} {spawned' : Task}
    (hother : w.stack.tasks[other]? = some spawned') :
    w'.CellConcluded spawned'.shared ∨
      w'.InDebt fun other l => other.shared = spawned'.shared ∧ l.Owes := by
  obtain ⟨next, hlocal, hlocals, -, heffect⟩ := stepTask_cases hstep
  have hlocalStep := localStep_of_step hlocal
  have htasks := tasks_stepTask hstep
  rcases h.cells hother with hconcluded | hdebt
  · by_cases howes : spawned.shared = spawned'.shared ∧ next.1.Owes
    · refine .inr ⟨task, spawned, next.1, by rw [htasks, hspawned], ?_, howes⟩
      rw [hlocals, List.getElem?_set_self (List.getElem?_eq_some_iff.mp hl).1]
    · left
      intro c' hc'
      split at heffect
      · rename_i effect he
        obtain ⟨c, hc, hstatus⟩ := cell_of_perform heffect hc'
        rw [hstatus]
        split_ifs with hshared
        · cases effect with
          | write status =>
            refine .inr ((hfaithful.write hlocalStep he).resolve_right fun ho => howes ⟨hshared, ho⟩)
          | giveUp => exact .inl rfl
          | _ => exact hconcluded c hc
        · exact hconcluded c hc
      · rw [heffect] at hc'
        exact hconcluded c' hc'
  · refine (hdebt.stepTask (spawned.shared = spawned'.shared ∧ ∃ effect, next.2 = some effect ∧
      ∀ status, (effect.applied status).Concluded) hspawned hl htasks hlocals ?_).symm.imp_left ?_
    · rintro ⟨hshared, howes⟩
      rcases howes.step hfaithful hlocalStep with howes | he | ⟨status, he, hterminal⟩
      · exact .inl ⟨hshared, howes⟩
      · exact .inr ⟨hshared, _, he, fun _ => .inl rfl⟩
      · exact .inr ⟨hshared, _, he, fun _ => .inr hterminal⟩
    · rintro ⟨hshared, effect, he, hfinal⟩ c' hc'
      rw [he] at heffect
      obtain ⟨c, hc, hstatus⟩ := cell_of_perform heffect hc'
      rw [hstatus, if_pos hshared]
      exact hfinal _

/-- What was published about a service stays covered when a task takes a step. -/
theorem Covered.events_stepTask (h : w.Covered) {taskAction : TaskAction} (hfaithful : l.Faithful)
    (hspawned : w.stack.tasks[task]? = some spawned) (hl : w.locals[task]? = some l)
    (hstep : w.stepTask task spawned l taskAction = some w') (name : ServiceName) :
    Conclusive (w'.stack.eventsOf name) ∨
      w'.InDebt fun other l => other.service.name = name ∧ l.RelayOwes TaskLocal.announces := by
  obtain ⟨next, hlocal, hlocals, -, heffect⟩ := stepTask_cases hstep
  have hlocalStep := localStep_of_step hlocal
  have htasks := tasks_stepTask hstep
  have hevents : w'.stack.eventsOf name = w.stack.eventsOf name ++
      if spawned.service.name = name then next.2.toList.flatMap Effect.emitted else [] := by
    split at heffect
    · rename_i effect he
      rw [eventsOf_of_perform heffect, he, Option.toList_some, List.flatMap_singleton]
    · rename_i he
      rw [heffect, he]
      simp
  rcases h.events name with hconclusive | hdebt
  · by_cases hquiet : spawned.service.name = name ∧ ∃ kind, next.2 = some (.emit kind)
    · obtain ⟨hname, kind, he⟩ := hquiet
      rcases hfaithful.emit hlocalStep he with hharmless | howes
      · left
        rw [hevents, if_pos hname, he]
        exact hconclusive.concat hharmless
      · refine .inr ⟨task, spawned, next.1, by rw [htasks, hspawned], ?_, hname, howes _⟩
        rw [hlocals, List.getElem?_set_self (List.getElem?_eq_some_iff.mp hl).1]
    · left
      have hnone : (if spawned.service.name = name then next.2.toList.flatMap Effect.emitted
          else []) = [] := by
        split_ifs with hname
        · refine List.flatMap_eq_nil_iff.mpr fun effect he => ?_
          cases effect with
          | emit kind => exact absurd ⟨hname, kind, Option.mem_toList.mp he⟩ hquiet
          | _ => rfl
        · rfl
      rw [hevents, hnone, List.append_nil]
      exact hconclusive
  · refine (hdebt.stepTask (Conclusive (w'.stack.eventsOf name)) hspawned hl htasks hlocals
      ?_).symm
    rintro ⟨hname, howes⟩
    have hannounced : ∀ {tracker : DependencyStatus} {event : EventKind},
        (tracker.observe event).state ≠ tracker.state →
          ∃ effect ∈ TaskLocal.relayEffects tracker event, TaskLocal.announces effect := by
      intro tracker event hstate
      obtain ⟨state, hmem⟩ := (relayEffects_of_state_ne hstate).2
      exact ⟨_, hmem, state, rfl⟩
    rcases howes.step hfaithful hannounced hlocalStep with
      howes | ⟨_, tracker, he, ⟨state, rfl⟩, rfl, hterminal⟩
    · exact .inl ⟨hname, howes⟩
    · right
      rw [hevents, if_pos hname, he]
      exact conclusive_state _ hterminal

theorem Covered.stepTask (h : w.Covered) {taskAction : TaskAction} (hfaithful : l.Faithful)
    (hspawned : w.stack.tasks[task]? = some spawned) (hl : w.locals[task]? = some l)
    (hstep : w.stepTask task spawned l taskAction = some w') : w'.Covered where
  cells hother :=
    h.cells_stepTask hfaithful hspawned hl hstep (tasks_stepTask hstep ▸ hother)
  events := h.events_stepTask hfaithful hspawned hl hstep

theorem covered_of_reachable (h : worldSystem.Reachable CallsSucceed w) : w.Covered := by
  refine h.invariant (I := Covered) ?_ fun {u action v} hu hC hcalls hstep => ?_
  · rintro w₀ ⟨stack, hinit, rfl⟩
    have hnew : ∀ {task : ℕ} {spawned : Task}, stack.tasks[task]? = some spawned →
        (World.initial stack).locals[task]? = some (TaskLocal.new spawned) := fun hspawned => by
      rw [World.initial, List.getElem?_map, hspawned, Option.map_some]
    constructor
    · intro task spawned hspawned
      exact .inr ⟨task, spawned, _, hspawned, hnew hspawned, rfl, .inl ⟨_, _, rfl⟩⟩
    · intro name
      obtain ⟨options, config, plan, stopped, rfl⟩ := hinit
      refine .inl (Conclusive.append (fun kind hkind => ?_) conclusive_nil)
      obtain ⟨event, hevent, rfl⟩ := List.mem_map.mp hkind
      rw [Stack.events_initial _ (List.mem_filter.mp hevent).1]
      rfl
  · rcases step_cases hstep with ⟨stackAction, stack, rfl, houtside, hs, rfl⟩ | ⟨_, _, -, rfl⟩ |
      ⟨task, taskAction, spawned, l, -, hspawned, hl, hs⟩
    · exact hC.withStack (inv_of_reachable hu) (settled_of_reachable hu) houtside hs
    · exact ⟨hC.cells, hC.events⟩
    · exact hC.stepTask (faithful_of_reachable hu task l hl) hspawned hl hs

/-- **A task leaves order behind**, in every run in which no system call on the process of a service
fails. -/
theorem leavesOrder_of_reachable (h : worldSystem.Reachable CallsSucceed w) : w.LeavesOrder := by
  have hcovered := covered_of_reachable h
  -- No task of a service without a live one is in debt, once it was relayed.
  have hpaid : ∀ {name : ServiceName}, w.stack.live name = none → w.Relayed name →
      ∀ {task : ℕ} {spawned : Task} {l : TaskLocal}, w.stack.tasks[task]? = some spawned →
        spawned.service.name = name → w.locals[task]? = some l →
        ∀ kind : Effect → Prop, ¬ l.RelayOwes kind ∧ ¬ l.Owes := by
    intro name hlive hrelayed task spawned l hspawned hname hl kind
    have hfinished : task ∈ w.stack.finished := by
      by_contra hnot
      have hlive' := (inv_of_reachable h).live_iff.mpr ⟨spawned, hspawned, hname, .inl hnot⟩
      rw [hlive] at hlive'
      cases hlive'
    exact (faithful_of_reachable h task l hl).not_owes
      (((settled_of_reachable h).settled hl).ended hfinished)
      (hrelayed task spawned l hspawned hname hl)
  constructor
  case status =>
    intro task spawned cell hspawned hlive hrelayed hcell condition
    rcases hcovered.cells hspawned with hconcluded | ⟨other, spawned', l, hother, hl, hshared, howes⟩
    · exact (hconcluded cell hcell).readiness condition
    · have hname := (inv_of_reachable h).task_cell_task hother hspawned hshared
      have hnone := hpaid hlive hrelayed hother hname hl (fun _ => True)
      exact absurd howes hnone.2
  case entry =>
    intro name registry hasHealth events entry hlive hrelayed hnew hsuffix hentry
    rw [StatusRegistry.getElem?_applyAll, hnew, Option.map_some] at hentry
    cases hentry
    rcases hcovered.events name with hconclusive | ⟨other, spawned', l, hother, hl, hname, howes⟩
    · refine hconclusive _ ?_ hasHealth
      have hmap : (StatusRegistry.eventsOf events name).map Prod.snd =
          ((events.map Prod.snd).filter fun event => event.service = name).map ServiceEvent.kind := by
        simp [StatusRegistry.eventsOf, List.filter_map, Function.comp_def]
      rw [hmap]
      exact (hsuffix.filter _).map _
    · exact absurd howes (hpaid hlive hrelayed hother hname hl _).1

/-! ### Two ways out -/

/-- The service runs, and its process is up. -/
def upSteps : List WorldAction :=
  .task 0 .look :: runSteps 0 (startProcess 100) ++ relaySteps 0 [2, 2, 2]

/-- The service is stopped on request. -/
def orderlySteps : List WorldAction :=
  upSteps ++ [.stack (.submit (.stop ⟨"db"⟩ 0)), .stack .control] ++
    runSteps 0 (stopProcess ++ [.monitor 0 .close]) ++ relaySteps 0 [1, 2, 2, 2] ++
    [.task 0 .close] ++ reportSteps 0 true

/-- The wait for the process fails. -/
def brokenSteps : List WorldAction :=
  upSteps ++ runSteps 0 [.runner (.wait (.error ⟨.other, "No child processes"⟩)),
      .runner .return, .readerEnds, .readerEnds, .monitor 0 .close] ++
    [.task 0 .close, .task 0 (.wrapUp true), .task 0 .conclude, .task 0 .conclude,
      .task 0 .conclude, .stack .report]

/-- Evaluates what is relayed: every relay has ended. -/
theorem relayed_of_all (h : w.locals.all fun l => l.relay.isNone) (name : ServiceName) :
    w.Relayed name := by
  intro task spawned l _ _ hl effects heffects
  have hnone := List.all_eq_true.mp h l (List.mem_of_getElem? hl)
  simp [heffects] at hnone

theorem leavesOrder_orderly : ∃ w, worldSystem.run probedWorld orderlySteps = some w ∧
    w.stack.tasks.length = 1 ∧ w.stack.live ⟨"db"⟩ = none ∧ w.LeavesOrder := by
  have hrun : ((worldSystem.run probedWorld orderlySteps).map fun w =>
      decide (w.stack.tasks.length = 1 ∧ w.stack.live ⟨"db"⟩ = none)) = some true := by
    decide +kernel
  obtain ⟨w, hw, hfacts⟩ := Option.map_eq_some_iff.mp hrun
  obtain ⟨htasks, hlive⟩ := of_decide_eq_true hfacts
  have hcalls : ∀ action ∈ orderlySteps, action.losesProcess = false := by decide +kernel
  refine ⟨w, hw, htasks, hlive, leavesOrder_of_reachable ⟨_, init_probedWorld, ?_⟩⟩
  exact TransitionSystem.steps_of_run_of_forall (fun a ha _ _ => hcalls a ha) hw

/-- The service has failed and has no task any more, but dependents start against it. -/
theorem failedWait_stays_running : ¬ ∀ w, worldSystem.Reachable AnyStep w → w.LeavesOrder := by
  intro hall
  have hrun : ((worldSystem.run probedWorld brokenSteps).bind fun w =>
      w.stack.tasks[0]?.bind fun spawned => w.stack.cells[spawned.shared]?.map fun cell =>
        decide (w.stack.live spawned.service.name = none ∧
          (w.locals.all fun l => l.relay.isNone) ∧
          cell.status.readiness .serviceStarted = .ready ∧ cell.status.state = .running)) =
      some true := by decide +kernel
  obtain ⟨w, hw, hrun⟩ := Option.bind_eq_some_iff.mp hrun
  obtain ⟨spawned, hspawned, hrun⟩ := Option.bind_eq_some_iff.mp hrun
  obtain ⟨cell, hcell, hfacts⟩ := Option.map_eq_some_iff.mp hrun
  obtain ⟨hlive, hrelays, hready⟩ := of_decide_eq_true hfacts
  have hreach : worldSystem.Reachable AnyStep w :=
    ⟨_, init_probedWorld, TransitionSystem.steps_of_run hw⟩
  have horder := (hall w hreach).status hspawned hlive (relayed_of_all hrelays _) hcell
  exact (horder .serviceStarted).2 hready

end World

end Servicrab
