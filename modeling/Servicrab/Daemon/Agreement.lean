import Servicrab.Daemon.HeldBack
import Servicrab.Daemon.Overview
import Servicrab.Tasks.Told

/-!
# Two judgements on a service

A client of the daemon judges by the registry whether a service is ready, the supervisor by the
status in its slot. The two agree whenever everything that was published has been folded in by both,
in every run in which nothing comes between them: no task gives up before its service has run, a
status is wiped only once the earlier tasks are over, and no process is announced to have exited well
after it was stopped as unhealthy.

A status that is wiped while the client does not wait for the service, as it was stopped or has
failed, is ahead of the entry until the new run is heard of. From then on the two agree again, as long
as it is wiped only while the client waits in any case.

The invariant is that the entry, brought up to date with what is still to be collected, is attuned to
the status, brought up to date with what is still to be relayed.

## Main definitions

* `Stack.Opening`: what is published as the supervisor starts.
* `Overview.Heard`: the invariant.

## Main results

* `Overview.Heard.step`, `Overview.readiness_agrees`.
-/

open Std (ExtTreeMap)
open TransitionSystem (AnyStep)

namespace Servicrab

/-! ### The start -/

namespace Stack

variable {w : Stack} {name : ServiceName} {stopped : Finset ServiceName}

/-- What the start of the planned services has published so far: the services that are held back are
stopped, and nothing is said about the others. -/
structure Opening (stopped : Finset ServiceName) (w : Stack) : Prop where
  cell_inj : ∀ {name₁ name₂ : ServiceName} {slot₁ slot₂ : Slot}, w.slots[name₁]? = some slot₁ →
    w.slots[name₂]? = some slot₂ → slot₁.shared = slot₂.shared → name₁ = name₂
  events : ∀ event ∈ w.events, event.service ∈ stopped ∧ event.kind = .state .stopped
  told : ∀ {name : ServiceName} {slot : Slot} {cell : Cell}, w.slots[name]? = some slot →
    w.cells[slot.shared]? = some cell →
    cell.status = .new ∧ (∀ event ∈ w.events, event.service ≠ name) ∨
      cell.status = { DependencyStatus.new with state := .stopped } ∧
        ∃ event ∈ w.events, event.service = name

theorem Opening.publishStopped (h : w.Opening stopped) (hname : name ∈ stopped) :
    (w.publishStopped name).Opening stopped := by
  unfold Stack.publishStopped
  split
  · exact h
  · rename_i slot hs
    refine ⟨h.cell_inj, fun event hmem => ?_, fun {other s c'} hother hc' => ?_⟩
    · rcases List.mem_append.mp hmem with hmem | hmem
      · exact h.events event hmem
      · rw [List.mem_singleton.mp hmem]
        exact ⟨hname, rfl⟩
    · rw [List.getElem?_modify] at hc'
      obtain ⟨c, hc, rfl⟩ := Option.map_eq_some_iff.mp hc'
      by_cases he : slot.shared = s.shared
      · obtain rfl := h.cell_inj hs hother he
        right
        refine ⟨?_, ⟨name, .state .stopped⟩, by simp, rfl⟩
        rw [if_pos he]
      · rw [if_neg he]
        have hne : name ≠ other := by
          rintro rfl
          exact he (congrArg Slot.shared (Option.some.inj (hs.symm.trans hother)))
        refine (h.told hother hc).imp (And.imp_right fun hnot event hmem => ?_)
          (And.imp_right fun ⟨event, hmem, hevent⟩ => ⟨event, List.mem_append_left _ hmem, hevent⟩)
        rcases List.mem_append.mp hmem with hmem | hmem
        · exact hnot event hmem
        · rw [List.mem_singleton.mp hmem]
          exact hne

theorem Opening.spawn (h : w.Opening stopped) (hname : name ∉ stopped) {slot : Slot}
    (hs : w.slots[name]? = some slot) : (w.spawn name slot).Opening stopped := by
  refine ⟨fun h₁ h₂ he => ?_, h.events, fun {other s c'} hother hc' => ?_⟩
  · obtain ⟨_, hs₁, hshared₁⟩ := exists_slot_of_spawn hs h₁
    obtain ⟨_, hs₂, hshared₂⟩ := exists_slot_of_spawn hs h₂
    exact h.cell_inj hs₁ hs₂ (hshared₁.trans (he.trans hshared₂.symm))
  · obtain ⟨s₀, hs₀, hshared⟩ := exists_slot_of_spawn hs hother
    simp only [Stack.spawn, List.getElem?_modify] at hc'
    obtain ⟨c, hc, rfl⟩ := Option.map_eq_some_iff.mp hc'
    by_cases he : slot.shared = s.shared
    · obtain rfl := h.cell_inj hs hs₀ (he.trans hshared.symm)
      left
      refine ⟨by rw [if_pos he], fun event hmem heq => hname ?_⟩
      exact heq ▸ (h.events event hmem).1
    · rw [if_neg he]
      exact h.told hs₀ (hshared ▸ hc)

/-- The books of the supervisor as it enters its loop. -/
theorem opening_initial (options : StackOptions) (config : ValidConfig) (plan : StartPlan config.1)
    (stopped : Finset ServiceName) :
    (Stack.initial options config plan.1 stopped).Opening stopped := by
  let w := plan.1.foldl insertPlanned (Stack.empty options config plan.1)
  have hI : w.rewireDependencies.Inv := (Inv.insertAll options config plan).1.rewireDependencies
  have hfresh : w.events = [] ∧ ∀ cell ∈ w.cells, cell.status = .new := by
    refine List.foldlRecOn (motive := fun w : Stack => w.events = [] ∧
      ∀ cell ∈ w.cells, cell.status = .new) plan.1 insertPlanned ⟨rfl, by simp [Stack.empty]⟩
      fun s hs name _ => ?_
    unfold insertPlanned
    split
    · rw [insertSlot, debugAssert_eq]
      refine ⟨hs.1, fun cell hmem => ?_⟩
      rcases List.mem_append.mp hmem with hmem | hmem
      · exact hs.2 cell hmem
      · rw [List.mem_singleton.mp hmem]
    · exact hs
  have hstart : w.rewireDependencies.Opening stopped := by
    refine ⟨hI.slot_cell_inj, fun event hmem => ?_, fun {_ _ cell} _ hc => .inl ⟨?_, ?_⟩⟩
    · rw [show w.rewireDependencies.events = [] from hfresh.1] at hmem
      cases hmem
    · exact hfresh.2 cell (List.mem_of_getElem? hc)
    · rw [show w.rewireDependencies.events = [] from hfresh.1]
      simp
  refine List.foldlRecOn (motive := Opening stopped) plan.1 (startService · stopped) hstart
    fun s hs name _ => ?_
  unfold startService
  split_ifs with hname
  · exact hs.publishStopped hname
  · split
    · rename_i slot hslot
      exact hs.spawn hname hslot
    · exact hs

end Stack

/-! ### The invariant -/

namespace Overview

variable {o o' u : Overview} {name : ServiceName} {declared : Bool} {lags : Prop}
  {action : OverviewAction}

/-- Both sides have heard the same of a service, up to what is still to be collected or relayed, and
to where the entry may lag behind. -/
structure Heard (name : ServiceName) (declared : Bool) (lags : Prop) (o : Overview) : Prop where
  collected_le : o.collected ≤ o.world.stack.events.length
  knows : o.world.stack.Knows (Declares name declared)
  verdicts : ∀ event ∈ o.world.stack.events, event.service = name → event.kind.isHealthVerdict →
    declared
  fits : ∀ (task : ℕ) (spawned : Task) (l : TaskLocal), o.world.stack.tasks[task]? = some spawned →
    spawned.service.name = name → o.world.locals[task]? = some l → l.Fits spawned.service
  health_iff : ∀ outlook, o.outlook name = some outlook →
    (outlook.health = .none ↔ declared = false)
  tuned : o.world.Tuned name lags (o.outlook name)

/-- A task of the service declares what all its definitions declare. -/
theorem Heard.declared_eq (h : o.Heard name declared lags) {task : ℕ} {spawned : Task}
    (htask : o.world.stack.tasks[task]? = some spawned) (hname : spawned.service.name = name) :
    spawned.service.health.isSome = declared :=
  h.knows.tasks spawned (List.mem_of_getElem? htask) hname

/-- Something is published, and known at once. -/
theorem Heard.publish (h : o.Heard name declared lags) {world : World} {events : List ServiceEvent}
    (hevents : world.stack.events = o.world.stack.events ++ events)
    (hverdicts : ∀ event ∈ events, event.service = name → event.kind.isHealthVerdict → declared)
    (hknows : world.stack.Knows (Declares name declared))
    (hfits : ∀ (task : ℕ) (spawned : Task) (l : TaskLocal),
      world.stack.tasks[task]? = some spawned → spawned.service.name = name →
      world.locals[task]? = some l → l.Fits spawned.service)
    (htuned : world.Tuned name lags
      ((o.outlook name).map fun outlook => outlook.observeAll name events)) :
    Heard name declared lags { o with world := world } := by
  have houtlook := outlook_world (o := o) hevents h.collected_le name
  refine ⟨?_, hknows, fun event hmem => ?_, hfits, fun outlook he => ?_, houtlook ▸ htuned⟩
  · change o.collected ≤ world.stack.events.length
    rw [hevents, List.length_append]
    exact h.collected_le.trans (Nat.le_add_right _ _)
  · change event ∈ world.stack.events at hmem
    rw [hevents] at hmem
    rcases List.mem_append.mp hmem with hmem | hmem
    · exact h.verdicts event hmem
    · exact hverdicts event hmem
  · rw [houtlook] at he
    obtain ⟨before, hbefore, rfl⟩ := Option.map_eq_some_iff.mp he
    exact Outlook.health_observeAll_eq_none hverdicts (h.health_iff before hbefore)

/-- Watch events say nothing about the state or the health of a service. -/
theorem observeAll_of_isWatch {events : List ServiceEvent}
    (h : ∀ event ∈ events, event.kind.isWatch) (outlook : Outlook) :
    outlook.observeAll name events = outlook := by
  induction events generalizing outlook with
  | nil => rfl
  | cons event events ih =>
    rw [Outlook.observeAll_cons, ih fun e he => h e (List.mem_cons_of_mem _ he)]
    refine ite_eq_right_iff.mpr fun _ => ?_
    have hwatch := h event List.mem_cons_self
    cases hkind : event.kind <;> first | rfl | simp [hkind, EventKind.isWatch] at hwatch

/-- A step of the supervisor or its surroundings. -/
theorem Heard.stepStack (h : o.Heard name declared lags) (hI : o.world.stack.Inv)
    (hsettled : o.world.Settled) {stackAction : StackAction} {stack : Stack}
    (houtside : stackAction.isOutside) (hstep : o.world.stack.step stackAction = some stack)
    (hguard : Undisturbed name declared o (.world (.stack stackAction))
      { o with world := o.world.withStack stack })
    (hrenewed : lags ∨ RenewedInTime name o (.world (.stack stackAction))
      { o with world := o.world.withStack stack }) :
    Heard name declared lags { o with world := o.world.withStack stack } := by
  obtain ⟨hkept, events, hevents, hwatch⟩ := Stack.keepsCells_of_step hI houtside hstep
  have hobserve : (o.outlook name).map (fun outlook => outlook.observeAll name events) =
      o.outlook name := by
    simp only [observeAll_of_isWatch hwatch, Option.map_id']
  have hevents' : (o.world.withStack stack).stack.events = o.world.stack.events ++ events := hevents
  refine h.publish hevents' ?_ ?_ ?_ ?_
  · intro event hmem _ hverdict
    have hkind := hwatch event hmem
    cases hk : event.kind <;> simp [hk, EventKind.isWatch, EventKind.isHealthVerdict] at hkind hverdict
  · refine h.knows.step hI ?_ hstep
    rintro command rfl
    exact hguard.same
  · intro task spawned l htask hname hl
    rcases World.locals_withStack_cases hl with hl | ⟨-, spawned', -, rfl⟩
    · have hlt := hsettled.length_eq ▸ (List.getElem?_eq_some_iff.mp hl).1
      have hold := (Stack.getElem?_of_isPrefix hkept.tasks hlt).symm.trans htask
      exact h.fits task spawned l hold hname hl
    · exact TaskLocal.fits_new spawned' spawned.service
  · rw [hobserve]
    refine h.tuned.withStack hsettled hI houtside hstep fun slot hs hrenews => ⟨?_, ?_⟩
    · exact fun outlook he => hrenewed.imp_right fun hwaits => hwaits slot hs hrenews outlook he
    · exact hguard.renewed slot hs hrenews

/-- What a task does leaves the services as they are. -/
theorem knows_stepTask {P : Service → Prop} {w w' : World} (h : w.stack.Knows P) (hI : w.stack.Inv)
    {task : ℕ} {spawned : Task} {l : TaskLocal} {taskAction : TaskAction}
    (hstep : w.stepTask task spawned l taskAction = some w') : w'.stack.Knows P := by
  obtain ⟨next, -, -, -, heffect⟩ := World.stepTask_cases hstep
  split at heffect
  · rename_i effect _
    obtain ⟨stackAction, hstack, haction⟩ := World.perform_cases heffect
    refine h.step hI ?_ hstack
    rintro command rfl
    cases effect <;> simp at haction
  · rw [heffect]
    exact h

/-- A step of a task. -/
theorem Heard.stepTask (h : o.Heard name declared lags) (hI : o.world.stack.Inv) {task : ℕ}
    {spawned : Task} {l : TaskLocal} {taskAction : TaskAction} {world : World}
    (htask : o.world.stack.tasks[task]? = some spawned) (hl : o.world.locals[task]? = some l)
    (hstep : o.world.stepTask task spawned l taskAction = some world)
    (hguard : Undisturbed name declared o (.world (.task task taskAction))
      { o with world := world }) : Heard name declared lags { o with world := world } := by
  obtain ⟨next, hnext⟩ := World.exists_taskStep hstep
  have hhears (hname : spawned.service.name = name) :
      TaskLocal.Hears declared l taskAction next :=
    h.declared_eq htask hname ▸ (h.fits task spawned l htask hname hl).hears hnext.localStep
  refine h.publish hnext.events_eq ?_ (knows_stepTask h.knows hI hstep) ?_ ?_
  · intro event hmem hname hverdict
    obtain ⟨kind, hkind, rfl⟩ := List.mem_map.mp hmem
    have hfits := h.fits task spawned l htask hname hl
    rw [← h.declared_eq htask hname]
    exact hfits.verdict (hfits.hears hnext.localStep) hkind hverdict
  · intro other spawned' l' htask' hname hl'
    rw [hnext.tasks_eq] at htask'
    rw [hnext.locals_eq, List.getElem?_set] at hl'
    split_ifs at hl' with he hlt
    · subst he
      cases hl'
      obtain rfl := Option.some.inj (htask.symm.trans htask')
      refine (h.fits task spawned l htask hname hl).step hnext.localStep ?_
      rintro run run' runAction rfl hrun
      exact hguard.stands task spawned l run run' runAction rfl htask hname hl hrun
    · exact h.fits other spawned' l' htask' hname hl'
  · refine h.tuned.taskStep hI hnext htask hl hhears ?_
    rintro hname rfl rest
    exact hguard.keeps_on task spawned l rest rfl htask hname hl

/-- What a configuration declares for a service that it has. -/
theorem hasHealth_eq {config : ValidConfig} (h : config.1.Each (Declares name declared))
    {service : Service} (hservice : config.1.services[name]? = some service) :
    config.1.hasHealth name = declared := by
  rw [Config.hasHealth, hservice]
  exact h name service hservice (config.2.name_eq hservice)

/-- The registry is pointed at a plan. -/
theorem Heard.sync (h : o.Heard name declared lags) {config : ValidConfig} {names : List ServiceName}
    (hguard : Undisturbed name declared o (.sync config names)
      { o with registry := syncRegistry o.registry config.1 names }) :
    Heard name declared lags { o with registry := syncRegistry o.registry config.1 names } := by
  refine ⟨h.collected_le, h.knows, h.verdicts, h.fits, fun outlook he => ?_,
    fun slot cell hs hc => ?_⟩
  · obtain ⟨hname, he | ⟨hnone, rfl⟩⟩ := outlook_sync he
    · exact h.health_iff outlook he
    · obtain ⟨-, hconfigured⟩ := hguard.entries config names rfl hname hnone
      obtain ⟨service, hservice⟩ :=
        Option.isSome_iff_exists.mp (ExtTreeMap.mem_iff_isSome_getElem?.mp hconfigured)
      refine Outlook.health_observeAll_eq_none (fun event hmem => ?_) ?_
      · exact h.verdicts event (List.mem_of_mem_drop hmem)
      · rw [← hasHealth_eq hguard.same hservice]
        exact StatusEntry.health_new_eq_none _
  · obtain ⟨status, word, effects, hvoice, hstatus, hattuned⟩ := h.tuned slot cell hs hc
    refine ⟨status, word, effects, hvoice, hstatus, fun outlook he => ?_⟩
    obtain ⟨hname, he | ⟨hnone, rfl⟩⟩ := outlook_sync he
    · exact hattuned outlook he
    · rw [(hguard.entries config names rfl hname hnone).1] at hs
      cases hs

/-- Both sides keep up with each other as long as nothing comes between them. -/
theorem Heard.step (h : o.Heard name declared lags) (hreach : worldSystem.Reachable AnyStep o.world)
    (hguard : Undisturbed name declared o action o')
    (hrenewed : lags ∨ RenewedInTime name o action o') (hstep : o.step action = some o') :
    o'.Heard name declared lags := by
  have hI := World.inv_of_reachable hreach
  cases action with
  | world action =>
    obtain ⟨world, hworld, rfl⟩ := Option.map_eq_some_iff.mp hstep
    rcases World.step_cases hworld with ⟨_, stack, rfl, houtside, hs, rfl⟩ | ⟨_, _, -, rfl⟩ |
      ⟨_, _, spawned, l, rfl, htask, hl, hs⟩
    · exact h.stepStack hI (World.settled_of_reachable hreach) houtside hs hguard hrenewed
    · exact ⟨h.collected_le, h.knows, h.verdicts, h.fits, h.health_iff, h.tuned.congr rfl rfl⟩
    · exact h.stepTask hI htask hl hs hguard
  | collect now =>
    have houtlook := outlook_collect hstep name
    obtain ⟨event, hevent, rfl⟩ := Option.map_eq_some_iff.mp hstep
    refine ⟨(List.getElem?_eq_some_iff.mp hevent).1, h.knows, h.verdicts, h.fits, ?_, ?_⟩
    · rw [houtlook]
      exact h.health_iff
    · rw [houtlook]
      exact h.tuned
  | sync config names =>
    cases hstep
    exact h.sync hguard

/-! ### The start of the daemon -/

section Initial

variable {options : StackOptions} {config : ValidConfig} {plan : StartPlan config.1}
  {stopped : Finset ServiceName}

/-- The entry that is made for a planned service. -/
theorem outlook_initial {outlook : Outlook}
    (h : (Overview.initial options config plan stopped).outlook name = some outlook) :
    name ∈ plan.1 ∧ outlook = (StatusEntry.new (config.1.hasHealth name)).outlook.observeAll name
      (Stack.initial options config plan.1 stopped).events := by
  simp only [Overview.outlook, Overview.initial, initialRegistry, StatusRegistry.getElem?_new] at h
  split_ifs at h with hname
  · exact ⟨hname, (Option.some.inj h).symm⟩
  · cases h

/-- A service is stopped after events that say that services are, if one of them is about it. -/
theorem observeAll_stopped {events : List ServiceEvent}
    (h : ∀ event ∈ events, event.kind = .state .stopped) (outlook : Outlook) :
    outlook.observeAll name events =
      if ∃ event ∈ events, event.service = name then ⟨.stopped, outlook.health⟩ else outlook := by
  induction events generalizing outlook with
  | nil => simp [Outlook.observeAll]
  | cons event events ih =>
    rw [Outlook.observeAll_cons, ih (fun e he => h e (List.mem_cons_of_mem _ he)),
      h event List.mem_cons_self]
    by_cases he : event.service = name
    · simp [he, Outlook.observe]
    · simp [he]

/-- Nobody has heard more than the other as the daemon starts. -/
theorem heard_initial (hdeclared : config.1.Each (Declares name declared)) :
    (Overview.initial options config plan stopped).Heard name declared lags := by
  have hopening := Stack.opening_initial options config plan stopped
  have hkinds : ∀ event ∈ (Stack.initial options config plan.1 stopped).events,
      event.kind = .state .stopped := fun event hmem => (hopening.events event hmem).2
  have hI := Stack.Inv.initial options config plan stopped
  have hfinished := (Stack.logs_initial options config plan stopped).1
  refine ⟨Nat.zero_le _, Stack.knows_initial options config plan.1 stopped hdeclared,
    fun event hmem _ hverdict => ?_, fun task spawned l htask _ hl => ?_, fun outlook he => ?_,
    fun slot cell hs hc => ?_⟩
  · rw [hkinds event hmem] at hverdict
    cases hverdict
  · simp only [Overview.initial, World.initial, List.getElem?_map] at hl
    obtain ⟨_, -, rfl⟩ := Option.map_eq_some_iff.mp hl
    exact TaskLocal.fits_new _ _
  · obtain ⟨hname, rfl⟩ := outlook_initial he
    obtain ⟨service, hservice, -⟩ := plan.exists_service hname
    refine Outlook.health_observeAll_eq_none (fun event hmem _ hverdict => ?_) ?_
    · rw [hkinds event hmem] at hverdict
      cases hverdict
    · rw [← hasHealth_eq hdeclared hservice]
      exact StatusEntry.health_new_eq_none _
  · rcases hopening.told hs hc with ⟨hstatus, hsilent⟩ | ⟨hstatus, event, hmem, hevent⟩
    · -- Only the task that was spawned for the slot is there, if any.
      obtain ⟨word, hvoice⟩ : ∃ word, World.Voice (Overview.initial options config plan stopped).world
          name slot.shared .new word [] := by
        refine World.exists_voice_new fun task spawned l htask hname hl => .inr ?_
        obtain ⟨slot', hs', hhandle⟩ := Stack.exists_slot_of_live
          (hI.live_iff.mpr ⟨spawned, htask, hname, .inl (by simp [hfinished])⟩)
        obtain rfl := Option.some.inj (hs.symm.trans hs')
        refine ⟨hhandle, hI.live_cell hs hhandle htask, ?_⟩
        have htask' : (Stack.initial options config plan.1 stopped).tasks[task]? = some spawned :=
          htask
        simp only [Overview.initial, World.initial, List.getElem?_map, htask', Option.map_some] at hl
        exact (Option.some.inj hl).symm
      refine ⟨_, _, _, hvoice, hstatus, fun outlook he => .waiting rfl rfl (.inr ?_)⟩
      obtain ⟨-, rfl⟩ := outlook_initial he
      rw [observeAll_stopped hkinds, if_neg (by simpa using hsilent)]
      rfl
    · -- A service that is held back has no task.
      have hpast (task : ℕ) : (Overview.initial options config plan stopped).world.Past name task := by
        intro spawned l htask hname hl
        have hnot := (boot_initial.task spawned (List.mem_of_getElem? htask)).2
        exact absurd (hname ▸ hevent ▸ (hopening.events event hmem).1) hnot
      refine ⟨_, .none, _, .nobody hpast, hstatus, fun outlook he => ?_⟩
      obtain ⟨-, rfl⟩ := outlook_initial he
      refine .ended rfl ?_ (.inl rfl)
      exact congrArg Outlook.state
        ((observeAll_stopped hkinds _).trans (if_pos ⟨event, hmem, hevent⟩))

/-- The supervisor goes through a run of its own. -/
theorem world_reachable {C : Overview → OverviewAction → Overview → Prop}
    (h : overviewSystem.Steps C (Overview.initial options config plan stopped) o) :
    worldSystem.Reachable AnyStep o.world := by
  have hinit : worldSystem.init (Overview.initial options config plan stopped).world :=
    ⟨_, ⟨options, config, plan, stopped, rfl⟩, rfl⟩
  refine (TransitionSystem.Reachable.initial hinit).steps (h.map Overview.world ?_)
  intro u action v _ hstep
  cases action with
  | world action =>
    obtain ⟨world, hworld, rfl⟩ := Option.map_eq_some_iff.mp hstep
    exact (TransitionSystem.Steps.refl _).tail (.intro trivial hworld)
  | collect =>
    obtain ⟨_, -, rfl⟩ := Option.map_eq_some_iff.mp hstep
    exact .refl _
  | sync =>
    cases hstep
    exact .refl _

/-- Once both sides have caught up, the entry does not lag behind. -/
theorem Heard.caughtUp (h : o.Heard name declared lags) (hcaught : o.CaughtUp name) :
    o.Heard name declared False where
  collected_le := h.collected_le
  knows := h.knows
  verdicts := h.verdicts
  fits := h.fits
  health_iff := h.health_iff
  tuned := by
    intro slot cell hs hc
    obtain ⟨_, word, effects, hvoice, rfl, hattuned⟩ := h.tuned slot cell hs hc
    obtain rfl : effects = [] := hvoice.effects_eq_nil hcaught.relayed
    exact ⟨_, word, [], hvoice, rfl, fun outlook he =>
      (hattuned outlook he).caughtUp (hcaught.heard slot cell hs hc)⟩

/-- In a run that begins with that of the supervisor, both sides keep up with each other, whether or
not the entry may lag behind. -/
theorem heard_of_steps {C : Overview → OverviewAction → Overview → Prop}
    (hu : overviewSystem.Steps AnyStep (Overview.initial options config plan stopped) u)
    (hheard : u.Heard name declared lags)
    (hC : ∀ o action o', C o action o' →
      Undisturbed name declared o action o' ∧ (lags ∨ RenewedInTime name o action o'))
    (h : overviewSystem.Steps C u o) : o.Heard name declared lags :=
  h.invariant hheard fun hsteps hheard hguard hstep =>
    hheard.step (world_reachable (hu.trans hsteps.anyStep)) (hC _ _ _ hguard).1 (hC _ _ _ hguard).2 hstep

/-- Once everything was folded by both sides, they give the same answer. -/
theorem Heard.agrees (h : o.Heard name declared False) (hI : o.world.stack.Inv)
    (hfolded : o.Folded name) : o.Agrees name := by
  intro slot cell now status hs hc hstatus hname
  obtain ⟨other, -, hfound⟩ := List.mem_filterMap.mp hstatus
  obtain ⟨entry, hentry, rfl⟩ := Option.map_eq_some_iff.mp hfound
  obtain rfl : other = name := hname
  have houtlook := outlook_of_uncollected hentry hfolded.collected
  obtain ⟨_, word, effects, hvoice, rfl, hattuned⟩ := h.tuned slot cell hs hc
  obtain rfl : effects = [] := hvoice.effects_eq_nil hfolded.relayed
  have hdeclared : slot.service.health.isSome = declared := h.knows.slots _ slot hs (hI.slot_name hs)
  have hanswer := (hattuned _ houtlook).readiness_eq (h.health_iff _ houtlook)
  rw [Client.matches_iff, Client.answer_readiness, Dependency.conditionFor, Option.getD_none,
    hdeclared]
  exact hanswer.symm

/-- **The two judgements on a service agree**, in every run in which nothing comes between the status
of the service and its entry: once everything that was published about it is folded by both sides,
the client's answer is that of the supervisor under the default condition. This is so from the start,
and again from every state in which both have caught up with the service, for as long as the service
is started again only while the client waits for it in any case. -/
theorem readiness_agrees (hdeclared : config.1.Each (Declares name declared))
    (hbefore : overviewSystem.Steps (Undisturbed name declared)
      (Overview.initial options config plan stopped) u)
    (hu : u = Overview.initial options config plan stopped ∨ u.CaughtUp name)
    (h : overviewSystem.Steps (fun o action o' => Undisturbed name declared o action o' ∧
      RenewedInTime name o action o') u o) (hfolded : o.Folded name) : o.Agrees name := by
  have hheard : u.Heard name declared False := by
    rcases hu with rfl | hcaught
    · exact heard_initial hdeclared
    · have hlagging : u.Heard name declared True :=
        heard_of_steps (.refl _) (heard_initial hdeclared) (fun _ _ _ hguard => ⟨hguard, .inl trivial⟩)
          hbefore
      exact hlagging.caughtUp hcaught
  have hsteps := hbefore.anyStep
  refine (heard_of_steps hsteps hheard (fun _ _ _ => And.imp_right .inr) h).agrees ?_ hfolded
  exact World.inv_of_reachable (world_reachable (hsteps.trans h.anyStep))

end Initial

/-! ### A service that comes back, and one that never starts -/

/-- Evaluates that a step gives the service neither a task nor a new slot. -/
def leavesSlot (name : ServiceName) (o : Overview) (action : OverviewAction) : Bool :=
  (o.step action).all fun o' =>
    o'.world.stack.tasks.length == o.world.stack.tasks.length &&
      o'.world.stack.slots[name]?.all fun slot => slot.shared < o.world.stack.cells.length

theorem not_renews_of_leavesSlot (h : leavesSlot name o action) (hstep : o.step action = some o')
    {slot : Slot} (hs : o'.world.stack.slots[name]? = some slot) :
    ¬ o.world.stack.Renews o'.world.stack slot.shared := by
  simp only [leavesSlot, hstep, hs, Option.all_some, Bool.and_eq_true, beq_iff_eq,
    decide_eq_true_eq] at h
  rintro (⟨task, spawned, hge, htask, -⟩ | hge)
  · exact absurd (h.1 ▸ (List.getElem?_eq_some_iff.mp htask).1) (not_lt.mpr hge)
  · exact absurd h.2 (not_lt.mpr hge)

/-- Whether the task is about to give up. -/
def givesUp (l : TaskLocal) : Bool :=
  match l.phase with
  | .ending (.giveUp :: _) => true
  | _ => false

/-- Evaluates a guard that is stronger: while a relay is there, no slot is renewed; no task gives up,
and no run is announced to have exited; and there is no reload. -/
def quietly (name : ServiceName) (o : Overview) (action : OverviewAction) : Bool :=
  (leavesSlot name o action || o.world.locals.all fun l => l.relay.isNone) &&
    match action with
    | .world (.task task .conclude) => o.world.locals[task]?.all fun l => !givesUp l
    | .world (.task task (.run .publish)) => (o.world.locals[task]?.bind TaskLocal.run).all fun run =>
      run.runner.outbox.head? != some (.state .exited)
    | .world (.stack (.submit (.reload ..))) | .sync .. => false
    | _ => true

theorem undisturbed_of_quietly (o : Overview) (action : OverviewAction) (o' : Overview)
    (h : quietly name o action) (hstep : overviewSystem.step o action = some o') :
    Undisturbed name declared o action o' := by
  obtain ⟨hslot, haction⟩ := Bool.and_eq_true_iff.mp h
  constructor
  case same =>
    cases action with
    | world action =>
      cases action with
      | stack action =>
        cases action with
        | submit command => cases command <;> trivial
        | _ => trivial
      | _ => trivial
    | collect => trivial
    | sync => cases haction
  case keeps_on =>
    rintro task spawned l rest rfl - - hl hphase
    simp [hl, givesUp, hphase] at haction
  case stands =>
    rintro task spawned l run run' _ rfl - - hl hrun rfl hexited
    simp [hl, hrun, hexited] at haction
  case renewed =>
    intro slot hs hrenews task spawned l _ _ hl
    rcases Bool.or_eq_true_iff.mp hslot with hslot | hrelays
    · exact absurd hrenews (not_renews_of_leavesSlot hslot hstep hs)
    · simpa using List.all_eq_true.mp hrelays l (List.mem_of_getElem? hl)
  case entries =>
    rintro config names rfl
    cases haction

/-- The definitions of a service in one configuration are the same. -/
theorem each_declares (config : ValidConfig) (name : ServiceName) :
    config.1.Each (Declares name (config.1.hasHealth name)) := by
  intro other service hservice hname
  have hother : service.name = other := config.2.name_eq hservice
  rw [Config.hasHealth, ← hname, hother, hservice]

/-- Evaluates what is folded: nothing is to be collected, and no relay has anything left to do. -/
def isFolded (name : ServiceName) (o : Overview) : Bool :=
  o.uncollected name == [] && o.world.locals.all fun l =>
    l.relay.all (· == []) && l.run.all fun run => run.channel == []

theorem folded_of_isFolded (h : o.isFolded name) : o.Folded name := by
  obtain ⟨hcollected, hidle⟩ := Bool.and_eq_true_iff.mp h
  refine ⟨fun task spawned l _ _ hl effects heffects => ?_, beq_iff_eq.mp hcollected⟩
  have hl' := List.all_eq_true.mp hidle l (List.mem_of_getElem? hl)
  simp only [heffects, Option.all_some, Bool.and_eq_true, beq_iff_eq] at hl'
  refine ⟨hl'.1, fun run hrun => ?_⟩
  simpa [hrun] using hl'.2

theorem caughtUp_of_check (hfolded : o.isFolded name) (hheard : o.world.stack.slots[name]?.all
    fun slot => o.world.stack.cells[slot.shared]?.all fun cell => cell.status.state ≠ .pending) :
    o.CaughtUp name := by
  refine ⟨folded_of_isFolded hfolded, fun slot cell hs hc => ?_⟩
  simpa [hs, hc] using hheard

/-- A daemon with the probed service alone. -/
def probed : Overview := Overview.initial sampleOptions probedConfig probedPlan ∅

/-- The service is stopped on request and started again, while its entry says that it is stopped. -/
def comesBack : List OverviewAction :=
  let starts : List WorldAction :=
    [.stack (.submit (.start ⟨"db"⟩ 1)), .stack .control, .task 1 .look] ++
      World.runSteps 1 (startProcess 101) ++ World.relaySteps 1 [2, 2, 2]
  (World.orderlySteps ++ starts).map .world ++ List.replicate 10 (.collect 0)

/-- Its first probe passes, and the collector keeps up. -/
def turnsReady : List OverviewAction :=
  (World.runSteps 1 (beginProbe 0 ++ passProbe 0) ++ World.relaySteps 1 [2]).map .world ++
    [.collect 0]

theorem readiness_agrees_comesBack : ∃ u o,
    overviewSystem.checkedRun (quietly ⟨"db"⟩) probed comesBack = some u ∧ u.CaughtUp ⟨"db"⟩ ∧
      overviewSystem.checkedRun (fun o action => quietly ⟨"db"⟩ o action && leavesSlot ⟨"db"⟩ o action)
        u turnsReady = some o ∧
      (o.registry.snapshot 0).map (Client.readiness ∘ toWireStatus) = [.ready] ∧
      o.Agrees ⟨"db"⟩ := by
  have hrun : ((overviewSystem.checkedRun (quietly ⟨"db"⟩) probed comesBack).bind fun u =>
      (overviewSystem.checkedRun (fun o action => quietly ⟨"db"⟩ o action && leavesSlot ⟨"db"⟩ o action)
        u turnsReady).map fun o => decide (u.isFolded ⟨"db"⟩ ∧
          (u.world.stack.slots[(⟨"db"⟩ : ServiceName)]?.all fun slot =>
            u.world.stack.cells[slot.shared]?.all fun cell => cell.status.state ≠ .pending) ∧
          (o.registry.snapshot 0).map (Client.readiness ∘ toWireStatus) = [.ready] ∧
          o.isFolded ⟨"db"⟩)) = some true := by decide +kernel
  obtain ⟨u, hu, hrun⟩ := Option.bind_eq_some_iff.mp hrun
  obtain ⟨o, ho, hfacts⟩ := Option.map_eq_some_iff.mp hrun
  obtain ⟨hfolded, hheard, hready, hfolded'⟩ := of_decide_eq_true hfacts
  have hbefore : overviewSystem.Steps (Undisturbed ⟨"db"⟩ (probedConfig.1.hasHealth ⟨"db"⟩))
      (Overview.initial sampleOptions probedConfig probedPlan ∅) u :=
    TransitionSystem.steps_of_checkedRun undisturbed_of_quietly hu
  have hcaught := caughtUp_of_check hfolded hheard
  have hsteps := TransitionSystem.steps_of_checkedRun (C := fun o action o' =>
    Undisturbed ⟨"db"⟩ (probedConfig.1.hasHealth ⟨"db"⟩) o action o' ∧
      RenewedInTime ⟨"db"⟩ o action o') (fun s action s' hcheck hstep => ?_) ho
  · exact ⟨u, o, hu, hcaught, ho, hready, readiness_agrees (each_declares probedConfig ⟨"db"⟩)
      hbefore (.inr hcaught) hsteps (folded_of_isFolded hfolded')⟩
  · obtain ⟨hquiet, hslot⟩ := Bool.and_eq_true_iff.mp hcheck
    exact ⟨undisturbed_of_quietly s action s' hquiet hstep, fun slot hs hrenews =>
      absurd hrenews (not_renews_of_leavesSlot hslot hstep hs)⟩

/-- The second service waits for the first one as it is asked to stop. -/
def neverStarts : List OverviewAction :=
  [.world (.task 1 .look), .world (.stack (.submit (.stop ⟨"web"⟩ 0))), .world (.stack .control),
    .world (.task 1 (.heed .requested)), .world (.task 1 .conclude)]

/-- The supervisor has given the service up, and no event says so: the client waits on. -/
theorem client_waits_for_stopped : ¬ ∀ (options : StackOptions) (config : ValidConfig)
    (plan : StartPlan config.1) (stopped : Finset ServiceName) (name : ServiceName)
    (declared : Bool) (o : Overview), config.1.Each (Declares name declared) →
    overviewSystem.Steps (SameDeclarations name declared)
      (Overview.initial options config plan stopped) o → o.Folded name → o.Agrees name := by
  intro hall
  have hrun : ((overviewSystem.run (Overview.initial sampleOptions sampleConfig samplePlan ∅)
      neverStarts).bind fun o => o.world.stack.slots[(⟨"web"⟩ : ServiceName)]?.bind fun slot =>
        o.world.stack.cells[slot.shared]?.bind fun cell =>
          ((o.registry.snapshot 0).find? fun status => status.name = ⟨"web"⟩).map fun status =>
            decide (o.isFolded ⟨"web"⟩ ∧ Client.readiness (toWireStatus status) = .waiting ∧
              cell.status.readiness ((⟨⟨"web"⟩, none⟩ : Dependency).conditionFor slot.service) =
                .gone)) = some true := by decide +kernel
  obtain ⟨o, ho, hrun⟩ := Option.bind_eq_some_iff.mp hrun
  obtain ⟨slot, hs, hrun⟩ := Option.bind_eq_some_iff.mp hrun
  obtain ⟨cell, hc, hrun⟩ := Option.bind_eq_some_iff.mp hrun
  obtain ⟨status, hstatus, hfacts⟩ := Option.map_eq_some_iff.mp hrun
  obtain ⟨hfolded, hwaiting, hgone⟩ := of_decide_eq_true hfacts
  have hsame : ∀ action ∈ neverStarts, ∀ u v, SameDeclarations ⟨"web"⟩
      (sampleConfig.1.hasHealth ⟨"web"⟩) u action v := by
    simp [neverStarts, SameDeclarations, Control.Brings]
  have hsteps := TransitionSystem.steps_of_run_of_forall hsame ho
  have hmatches := hall _ _ _ _ ⟨"web"⟩ _ o (each_declares sampleConfig ⟨"web"⟩) hsteps
    (folded_of_isFolded hfolded) slot cell 0 status hs hc (List.mem_of_find?_eq_some hstatus)
    (by simpa using List.find?_some hstatus)
  rw [hwaiting, hgone] at hmatches
  exact absurd (hmatches.2.1.mp rfl) (by simp)

end Overview

end Servicrab
