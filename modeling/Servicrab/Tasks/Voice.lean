import Servicrab.Runner.Verdicts
import Servicrab.Tasks.Renewal

/-!
# Who speaks for a slot

The status of a slot is what the relay of one task has made of the events it took, up to what it is
about to do with the last one; the other tasks of the service are over, and so are their relays. A
task that waits has said nothing yet, and what it says once its run is over is not about the state
or the health of the service.

## Main definitions

* `TaskLocal.status`, `TaskLocal.word`, `TaskLocal.effects`: what a task has heard of its run.
* `TaskLocal.Fits`: the invariant of a task whose verdicts stand.
* `TaskLocal.Hears`: what a step of a task means for what it has heard.
* `World.Voice`: what is said for a slot.
* `World.Tuned`: the status in a slot and an entry are attuned.

## Main results

* `TaskLocal.Fits.hears`, `TaskLocal.Hears.attuned`: what a step of a task means for the slot it
  speaks for.
* `World.Tuned.taskStep`, `World.Tuned.withStack`.
-/

namespace Servicrab

namespace Effect

/-- The effect says nothing about the state or the health of the service. -/
def Mute : Effect → Prop
  | .write _ => False
  | .emit kind => (∀ state, kind ≠ .state state) ∧ kind.isHealthVerdict = false
  | _ => True

/-- What a list of effects makes of a status. -/
def applyAll (effects : List Effect) (status : DependencyStatus) : DependencyStatus :=
  effects.foldl (fun status effect => effect.applied status) status

theorem applyAll_append (effects effects' : List Effect) (status : DependencyStatus) :
    applyAll (effects ++ effects') status = applyAll effects' (applyAll effects status) :=
  List.foldl_append

theorem applyAll_singleton (effect : Effect) (status : DependencyStatus) :
    applyAll [effect] status = effect.applied status := rfl

/-- What the events of a list of effects make of an entry. -/
def tellAll (effects : List Effect) (outlook : Outlook) : Outlook :=
  (effects.flatMap Effect.emitted).foldl Outlook.observe outlook

theorem tellAll_append (effects effects' : List Effect) (outlook : Outlook) :
    tellAll (effects ++ effects') outlook = tellAll effects' (tellAll effects outlook) := by
  rw [tellAll, List.flatMap_append, List.foldl_append]
  rfl

theorem Mute.applied {effect : Effect} (h : effect.Mute) (hne : effect ≠ .giveUp)
    (status : DependencyStatus) : effect.applied status = status := by
  cases effect with
  | write => cases h
  | giveUp => exact absurd rfl hne
  | _ => rfl

theorem Mute.tell {effect : Effect} (h : effect.Mute) (outlook : Outlook) :
    tellAll [effect] outlook = outlook := by
  cases effect with
  | emit kind => exact Outlook.observe_of_mute h.1 h.2
  | _ => rfl

/-- The relay writes the status that it derives from an event. -/
theorem applyAll_relayEffects (tracker : DependencyStatus) (kind : EventKind) :
    applyAll (TaskLocal.relayEffects tracker kind) tracker = tracker.observe kind := by
  unfold TaskLocal.relayEffects DependencyStatus.observed
  split_ifs with h
  · rw [h]
    cases kind <;> rfl
  · cases kind <;> rfl

/-- The relay forwards an event as it is. -/
theorem tellAll_relayEffects (tracker : DependencyStatus) (kind : EventKind) (outlook : Outlook) :
    tellAll (TaskLocal.relayEffects tracker kind) outlook = outlook.observe kind := by
  unfold TaskLocal.relayEffects
  cases tracker.observed kind <;> cases kind <;> rfl

end Effect

namespace TaskLocal

/-- The status the relay of the task has derived so far. -/
def status (l : TaskLocal) : DependencyStatus :=
  match l.run with
  | some run => run.tracker
  | none => .new

/-- The last word the relay has heard on the health of the process. -/
def word (l : TaskLocal) : LastWord :=
  match l.run with
  | some run => lastWord (run.received.map Prod.snd)
  | none => .none

/-- What the relay has left to do with the event it took last. -/
def effects (l : TaskLocal) : List Effect := l.relay.getD []

/-- What is known of a task of the service as long as its verdicts stand. -/
structure Fits (service : Service) (l : TaskLocal) : Prop where
  waiting : ∀ rest looked, l.phase = .waiting rest looked → l.run = none ∧ l.relay = none
  run : ∀ run, l.run = some run → ∃ options : RunOptions,
    runSystem.Steps Run.VerdictStands (Run.new service options) run
  mute : ∀ effects, l.phase = .ending effects → ∀ effect ∈ effects, effect.Mute
  verdicts : ∀ kind, .emit kind ∈ l.effects → kind.isHealthVerdict → service.health.isSome

/-- What a step of a task means for what it has heard of its run. -/
inductive Hears (declared : Bool) (l : TaskLocal) (action : TaskAction)
    (next : TaskLocal × Option Effect) : Prop
  /-- Nothing new is heard; the relay may have done some of what it had left. -/
  | same (hstatus : next.1.status = l.status) (hword : next.1.word = l.word)
    (heffects : next.2.toList ++ next.1.effects = l.effects)
  /-- The task itself has done something that says nothing. -/
  | mute {effect : Effect} {rest : List Effect} (hconclude : action = .conclude)
    (hphase : l.phase = .ending (effect :: rest)) (hstatus : next.1.status = l.status)
    (hword : next.1.word = l.word) (heffects : next.1.effects = l.effects)
    (heffect : next.2 = some effect) (hmute : effect.Mute)
  /-- The relay takes an event. -/
  | heard {kind : EventKind} (hexpects : l.status.Expects declared l.word kind)
    (hstatus : next.1.status = l.status.observe kind) (hword : next.1.word = l.word.hear kind)
    (hidle : l.effects = []) (heffects : next.1.effects = relayEffects l.status kind)
    (heffect : next.2 = none)

variable {w : World} {task : ℕ} {spawned : Task} {l : TaskLocal} {action : TaskAction}
  {next : TaskLocal × Option Effect} {service : Service}

theorem fits_new (spawned : Task) (service : Service) : (TaskLocal.new spawned).Fits service := by
  constructor <;> simp [TaskLocal.new, effects]

/-- What is received is the head of what was told. -/
theorem Fits.expects (h : l.Fits service) {run : Run} (hrun : l.run = some run)
    {event : ℕ × EventKind} {rest : List (ℕ × EventKind)} (hchannel : run.channel = event :: rest) :
    l.status.Expects service.health.isSome l.word event.2 := by
  obtain ⟨options, hsteps⟩ := h.run run hrun
  have htold := (Run.watched_of_steps hsteps).told
  rw [hchannel] at htold
  simp only [status, word, hrun]
  exact htold.1

theorem Fits.hears (h : l.Fits service) (hstep : World.LocalStep w task spawned l action next) :
    Hears service.health.isSome l action next := by
  cases hstep with
  | ready | gone | pending | lost | heed | wrapUp => exact .same rfl rfl rfl
  | started hphase =>
    obtain ⟨hrun, hrelay⟩ := h.waiting _ _ hphase
    refine .same ?_ ?_ ?_
    · simp only [status, hrun]
      rfl
    · simp only [word, hrun]
      rfl
    · simp only [effects, hrelay]
      rfl
  | run hrun hreceive _ hrunStep =>
    refine .same ?_ ?_ rfl
    · simp only [status, hrun, (Run.receipts_of_step hrunStep hreceive).1]
    · simp only [word, hrun, (Run.receipts_of_step hrunStep hreceive).2]
  | receive hrelay hrun hchannel hrunStep =>
    rename_i run _ event _
    refine .heard (h.expects hrun hchannel) ?_ ?_ ?_ ?_ rfl
    · simp only [status, hrun, receive_eq hchannel hrunStep]
    · simp only [word, hrun, receive_eq hchannel hrunStep, List.map_append, List.map_singleton,
        lastWord_concat]
    · simp only [effects, hrelay, Option.getD_some]
    · simp only [effects, status, hrun, Option.getD_some]
  | relay hrelay =>
    refine .same rfl rfl ?_
    simp only [effects, hrelay]
    rfl
  | close hrelay =>
    refine .same rfl rfl ?_
    simp only [effects, hrelay]
    rfl
  | conclude hphase =>
    exact .mute rfl hphase rfl rfl rfl rfl (h.mute _ hphase _ List.mem_cons_self)

/-- A verdict that the relay forwards comes from a declared health check. -/
theorem verdict_of_mem_relayEffects {tracker : DependencyStatus} {declared : Bool} {word : LastWord}
    {event kind : EventKind} (hexpects : tracker.Expects declared word event)
    (hmem : .emit kind ∈ relayEffects tracker event) (hverdict : kind.isHealthVerdict) :
    declared := by
  have hkind : kind = event := by
    simp only [relayEffects, List.mem_append, List.mem_singleton] at hmem
    rcases hmem with (hmem | hmem) | hmem
    · split at hmem <;> simp at hmem
    · split at hmem <;> simp at hmem
    · exact Effect.emit.inj hmem
  subst hkind
  cases kind <;> first | exact hexpects.1 | cases hverdict

theorem Fits.step (h : l.Fits spawned.service)
    (hstep : World.LocalStep w task spawned l action next)
    (hstands : ∀ run run' runAction, action = .run runAction → l.run = some run →
      run.VerdictStands runAction run') : next.1.Fits spawned.service := by
  have hhears := h.hears hstep
  cases hstep with
  | ready hphase | pending hphase =>
    exact ⟨fun _ _ _ => h.waiting _ _ hphase, h.run, by simp, h.verdicts⟩
  | gone hphase | lost hphase | heed hphase =>
    refine ⟨by simp [blocked, shutDown], h.run, ?_, h.verdicts⟩
    simp [blocked, shutDown, Effect.Mute, EventKind.isHealthVerdict]
  | started hphase =>
    refine ⟨by simp, ?_, by simp, by simp [effects]⟩
    rintro _ ⟨⟩
    exact ⟨_, .refl _⟩
  | run hrun hreceive _ hrunStep =>
    refine ⟨fun rest looked hphase => ?_, ?_, h.mute, h.verdicts⟩
    · rw [(h.waiting rest looked hphase).1] at hrun
      cases hrun
    · rintro _ ⟨⟩
      obtain ⟨options, hsteps⟩ := h.run _ hrun
      exact ⟨options, hsteps.tail ⟨_, hstands _ _ _ rfl hrun, hrunStep⟩⟩
  | receive hrelay hrun hchannel hrunStep =>
    refine ⟨fun rest looked hphase => ?_, ?_, h.mute, fun kind hmem hverdict => ?_⟩
    · rw [(h.waiting rest looked hphase).1] at hrun
      cases hrun
    · rintro _ ⟨⟩
      obtain ⟨options, hsteps⟩ := h.run _ hrun
      exact ⟨options, hsteps.tail ⟨.receive, by rintro ⟨⟩, hrunStep⟩⟩
    · have hexpects := h.expects hrun hchannel
      simp only [status, hrun] at hexpects
      exact verdict_of_mem_relayEffects hexpects hmem hverdict
  | relay hrelay =>
    refine ⟨fun rest looked hphase => ?_, h.run, h.mute, fun kind hmem hverdict => ?_⟩
    · rw [(h.waiting rest looked hphase).2] at hrelay
      cases hrelay
    · refine h.verdicts kind ?_ hverdict
      simp only [effects, hrelay, Option.getD_some] at hmem ⊢
      exact List.mem_cons_of_mem _ hmem
  | close hrelay =>
    refine ⟨fun rest looked hphase => ?_, h.run, h.mute, by simp [effects]⟩
    rw [(h.waiting rest looked hphase).2] at hrelay
    cases hrelay
  | wrapUp =>
    refine ⟨?_, h.run, ?_, h.verdicts⟩
    · unfold wrappedUp
      split <;> simp
    · unfold wrappedUp
      split <;> simp [Effect.Mute, EventKind.isHealthVerdict]
  | conclude hphase =>
    refine ⟨by simp, h.run, ?_, h.verdicts⟩
    rintro _ ⟨⟩ effect hmem
    exact h.mute _ hphase effect (List.mem_cons_of_mem _ hmem)

/-- What a status is attuned to stays so, up to what the relay has left to do, unless the task gives
up. -/
theorem Hears.attuned {lags : Prop} {declared : Bool} (h : Hears declared l action next)
    (hkeeps : action = .conclude → ∀ rest, l.phase ≠ .ending (.giveUp :: rest))
    {status : DependencyStatus} (hstatus : Effect.applyAll l.effects status = l.status) :
    Effect.applyAll next.1.effects (Effect.applyAll next.2.toList status) = next.1.status ∧
      ∀ outlook, Attuned lags l.word l.status (Effect.tellAll l.effects outlook) →
        Attuned lags next.1.word next.1.status
          (Effect.tellAll next.1.effects (Effect.tellAll next.2.toList outlook)) := by
  cases h with
  | same hstatus' hword heffects =>
    rw [← heffects] at hstatus
    simp only [Effect.applyAll_append, Effect.tellAll_append, ← heffects, hstatus', hword] at hstatus ⊢
    exact ⟨hstatus, fun _ => id⟩
  | mute hconclude hphase hstatus' hword heffects heffect hmute =>
    have hne := hkeeps hconclude
    rw [heffect, hstatus', hword, heffects, Option.toList_some, Effect.applyAll_singleton,
      hmute.applied (by rintro rfl; exact hne _ hphase)]
    refine ⟨hstatus, fun outlook => ?_⟩
    rw [hmute.tell]
    exact id
  | heard hexpects hstatus' hword hidle heffects heffect =>
    obtain rfl : status = l.status := by rwa [hidle] at hstatus
    rw [heffect, hstatus', hword, hidle, heffects, Option.toList_none]
    refine ⟨Effect.applyAll_relayEffects _ _, fun outlook hattuned => ?_⟩
    rw [Effect.tellAll_relayEffects]
    exact hattuned.hear hexpects

/-- What is told of the health of a service comes from a declared health check. -/
theorem Fits.verdict (h : l.Fits service) (hhears : Hears service.health.isSome l action next)
    {kind : EventKind} (hmem : kind ∈ next.2.toList.flatMap Effect.emitted)
    (hverdict : kind.isHealthVerdict) : service.health.isSome := by
  obtain ⟨effect, heffect, hkind⟩ := List.mem_flatMap.mp hmem
  obtain rfl : effect = .emit kind := by
    cases effect with
    | emit => exact congrArg Effect.emit (List.mem_singleton.mp hkind).symm
    | _ => cases hkind
  cases hhears with
  | same _ _ heffects => exact h.verdicts kind (heffects ▸ List.mem_append_left _ heffect) hverdict
  | mute _ _ _ _ _ he hmute =>
    rw [he, Option.toList_some, List.mem_singleton] at heffect
    subst heffect
    exact absurd hverdict (by simp [hmute.2])
  | heard _ _ _ _ _ he => simp [he] at heffect

end TaskLocal

/-! ### Slots -/

namespace World

variable {w w' : World} {name : ServiceName} {task : ℕ} {spawned : Task} {l : TaskLocal}
  {action : TaskAction} {next : TaskLocal × Option Effect} {cell : ℕ} {status : DependencyStatus}
  {word : LastWord} {effects : List Effect} {declared : Bool} {lags : Prop}

/-- A step of a task, with what is left of its effect. -/
structure TaskStep (w w' : World) (task : ℕ) (spawned : Task) (l : TaskLocal) (action : TaskAction)
    (next : TaskLocal × Option Effect) : Prop where
  localStep : LocalStep w task spawned l action next
  locals_eq : w'.locals = w.locals.set task next.1
  tasks_eq : w'.stack.tasks = w.stack.tasks
  slots_eq : w'.stack.slots = w.stack.slots
  events_eq : w'.stack.events = w.stack.events ++
    (next.2.toList.flatMap Effect.emitted).map (ServiceEvent.mk spawned.service.name)
  status_eq : ∀ {cell : ℕ} {c' : Cell}, w'.stack.cells[cell]? = some c' →
    ∃ c, w.stack.cells[cell]? = some c ∧ c'.status =
      if spawned.shared = cell then Effect.applyAll next.2.toList c.status else c.status

theorem exists_taskStep (h : w.stepTask task spawned l action = some w') :
    ∃ next, TaskStep w w' task spawned l action next := by
  obtain ⟨⟨l', effect⟩, hlocal, hlocals, -, heffect⟩ := stepTask_cases h
  refine ⟨(l', effect), ?_⟩
  cases effect with
  | none =>
    have hstack : w'.stack = w.stack := heffect
    refine ⟨localStep_of_step hlocal, hlocals, tasks_stepTask h, by rw [hstack], by simp [hstack],
      fun hc => ⟨_, hstack ▸ hc, (ite_self _).symm⟩⟩
  | some effect =>
    refine ⟨localStep_of_step hlocal, hlocals, tasks_stepTask h,
      (quiet_of_perform heffect).slots_eq, ?_, fun hc => cell_of_perform heffect hc⟩
    simpa using events_of_perform heffect

/-- If a task is of the service, it has ended, and so has its relay. -/
def Past (w : World) (name : ServiceName) (task : ℕ) : Prop :=
  ∀ (spawned : Task) (l : TaskLocal), w.stack.tasks[task]? = some spawned →
    spawned.service.name = name → w.locals[task]? = some l →
    l.phase = .ending [] ∧ l.relay = none

/-- What is said for a slot of a service: what one task has heard, or nothing any more. -/
inductive Voice (w : World) (name : ServiceName) (cell : ℕ) :
    DependencyStatus → LastWord → List Effect → Prop
  | task {task : ℕ} {spawned : Task} {l : TaskLocal} (htask : w.stack.tasks[task]? = some spawned)
    (hname : spawned.service.name = name) (hshared : spawned.shared = cell)
    (hl : w.locals[task]? = some l) (hothers : ∀ other, other ≠ task → w.Past name other) :
    Voice w name cell l.status l.word l.effects
  | nobody {status : DependencyStatus} {word : LastWord} (hall : ∀ task, w.Past name task) :
    Voice w name cell status word []

/-- The status of the slot of a service and an entry, which may lag behind, are attuned, up to what
is left to be said for the slot. -/
def Tuned (w : World) (name : ServiceName) (lags : Prop) (outlook : Option Outlook) : Prop :=
  ∀ (slot : Slot) (cell : Cell), w.stack.slots[name]? = some slot →
    w.stack.cells[slot.shared]? = some cell →
    ∃ status word effects, w.Voice name slot.shared status word effects ∧
      Effect.applyAll effects cell.status = status ∧
      ∀ o ∈ outlook, Attuned lags word status (Effect.tellAll effects o)

/-- The stop requests of the final shutdown say nothing for a slot. -/
theorem Tuned.congr {outlook : Option Outlook} (h : w.Tuned name lags outlook)
    (hstack : w'.stack = w.stack) (hlocals : w'.locals = w.locals) :
    w'.Tuned name lags outlook := by
  intro slot c hs hc
  rw [hstack] at hs hc
  obtain ⟨status, word, effects, hvoice, hrest⟩ := h slot c hs hc
  have hpast : ∀ task, w.Past name task → w'.Past name task := fun task hpast => by
    rw [Past, hstack, hlocals]
    exact hpast
  refine ⟨status, word, effects, ?_, hrest⟩
  cases hvoice with
  | task htask hname hshared hl hothers =>
    exact .task (hstack ▸ htask) hname hshared (hlocals ▸ hl) fun other hne =>
      hpast other (hothers other hne)
  | nobody hall => exact .nobody fun task => hpast task (hall task)

/-- Nothing is left to be said once everything was relayed. -/
theorem Voice.effects_eq_nil (h : w.Voice name cell status word effects) (hrelayed : w.Relayed name) :
    effects = [] := by
  cases h with
  | task htask hname hshared hl =>
    rename_i l _
    cases hrelay : l.relay with
    | none => simp [TaskLocal.effects, hrelay]
    | some effects =>
      simpa [TaskLocal.effects, hrelay] using (hrelayed _ _ _ htask hname hl effects hrelay).1
  | nobody => rfl

/-- What is past says nothing. -/
theorem Past.effect_eq_none (h : w.Past name task) (htask : w.stack.tasks[task]? = some spawned)
    (hname : spawned.service.name = name) (hl : w.locals[task]? = some l)
    (hstep : LocalStep w task spawned l action next) : next.2 = none := by
  obtain ⟨hphase, hrelay⟩ := h spawned l htask hname hl
  exact (hstep.of_ended hphase hrelay).1

/-- What is past stays so. -/
theorem Past.taskStep {other : ℕ} (h : w.Past name other) (hl : w.locals[task]? = some l)
    (hstep : TaskStep w w' task spawned l action next) (htask : w.stack.tasks[task]? = some spawned) :
    w'.Past name other := by
  intro spawned' l' htask' hname hl'
  rw [hstep.tasks_eq] at htask'
  rw [hstep.locals_eq, List.getElem?_set] at hl'
  split_ifs at hl' with he hlt
  · subst he
    cases hl'
    obtain rfl := Option.some.inj (htask.symm.trans htask')
    obtain ⟨hphase, hrelay⟩ := h spawned l htask hname hl
    exact (hstep.localStep.of_ended hphase hrelay).2
  · exact h spawned' l' htask' hname hl'

/-- A step of a task that does not speak for the slot of a service is not noticed there. -/
theorem unnoticed {c c' : Cell} (hstatus : c'.status =
      if spawned.shared = cell then Effect.applyAll next.2.toList c.status else c.status)
    (hshared : spawned.service.name ≠ name → spawned.shared ≠ cell)
    (hsilent : spawned.service.name = name → next.2 = none) :
    c'.status = c.status ∧ ∀ outlook : Outlook, outlook.observeAll name
      ((next.2.toList.flatMap Effect.emitted).map (ServiceEvent.mk spawned.service.name)) =
        outlook := by
  by_cases hname : spawned.service.name = name
  · rw [hsilent hname] at hstatus ⊢
    exact ⟨hstatus.trans (ite_self _), fun _ => rfl⟩
  · rw [hstatus, if_neg (hshared hname)]
    exact ⟨rfl, fun outlook => by rw [Outlook.observeAll_mk, if_neg hname]⟩

/-- What is tuned stays so as the tasks take their steps. -/
theorem Tuned.taskStep {outlook : Option Outlook} (h : w.Tuned name lags outlook) (hI : w.stack.Inv)
    (hstep : TaskStep w w' task spawned l action next) (htask : w.stack.tasks[task]? = some spawned)
    (hl : w.locals[task]? = some l)
    (hhears : spawned.service.name = name → TaskLocal.Hears declared l action next)
    (hkeeps : spawned.service.name = name → action = .conclude →
      ∀ rest, l.phase ≠ .ending (.giveUp :: rest)) :
    w'.Tuned name lags (outlook.map fun o => o.observeAll name
      ((next.2.toList.flatMap Effect.emitted).map (ServiceEvent.mk spawned.service.name))) := by
  intro slot c' hs hc'
  rw [hstep.slots_eq] at hs
  obtain ⟨c, hc, hstatus'⟩ := hstep.status_eq hc'
  obtain ⟨status, word, effects, hvoice, hstatus, hattuned⟩ := h slot c hs hc
  have hshared : spawned.service.name ≠ name → spawned.shared ≠ slot.shared :=
    fun hne he => hne (hI.task_cell_slot htask hs he)
  -- Unless the task speaks for the slot, the same is said for it as before.
  have hsame (hsilent : spawned.service.name = name → next.2 = none) :
      Effect.applyAll effects c'.status = status ∧
        ∀ o ∈ outlook.map fun o => o.observeAll name ((next.2.toList.flatMap Effect.emitted).map
          (ServiceEvent.mk spawned.service.name)),
          Attuned lags word status (Effect.tellAll effects o) := by
    obtain ⟨he, hid⟩ := unnoticed hstatus' hshared hsilent
    simp only [hid, Option.map_id']
    exact ⟨he ▸ hstatus, hattuned⟩
  cases hvoice with
  | task htask₀ hname₀ hshared₀ hl₀ hothers =>
    rename_i speaker spawned₀ l₀
    by_cases he : task = speaker
    · subst he
      obtain rfl := Option.some.inj (htask.symm.trans htask₀)
      obtain rfl := Option.some.inj (hl.symm.trans hl₀)
      obtain ⟨hstatus₁, hattuned₁⟩ := (hhears hname₀).attuned (hkeeps hname₀) hstatus
      have hl' : w'.locals[task]? = some next.1 := by
        rw [hstep.locals_eq, List.getElem?_set_self (List.getElem?_eq_some_iff.mp hl).1]
      refine ⟨_, _, _, .task (hstep.tasks_eq ▸ htask) hname₀ hshared₀ hl'
        fun other hne => (hothers other hne).taskStep hl hstep htask, ?_, ?_⟩
      · rw [hstatus', if_pos hshared₀, hstatus₁]
      · intro _ hmem
        obtain ⟨o, ho, rfl⟩ := Option.map_eq_some_iff.mp hmem
        rw [Outlook.observeAll_mk, if_pos hname₀]
        exact hattuned₁ o (hattuned o ho)
    · have hl₀' : w'.locals[speaker]? = some l₀ := by
        rw [hstep.locals_eq, List.getElem?_set_ne he, hl₀]
      refine ⟨_, _, _, .task (hstep.tasks_eq ▸ htask₀) hname₀ hshared₀ hl₀'
        fun other hne => (hothers other hne).taskStep hl hstep htask, hsame fun hname => ?_⟩
      exact (hothers task he).effect_eq_none htask hname hl hstep.localStep
  | nobody hall =>
    refine ⟨_, _, _, .nobody fun other => (hall other).taskStep hl hstep htask,
      hsame fun hname => ?_⟩
    exact (hall task).effect_eq_none htask hname hl hstep.localStep

/-- If only the task that a slot waits for is not past yet, and that one is new, nothing was said
for the slot. -/
theorem exists_voice_new {slot : Slot} (hfresh : ∀ (task : ℕ) (spawned : Task) (l : TaskLocal),
    w.stack.tasks[task]? = some spawned → spawned.service.name = name →
    w.locals[task]? = some l → (l.phase = .ending [] ∧ l.relay = none) ∨
      slot.handle = some task ∧ spawned.shared = slot.shared ∧ l = .new spawned) :
    ∃ word, w.Voice name slot.shared .new word [] := by
  by_cases hnew : ∃ task spawned, slot.handle = some task ∧ w.stack.tasks[task]? = some spawned ∧
      spawned.service.name = name ∧ spawned.shared = slot.shared ∧
      w.locals[task]? = some (.new spawned)
  · obtain ⟨task, spawned, hhandle, htask, hname, hshared, hl⟩ := hnew
    refine ⟨_, .task htask hname hshared hl fun other hne spawned' l' htask' hname' hl' => ?_⟩
    refine (hfresh other spawned' l' htask' hname' hl').resolve_right fun h => hne ?_
    exact Option.some.inj (h.1.symm.trans hhandle)
  · refine ⟨.none, .nobody fun task spawned l htask hname hl => ?_⟩
    refine (hfresh task spawned l htask hname hl).resolve_right fun h => hnew ?_
    obtain ⟨hhandle, hshared, rfl⟩ := h
    exact ⟨task, spawned, hhandle, htask, hname, hshared, hl⟩

section Outside

variable {stackAction : StackAction} {stack : Stack} {outlook : Option Outlook}

/-- A step of the supervisor that leaves a slot its cell leaves it its voice. -/
theorem Voice.withStack (h : w.Voice name cell status word effects) (hsettled : w.Settled)
    (hgrow : w.stack.tasks <+: stack.tasks)
    (hback : ∀ (task : ℕ) (spawned : Task), stack.tasks[task]? = some spawned →
      spawned.service.name = name → w.stack.tasks[task]? = some spawned) :
    (w.withStack stack).Voice name cell status word effects := by
  have hlt : ∀ {task : ℕ} {spawned : Task}, w.stack.tasks[task]? = some spawned →
      task < w.stack.tasks.length := fun htask => (List.getElem?_eq_some_iff.mp htask).1
  have hlocals : ∀ {task : ℕ} {spawned : Task}, w.stack.tasks[task]? = some spawned →
      (w.withStack stack).locals[task]? = w.locals[task]? :=
    fun htask => getElem?_withStack (hsettled.length_eq ▸ hlt htask)
  have hpast : ∀ {task : ℕ}, w.Past name task → (w.withStack stack).Past name task := by
    intro task hpast spawned l htask hname hl
    have hold := hback task spawned htask hname
    exact hpast spawned l hold hname (hlocals hold ▸ hl)
  cases h with
  | task htask hname hshared hl hothers =>
    refine .task ?_ hname hshared ((hlocals htask).trans hl) fun other hne => hpast (hothers other hne)
    exact (Stack.getElem?_of_isPrefix hgrow (hlt htask)).trans htask
  | nobody hall => exact .nobody fun task => hpast (hall task)

/-- What is tuned stays so as the supervisor and its surroundings take their steps, as long as a slot
is renewed only once nothing is left of the earlier tasks, and while its entry waits or may lag
behind. -/
theorem Tuned.withStack (h : w.Tuned name lags outlook) (hsettled : w.Settled) (hI : w.stack.Inv)
    (houtside : stackAction.isOutside) (hstep : w.stack.step stackAction = some stack)
    (hrenewed : ∀ slot : Slot, stack.slots[name]? = some slot →
      w.stack.Renews stack slot.shared → (∀ o ∈ outlook, lags ∨ o.waits) ∧
        ∀ (task : ℕ) (spawned : Task) (l : TaskLocal), w.stack.tasks[task]? = some spawned →
          spawned.service.name = name → w.locals[task]? = some l → l.relay = none) :
    (w.withStack stack).Tuned name lags outlook := by
  intro slot' c' hs' hc'
  have hgrow := (Stack.step_grows hI hstep).1
  by_cases hrenews : w.stack.Renews stack slot'.shared
  · obtain ⟨hwaits, hrelay⟩ := hrenewed slot' hs' hrenews
    have hwiped := (Stack.traces_of_step hI houtside hstep).wiped hrenews hc'
    have hvoice : ∃ word, (w.withStack stack).Voice name slot'.shared .new word [] := by
      refine exists_voice_new fun task spawned l htask hname hl => ?_
      rcases locals_withStack_cases hl with hl | ⟨hge, spawned', htask', rfl⟩
      · left
        have hlt := hsettled.length_eq ▸ (List.getElem?_eq_some_iff.mp hl).1
        have hold := (Stack.getElem?_of_isPrefix hgrow hlt).symm.trans htask
        have hfinished := Stack.finished_of_renews hI houtside hstep hs' hrenews hold hname
        exact ⟨(hsettled.settled hl).ended hfinished, hrelay task spawned l hold hname hl⟩
      · right
        obtain rfl := Option.some.inj (htask.symm.trans htask')
        obtain ⟨slot, hs, hhandle, hshared⟩ :=
          Stack.slot_of_spawned hI houtside hstep (hsettled.length_eq ▸ hge) htask'
        obtain rfl := Option.some.inj ((hname ▸ hs).symm.trans hs')
        exact ⟨hhandle, hshared, rfl⟩
    obtain ⟨word, hvoice⟩ := hvoice
    exact ⟨_, _, _, hvoice, hwiped, fun o ho => .waiting rfl rfl (hwaits o ho)⟩
  · obtain ⟨⟨slot, hs, hshared⟩, hcell, hback⟩ := Stack.kept_slot hI houtside hstep hs' hrenews
    obtain ⟨status, word, effects, hvoice, hrest⟩ :=
      h slot c' hs (hshared ▸ hcell.symm.trans hc')
    exact ⟨status, word, effects, hshared ▸ hvoice.withStack hsettled hgrow hback, hrest⟩

end Outside

end World

end Servicrab
