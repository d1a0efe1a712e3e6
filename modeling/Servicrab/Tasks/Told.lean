import Servicrab.Tasks.Voice

/-!
# What the current task of a slot has told

The cell of a slot holds what the task that was spawned last for it has made known: the status that
its relay has derived from the events it has passed on, or that the task gave up without a run. The
spawn wipes what the tasks before it have told, and nothing of them comes later in the runs in which
their relays have ended by then.

## Main definitions

* `TaskLocal.told`, `TaskLocal.gaveUp`, `TaskLocal.toldStatus`: what a task has made known so far.
* `World.Told`: the cell of a slot holds what its task has told.

## Main results

* `TaskLocal.Telling.toldStatus_step`: what a step of a task adds to it.
* `World.told_of_reachable`.
-/

open TransitionSystem (AnyStep)

namespace Servicrab

/-- Whether the effect writes a status. -/
def Effect.isWrite : Effect → Bool
  | .write _ => true
  | _ => false

theorem Effect.applied_of_not_isWrite {effect : Effect} (hwrite : effect.isWrite = false)
    (hgiveUp : effect ≠ .giveUp) (status : DependencyStatus) : effect.applied status = status := by
  cases effect with
  | write => cases hwrite
  | giveUp => exact absurd rfl hgiveUp
  | store | emit | report => rfl

/-- A relay writes at most once for an event, and then what it has derived. -/
theorem filter_isWrite_relayEffects (tracker : DependencyStatus) (kind : EventKind) :
    (tracker.observe kind = tracker ∧
        (TaskLocal.relayEffects tracker kind).filter Effect.isWrite = []) ∨
      (TaskLocal.relayEffects tracker kind).filter Effect.isWrite =
        [.write (tracker.observe kind)] := by
  unfold TaskLocal.relayEffects DependencyStatus.observed
  split_ifs with h
  · refine .inl ⟨h, ?_⟩
    cases kind <;> rfl
  · right
    cases kind <;> rfl

theorem giveUp_notMem_relayEffects (tracker : DependencyStatus) (kind : EventKind) :
    .giveUp ∉ TaskLocal.relayEffects tracker kind := by
  unfold TaskLocal.relayEffects
  cases tracker.observed kind <;> cases kind <;> simp

namespace DependencyStatus

theorem gone_foldl_observe (kinds : List EventKind) :
    ∀ status : DependencyStatus, (kinds.foldl observe status).gone = status.gone := by
  induction kinds with
  | nil => exact fun _ => rfl
  | cons kind kinds ih => exact fun status => (ih _).trans (observe_gone status kind)

end DependencyStatus

namespace TaskLocal

/-- The events of the run that the relay has passed on to the status of the slot: it took them, and
owes no write for the last one. -/
def told (l : TaskLocal) : List EventKind :=
  match l.run with
  | some run =>
    if l.effects.any Effect.isWrite then (run.received.map Prod.snd).dropLast
    else run.received.map Prod.snd
  | none => []

/-- Whether the task has given up without a run, and said so. -/
def gaveUp (l : TaskLocal) : Bool :=
  match l.run, l.phase with
  | none, .ending effects => .giveUp ∉ effects
  | _, _ => false

/-- What the task has made known of its service. -/
def toldStatus (l : TaskLocal) : DependencyStatus :=
  { l.told.foldl DependencyStatus.observe .new with gone := l.gaveUp }

/-- What is known of a task and its relay on the way to the status. -/
structure Telling (l : TaskLocal) : Prop where
  waiting : ∀ rest looked, l.phase = .waiting rest looked → l.run = none
  idle : l.run = none → l.relay = none
  tracker : ∀ run, l.run = some run →
    run.tracker = (run.received.map Prod.snd).foldl DependencyStatus.observe .new
  writes : ∀ run, l.run = some run → l.effects.filter Effect.isWrite = [] ∨
    l.effects.filter Effect.isWrite = [.write run.tracker]
  relays : .giveUp ∉ l.effects
  /-- Only a task without a run gives up, and once. -/
  ending : ∀ effects, l.phase = .ending effects → (∀ effect ∈ effects, effect.isWrite = false) ∧
    effects.count .giveUp ≤ 1 ∧ (l.run ≠ none → .giveUp ∉ effects)

variable {w : World} {task : ℕ} {spawned : Task} {l l' : TaskLocal} {action : TaskAction}
  {next : TaskLocal × Option Effect} {run : Run}

theorem told_of_run (hrun : l.run = some run) : l.told =
    if l.effects.any Effect.isWrite then (run.received.map Prod.snd).dropLast
    else run.received.map Prod.snd := by
  rw [told, hrun]

theorem told_congr (hrun : l'.run = l.run) (hrelay : l'.relay = l.relay) : l'.told = l.told := by
  rw [told, told, effects, effects, hrun, hrelay]

theorem toldStatus_congr (htold : l'.told = l.told) (hgaveUp : l'.gaveUp = l.gaveUp) :
    l'.toldStatus = l.toldStatus := by
  rw [toldStatus, toldStatus, htold, hgaveUp]

theorem gaveUp_of_run (hrun : l.run = some run) : l.gaveUp = false := by
  simp [gaveUp, hrun]

theorem gaveUp_of_waiting {rest : List DependencyEdge} {looked : Bool}
    (hphase : l.phase = .waiting rest looked) : l.gaveUp = false := by
  unfold gaveUp
  split
  · rename_i heq
    cases hphase.symm.trans heq
  · rfl

theorem gaveUp_of_ending {effects : List Effect} (hrun : l.run = none)
    (hphase : l.phase = .ending effects) : l.gaveUp = decide (.giveUp ∉ effects) := by
  rw [gaveUp, hrun, hphase]

theorem toldStatus_of_run (hrun : l.run = some run) :
    l.toldStatus = l.told.foldl DependencyStatus.observe .new := by
  have hgone := DependencyStatus.gone_foldl_observe l.told .new
  rw [toldStatus, gaveUp_of_run hrun, show false = DependencyStatus.new.gone from rfl, ← hgone]

/-- A relay that owes no write has told all it took. -/
theorem Telling.toldStatus_eq (h : l.Telling) (hrun : l.run = some run)
    (hwrite : l.effects.filter Effect.isWrite = []) : l.toldStatus = run.tracker := by
  have hany : l.effects.any Effect.isWrite = false := by
    simpa [List.filter_eq_nil_iff] using hwrite
  rw [toldStatus_of_run hrun, told_of_run hrun, h.tracker run hrun, hany]
  rfl

theorem telling_new (spawned : Task) : (TaskLocal.new spawned).Telling := by
  constructor <;> simp [TaskLocal.new, effects]

/-- A task that has no run yet goes on to wait, or to give up. -/
theorem Telling.of_waiting (h : l.Telling) {rest : List DependencyEdge} {looked : Bool}
    (hphase : l.phase = .waiting rest looked) {phase : TaskPhase}
    (hending : ∀ effects, phase = .ending effects →
      (∀ effect ∈ effects, effect.isWrite = false) ∧ effects.count .giveUp ≤ 1) :
    { l with phase := phase }.Telling where
  waiting _ _ _ := h.waiting rest looked hphase
  idle := h.idle
  tracker := h.tracker
  writes := h.writes
  relays := h.relays
  ending effects he :=
    ⟨(hending effects he).1, (hending effects he).2, absurd (h.waiting rest looked hphase)⟩

/-- A task or its relay takes a step, and the same holds of what it has left to do. -/
theorem Telling.step (h : l.Telling) (hstep : World.LocalStep w task spawned l action next) :
    next.1.Telling := by
  cases hstep with
  | ready hphase | pending hphase => exact h.of_waiting hphase (by simp)
  | gone hphase | lost hphase => exact h.of_waiting hphase (by simp [blocked, Effect.isWrite])
  | heed hphase => exact h.of_waiting hphase (by simp [shutDown, Effect.isWrite])
  | started hphase =>
    refine ⟨by simp, by simp, ?_, by simp [effects], by simp [effects], by simp⟩
    rintro _ ⟨⟩
    rfl
  | run hrun hreceive _ hrunStep =>
    obtain ⟨htracker, hreceived⟩ := Run.receipts_of_step hrunStep hreceive
    refine ⟨fun rest looked hphase => ?_, by simp, ?_, ?_, h.relays, fun effects hphase => ?_⟩
    · exact absurd ((h.waiting rest looked hphase).symm.trans hrun) (by simp)
    · rintro _ ⟨⟩
      rw [htracker, hreceived, h.tracker _ hrun]
    · rintro _ ⟨⟩
      rw [htracker]
      exact h.writes _ hrun
    · obtain ⟨hwrite, hcount, hgiveUp⟩ := h.ending effects hphase
      exact ⟨hwrite, hcount, fun _ => hgiveUp (by simp [hrun])⟩
  | receive hrelay hrun hchannel hrunStep =>
    rename_i run _ event _
    obtain rfl := receive_eq hchannel hrunStep
    refine ⟨fun rest looked hphase => ?_, by simp, ?_, ?_, ?_, fun effects hphase => ?_⟩
    · exact absurd ((h.waiting rest looked hphase).symm.trans hrun) (by simp)
    · rintro _ ⟨⟩
      rw [List.map_append, List.foldl_append, ← h.tracker _ hrun]
      rfl
    · rintro _ ⟨⟩
      exact (filter_isWrite_relayEffects run.tracker event.2).imp_left And.right
    · exact giveUp_notMem_relayEffects run.tracker event.2
    · obtain ⟨hwrite, hcount, hgiveUp⟩ := h.ending effects hphase
      exact ⟨hwrite, hcount, fun _ => hgiveUp (by simp [hrun])⟩
  | relay hrelay =>
    rename_i effect rest
    have heffects : l.effects = effect :: rest := by rw [effects, hrelay, Option.getD_some]
    refine ⟨h.waiting, fun hrun => ?_, h.tracker, fun run hrun => ?_, fun hmem => ?_, h.ending⟩
    · cases (h.idle hrun).symm.trans hrelay
    · have hwrites := h.writes run hrun
      rw [heffects, List.filter_cons] at hwrites
      simp only [effects, Option.getD_some]
      split at hwrites
      · exact .inl (List.cons.inj (hwrites.resolve_left (List.cons_ne_nil _ _))).2
      · exact hwrites
    · exact h.relays (heffects ▸ List.mem_cons_of_mem _ hmem)
  | close =>
    exact ⟨h.waiting, fun _ => rfl, h.tracker, by simp [effects], by simp [effects], h.ending⟩
  | wrapUp hphase hrun =>
    refine ⟨?_, h.idle, h.tracker, h.writes, h.relays, ?_⟩
    · unfold wrappedUp
      split <;> simp
    · unfold wrappedUp
      split <;> simp [Effect.isWrite]
  | conclude hphase =>
    obtain ⟨hwrite, hcount, hgiveUp⟩ := h.ending _ hphase
    refine ⟨by simp, h.idle, h.tracker, h.writes, h.relays, ?_⟩
    rintro _ ⟨⟩
    refine ⟨fun effect hmem => hwrite effect (List.mem_cons_of_mem _ hmem),
      (List.count_le_count_cons).trans hcount, fun hrun hmem => ?_⟩
    exact hgiveUp hrun (List.mem_cons_of_mem _ hmem)

/-- The relay writes what it has derived, and says nothing else. -/
theorem Telling.toldStatus_relay (h : l.Telling) {effect : Effect} {rest : List Effect}
    (hrelay : l.relay = some (effect :: rest)) (hnext : { l with relay := some rest }.Telling) :
    ({ l with relay := some rest } : TaskLocal).toldStatus = effect.applied l.toldStatus := by
  have heffects : l.effects = effect :: rest := by rw [effects, hrelay, Option.getD_some]
  obtain ⟨run, hrun⟩ : ∃ run, l.run = some run := by
    refine Option.ne_none_iff_exists'.mp fun hrun => ?_
    cases (h.idle hrun).symm.trans hrelay
  cases hwrite : effect.isWrite with
  | true =>
    have hwrites := (h.writes run hrun).resolve_left (by simp [heffects, hwrite])
    rw [heffects, List.filter_cons_of_pos hwrite] at hwrites
    obtain ⟨rfl, hrest⟩ := List.cons.inj hwrites
    exact hnext.toldStatus_eq hrun hrest
  | false =>
    have hgiveUp : effect ≠ .giveUp := by
      rintro rfl
      exact h.relays (heffects ▸ List.mem_cons_self)
    rw [Effect.applied_of_not_isWrite hwrite hgiveUp]
    refine toldStatus_congr ?_ ((gaveUp_of_run hrun).trans (gaveUp_of_run hrun).symm)
    rw [told, told, heffects, List.any_cons, hwrite, Bool.false_or]
    rfl

/-- Of what a task does at its end, only giving up is made known. -/
theorem Telling.toldStatus_conclude (h : l.Telling) {effect : Effect} {rest : List Effect}
    (hphase : l.phase = .ending (effect :: rest)) :
    ({ l with phase := .ending rest } : TaskLocal).toldStatus = effect.applied l.toldStatus := by
  obtain ⟨hwrite, hcount, hgiveUp⟩ := h.ending _ hphase
  have htold : ({ l with phase := .ending rest } : TaskLocal).told = l.told := told_congr rfl rfl
  by_cases heffect : effect = .giveUp
  · subst heffect
    have hrun : l.run = none := by
      by_contra hrun
      exact hgiveUp hrun List.mem_cons_self
    have hrest : .giveUp ∉ rest := by
      rw [List.count_cons_self] at hcount
      exact List.count_eq_zero.mp (by omega)
    have hgone : ({ l with phase := .ending rest } : TaskLocal).gaveUp = true :=
      (gaveUp_of_ending (l := { l with phase := .ending rest }) hrun rfl).trans
        (decide_eq_true hrest)
    rw [toldStatus, htold, hgone]
    rfl
  · rw [Effect.applied_of_not_isWrite (hwrite _ List.mem_cons_self) heffect]
    refine toldStatus_congr htold ?_
    rcases hrun : l.run with _ | run
    · refine (gaveUp_of_ending rfl rfl).trans ?_
      rw [gaveUp_of_ending hrun hphase]
      simp [Ne.symm heffect]
    · rw [gaveUp_of_run hrun]
      exact gaveUp_of_run rfl

/-- What a task has made known changes by the effects it has on its cell. -/
theorem Telling.toldStatus_step (h : l.Telling)
    (hstep : World.LocalStep w task spawned l action next) :
    next.1.toldStatus = Effect.applyAll next.2.toList l.toldStatus := by
  have hnext := h.step hstep
  cases hstep with
  | ready hphase | pending hphase =>
    refine toldStatus_congr (told_congr rfl rfl) ?_
    rw [gaveUp_of_waiting hphase]
    exact gaveUp_of_waiting rfl
  | gone hphase | lost hphase | heed hphase =>
    refine toldStatus_congr (told_congr rfl rfl) ?_
    rw [gaveUp_of_waiting hphase]
    simp [gaveUp, h.waiting _ _ hphase, blocked, shutDown]
  | started hphase =>
    refine toldStatus_congr ?_ (gaveUp_of_waiting hphase).symm
    rw [told, told, h.waiting _ _ hphase]
    rfl
  | run hrun hreceive _ hrunStep =>
    refine toldStatus_congr ?_ ((gaveUp_of_run rfl).trans (gaveUp_of_run hrun).symm)
    rw [told_of_run hrun, told_of_run rfl, (Run.receipts_of_step hrunStep hreceive).2]
    rfl
  | receive hrelay hrun hchannel hrunStep =>
    rename_i run _ event _
    obtain rfl := receive_eq hchannel hrunStep
    have hidle : l.effects.filter Effect.isWrite = [] := by
      rw [effects, hrelay]
      rfl
    rw [Option.toList_none, h.toldStatus_eq hrun hidle]
    rcases filter_isWrite_relayEffects run.tracker event.2 with ⟨hsame, hnone⟩ | hwrite
    · exact (hnext.toldStatus_eq rfl hnone).trans hsame
    · -- The write is due, so that the event was not passed on yet.
      have hany : (relayEffects run.tracker event.2).any Effect.isWrite := by
        refine List.any_eq_true.mpr ⟨.write (run.tracker.observe event.2), ?_, rfl⟩
        exact (List.mem_filter.mp (hwrite ▸ List.mem_singleton_self _)).1
      rw [toldStatus_of_run rfl, told_of_run rfl]
      simp only [effects, Option.getD_some, hany, if_true, List.map_append, List.map_cons,
        List.map_nil, List.dropLast_concat]
      exact (h.tracker run hrun).symm
  | relay hrelay =>
    rw [Option.toList_some, Effect.applyAll_singleton]
    exact h.toldStatus_relay hrelay hnext
  | close hrelay =>
    refine toldStatus_congr ?_ rfl
    rw [told, told]
    simp only [effects, hrelay]
    rfl
  | wrapUp hphase hrun =>
    have hnext : ({ l with phase := wrappedUp ‹_› } : TaskLocal).gaveUp = false :=
      gaveUp_of_run hrun
    exact toldStatus_congr (told_congr rfl rfl) (hnext.trans (gaveUp_of_run hrun).symm)
  | conclude hphase =>
    rw [Option.toList_some, Effect.applyAll_singleton]
    exact h.toldStatus_conclude hphase

end TaskLocal

/-! ### The start -/

namespace Stack

variable {w : Stack} {name : ServiceName} {stopped : Finset ServiceName}

/-- What the start of the planned services has done so far: each task has a slot of its own, of a
service that is not held back, whose status says nothing yet. -/
structure Starts (stopped : Finset ServiceName) (w : Stack) : Prop where
  cell_inj : ∀ {name₁ name₂ : ServiceName} {slot₁ slot₂ : Slot}, w.slots[name₁]? = some slot₁ →
    w.slots[name₂]? = some slot₂ → slot₁.shared = slot₂.shared → name₁ = name₂
  slot : ∀ spawned ∈ w.tasks, ∃ name slot, name ∉ stopped ∧ w.slots[name]? = some slot ∧
    slot.shared = spawned.shared
  status : ∀ spawned ∈ w.tasks, ∀ cell, w.cells[spawned.shared]? = some cell → cell.status = .new

theorem Starts.publishStopped (h : w.Starts stopped) (hname : name ∈ stopped) :
    (w.publishStopped name).Starts stopped := by
  unfold Stack.publishStopped
  split
  · exact h
  · rename_i slot hs
    refine ⟨h.cell_inj, h.slot, fun spawned hmem c' hc' => ?_⟩
    have hne : slot.shared ≠ spawned.shared := by
      intro he
      obtain ⟨other, s, hother, hslot, hshared⟩ := h.slot spawned hmem
      exact hother (h.cell_inj hs hslot (he.trans hshared.symm) ▸ hname)
    rw [List.getElem?_modify_ne _ _ hne] at hc'
    exact h.status spawned hmem c' hc'

/-- A spawn leaves every slot its cell. -/
theorem exists_slot_of_spawn {slot s : Slot} {other : ServiceName} (hs : w.slots[name]? = some slot)
    (hother : (w.spawn name slot).slots[other]? = some s) :
    ∃ s₀, w.slots[other]? = some s₀ ∧ s₀.shared = s.shared := by
  simp only [Stack.spawn, TreeMap.getElem?_insert] at hother
  split_ifs at hother with he
  · cases hother
    exact ⟨slot, he ▸ hs, rfl⟩
  · exact ⟨s, hother, rfl⟩

theorem exists_slot_spawn {slot s : Slot} {other : ServiceName} (hs : w.slots[name]? = some slot)
    (hother : w.slots[other]? = some s) :
    ∃ s', (w.spawn name slot).slots[other]? = some s' ∧ s'.shared = s.shared := by
  simp only [Stack.spawn, TreeMap.getElem?_insert]
  split_ifs with he
  · subst he
    obtain rfl := Option.some.inj (hs.symm.trans hother)
    exact ⟨_, rfl, rfl⟩
  · exact ⟨s, hother, rfl⟩

theorem Starts.spawn (h : w.Starts stopped) (hname : name ∉ stopped) {slot : Slot}
    (hs : w.slots[name]? = some slot) : (w.spawn name slot).Starts stopped := by
  refine ⟨fun h₁ h₂ he => ?_, fun spawned hmem => ?_, fun spawned hmem c' hc' => ?_⟩
  · obtain ⟨_, hs₁, hshared₁⟩ := exists_slot_of_spawn hs h₁
    obtain ⟨_, hs₂, hshared₂⟩ := exists_slot_of_spawn hs h₂
    exact h.cell_inj hs₁ hs₂ (hshared₁.trans (he.trans hshared₂.symm))
  · obtain ⟨other, s, hother, hslot, hshared⟩ : ∃ name s, name ∉ stopped ∧
        w.slots[name]? = some s ∧ s.shared = spawned.shared := by
      rcases List.mem_append.mp hmem with hmem | hmem
      · exact h.slot spawned hmem
      · rw [List.mem_singleton.mp hmem]
        exact ⟨name, slot, hname, hs, rfl⟩
    obtain ⟨s', hs', hshared'⟩ := exists_slot_spawn hs hslot
    exact ⟨other, s', hother, hs', hshared'.trans hshared⟩
  · simp only [Stack.spawn, List.getElem?_modify] at hc'
    obtain ⟨c, hc, rfl⟩ := Option.map_eq_some_iff.mp hc'
    split_ifs with he
    · rfl
    · rcases List.mem_append.mp hmem with hmem | hmem
      · exact h.status spawned hmem c hc
      · rw [List.mem_singleton.mp hmem] at he
        exact absurd rfl he

theorem starts_initial (options : StackOptions) (config : ValidConfig) (plan : StartPlan config.1)
    (stopped : Finset ServiceName) :
    (Stack.initial options config plan.1 stopped).Starts stopped := by
  let w := plan.1.foldl insertPlanned (Stack.empty options config plan.1)
  have hI : w.rewireDependencies.Inv := (Inv.insertAll options config plan).1.rewireDependencies
  have htasks : w.tasks = [] := by
    refine List.foldlRecOn (motive := fun w : Stack => w.tasks = []) plan.1 insertPlanned rfl
      fun s hs name _ => ?_
    unfold insertPlanned
    split
    · rw [insertSlot, debugAssert_eq]
      exact hs
    · exact hs
  have hnone : ∀ spawned, spawned ∉ w.rewireDependencies.tasks := by
    intro spawned hmem
    rw [show w.rewireDependencies.tasks = [] from htasks] at hmem
    cases hmem
  refine List.foldlRecOn (motive := Starts stopped) plan.1 (startService · stopped)
    ⟨hI.slot_cell_inj, fun spawned hmem => absurd hmem (hnone spawned),
      fun spawned hmem => absurd hmem (hnone spawned)⟩ fun s hs name _ => ?_
  unfold startService
  split_ifs with hname
  · exact hs.publishStopped hname
  · split
    · rename_i slot hslot
      exact hs.spawn hname hslot
    · exact hs

end Stack

namespace World

variable {w w' : World} {task : ℕ} {spawned : Task} {l : TaskLocal} {action : TaskAction}
  {next : TaskLocal × Option Effect} {name : ServiceName}

/-! ### The invariants -/

theorem telling_of_reachable {C : World → WorldAction → World → Prop}
    (h : worldSystem.Reachable C w) :
    ∀ (task : ℕ) (l : TaskLocal), w.locals[task]? = some l → l.Telling := by
  refine h.invariant (I := fun w => ∀ (task : ℕ) (l : TaskLocal), w.locals[task]? = some l →
    l.Telling) ?_ fun {u action v} _ hT _ hstep => ?_
  · rintro w₀ ⟨stack, -, rfl⟩ task l hl
    simp only [World.initial, List.getElem?_map, Option.map_eq_some_iff] at hl
    obtain ⟨spawned, -, rfl⟩ := hl
    exact TaskLocal.telling_new spawned
  · rcases step_cases hstep with ⟨_, stack, -, -, -, rfl⟩ | ⟨_, _, -, rfl⟩ |
      ⟨task, taskAction, spawned, l, rfl, -, hl, hs⟩
    · intro task l hl
      rcases locals_withStack_cases hl with hl | ⟨-, spawned, -, rfl⟩
      · exact hT task l hl
      · exact TaskLocal.telling_new spawned
    · exact hT
    · obtain ⟨next, hnext⟩ := exists_taskStep hs
      intro other l' hl'
      rw [hnext.locals_eq, List.getElem?_set] at hl'
      split_ifs at hl'
      · cases hl'
        exact (hT task l hl).step hnext.localStep
      · exact hT other l' hl'

/-- The cell of a task holds what it has told, unless its slot was given to a later one. -/
def Told (w : World) : Prop :=
  ∀ (task : ℕ) (spawned : Task) (l : TaskLocal) (cell : Cell), w.stack.tasks[task]? = some spawned →
    ¬ w.stack.Superseded task spawned → w.locals[task]? = some l →
    w.stack.cells[spawned.shared]? = some cell → cell.status = l.toldStatus

theorem Told.stepTask (h : w.Told) (hretired : w.Retired) (htelling : l.Telling)
    (htask : w.stack.tasks[task]? = some spawned) (hl : w.locals[task]? = some l)
    (hstep : TaskStep w w' task spawned l action next) : w'.Told := by
  intro other spawned' l' c' hother hlast hl' hc'
  rw [Stack.Superseded, hstep.tasks_eq] at hlast
  rw [hstep.tasks_eq] at hother
  obtain ⟨c, hc, hstatus⟩ := hstep.status_eq hc'
  rw [hstep.locals_eq, List.getElem?_set] at hl'
  split_ifs at hl' with he hlt
  · subst he
    cases hl'
    obtain rfl := Option.some.inj (htask.symm.trans hother)
    rw [hstatus, if_pos rfl, h task spawned l c htask hlast hl hc]
    exact (htelling.toldStatus_step hstep.localStep).symm
  · have hsame : c'.status = c.status := by
      rw [hstatus]
      split_ifs with hshared
      · -- The step is one of an earlier task, which has nothing left to do.
        have hsuper : w.stack.Superseded task spawned := by
          refine ⟨htask, other, spawned', lt_of_le_of_ne (not_lt.mp fun hlt => ?_) he, hother,
            hshared.symm⟩
          exact hlast ⟨hother, task, spawned, hlt, htask, hshared⟩
        obtain ⟨l₀, hl₀, hphase, hrelay⟩ := hretired task spawned hsuper
        obtain rfl := Option.some.inj (hl.symm.trans hl₀)
        rw [(hstep.localStep.of_ended hphase hrelay).1]
        rfl
      · rfl
    exact hsame.trans (h other spawned' l' c hother hlast hl' hc)

theorem Told.withStack (h : w.Told) (hI : w.stack.Inv) (hsettled : w.Settled)
    {stackAction : StackAction} {stack : Stack} (houtside : stackAction.isOutside)
    (hstep : w.stack.step stackAction = some stack) : (w.withStack stack).Told := by
  intro task spawned l cell htask hlast hl hcell
  change stack.tasks[task]? = some spawned at htask
  have hkept := (Stack.keepsCells_of_step hI houtside hstep).1
  rcases locals_withStack_cases hl with hl | ⟨hge, spawned', htask', rfl⟩
  · have hlt := hsettled.length_eq ▸ (List.getElem?_eq_some_iff.mp hl).1
    have hold := (Stack.getElem?_of_isPrefix hkept.tasks hlt).symm.trans htask
    rcases hkept.cells _ (hI.task_cell hold) with heq | ⟨later, spawned', hge, hlater, hshared⟩
    · refine h task spawned l cell hold ?_ hl (heq.symm.trans hcell)
      rintro ⟨-, later, spawned', hlt', hlater, hshared⟩
      have hlater' := (Stack.getElem?_of_isPrefix hkept.tasks
        (List.getElem?_eq_some_iff.mp hlater).1).trans hlater
      exact hlast ⟨htask, later, spawned', hlt', hlater', hshared⟩
    · exact absurd ⟨htask, later, spawned', hlt.trans_le hge, hlater, hshared⟩ hlast
  · obtain rfl := Option.some.inj (htask.symm.trans htask')
    have hspawns : w.stack.SpawnsOnto stack spawned.shared :=
      ⟨task, spawned, hsettled.length_eq ▸ hge, htask, rfl⟩
    exact (Stack.traces_of_step hI houtside hstep).wiped (.inl hspawns) hcell

/-- **What a cell holds**, in every run in which a task is spawned for a slot only when the relays of
all earlier tasks of that slot have ended. -/
theorem told_of_reachable (h : worldSystem.Reachable RelaysEnded w) : w.Told := by
  refine h.invariant (I := Told) ?_ fun {u action v} hu hT _ hstep => ?_
  · rintro w₀ ⟨stack, ⟨options, config, plan, stopped, rfl⟩, rfl⟩ task spawned l cell htask - hl hc
    simp only [World.initial, List.getElem?_map, Option.map_eq_some_iff] at hl
    obtain ⟨_, -, rfl⟩ := hl
    exact (Stack.starts_initial options config plan stopped).status spawned
      (List.mem_of_getElem? htask) cell hc
  · rcases step_cases hstep with ⟨stackAction, stack, rfl, houtside, hs, rfl⟩ | ⟨_, _, -, rfl⟩ |
      ⟨task, taskAction, spawned, l, -, htask, hl, hs⟩
    · exact hT.withStack (inv_of_reachable hu) (settled_of_reachable hu) houtside hs
    · exact hT
    · obtain ⟨next, hnext⟩ := exists_taskStep hs
      exact hT.stepTask (retired_of_reachable hu) (telling_of_reachable hu task l hl) htask hl hnext

/-- The task of a slot was spawned after the other tasks of the service. -/
def Latest (w : World) : Prop :=
  ∀ (name : ServiceName) (live task : ℕ) (spawned : Task), w.stack.live name = some live →
    w.stack.tasks[task]? = some spawned → spawned.service.name = name → task ≤ live

theorem latest_of_reachable {C : World → WorldAction → World → Prop}
    (h : worldSystem.Reachable C w) : w.Latest := by
  refine h.invariant (I := Latest) ?_ fun {u action v} hu hL _ hstep => ?_
  · rintro w₀ hinit name live task spawned hlive htask hname
    have hI := inv_of_reachable (.initial hinit : worldSystem.Reachable AnyStep w₀)
    obtain ⟨stack, ⟨options, config, plan, stopped, rfl⟩, rfl⟩ := hinit
    have hout : task ∉ (World.initial (Stack.initial options config plan.1 stopped)).stack.finished := by
      simp [World.initial, (Stack.logs_initial options config plan stopped).1]
    have hlive' := hI.live_iff.mpr ⟨spawned, htask, hname, .inl hout⟩
    exact (Option.some.inj (hlive'.symm.trans hlive)).le
  · rcases step_cases hstep with ⟨stackAction, stack, rfl, houtside, hs, rfl⟩ | ⟨_, _, -, rfl⟩ |
      ⟨task, taskAction, spawned, l, -, htask, hl, hs⟩
    · have hI := inv_of_reachable hu
      rintro name live task spawned hlive htask rfl
      change stack.tasks[task]? = some spawned at htask
      change stack.live spawned.service.name = some live at hlive
      by_cases hnew : task < u.stack.tasks.length
      · have hold := (Stack.getElem?_of_isPrefix (Stack.step_grows hI hs).1 hnew).symm.trans htask
        by_cases hlt : live < u.stack.tasks.length
        · have hout := ((hI.step hs).live_iff.mp hlive).of_step hI hs hlt
          exact hL _ live task spawned (hI.live_iff.mpr hout) hold rfl
        · exact (hnew.trans_le (not_lt.mp hlt)).le
      · -- A task that was just spawned is that of its slot.
        obtain ⟨slot, hslot, hhandle, -⟩ :=
          Stack.slot_of_spawned hI houtside hs (not_lt.mp hnew) htask
        rw [Stack.live_of_slot hslot, hhandle] at hlive
        exact (Option.some.inj hlive).le
    · exact hL
    · obtain ⟨next, hnext⟩ := exists_taskStep hs
      intro name live task spawned hlive htask hname
      rw [Stack.live_congr hnext.slots_eq] at hlive
      rw [hnext.tasks_eq] at htask
      exact hL name live task spawned hlive htask hname

/-- The cell of a slot holds what its task has told. -/
theorem status_eq_of_slot (h : worldSystem.Reachable RelaysEnded w) {slot : Slot} {live : ℕ}
    {cell : Cell} (hs : w.stack.slots[name]? = some slot) (hhandle : slot.handle = some live)
    (hl : w.locals[live]? = some l) (hcell : w.stack.cells[slot.shared]? = some cell) :
    cell.status = l.toldStatus := by
  have hI := inv_of_reachable h
  have hlive : w.stack.live name = some live := (Stack.live_of_slot hs).trans hhandle
  obtain ⟨spawned, htask, hname, -⟩ := hI.live_iff.mp hlive
  have hshared := hI.live_cell hs hhandle htask
  refine told_of_reachable h live spawned l cell htask ?_ hl (hshared ▸ hcell)
  rintro ⟨-, later, spawned', hlt, hlater, hshared'⟩
  have hname' := (hI.task_cell_task hlater htask hshared').trans hname
  exact absurd (latest_of_reachable h name live later spawned' hlive hlater hname')
    (not_le.mpr hlt)

end World

end Servicrab
