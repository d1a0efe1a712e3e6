import Servicrab.Tasks.Told

/-!
# Waits and restarts

A service that waits for its dependencies is told `Blocked` when one of them has stopped for good.
The task of a dependency that is only being restarted publishes the same stop, before the
supervisor takes its report and wipes the status, so that a dependent that looks in between is
turned away. Nothing else turns a waiting task away over a restart: neither a look before the stop
was told, nor one after the respawn, in whatever order the tasks of a reload end.

## Main definitions

* `Stack.restarting`: the stop of a service is only the first half of a restart.
* `World.TurnsAway`: a step tells a waiting task that it is blocked.
* `World.SparesWaits`: what is asked of every step.
* `World.halfRestarted`, `World.LooksApart`: between the stop that was told and the respawn.

## Main results

* `World.sparesWaits_iff`.
-/

open TransitionSystem (AnyStep)

namespace Servicrab

/-- Whether the stop of the service of an edge is only the first half of a restart. The edge of a
task that was spawned for an earlier slot of the service reads another cell. -/
def Stack.restarting (w : Stack) (edge : DependencyEdge) : Bool :=
  w.slots[edge.name]?.any fun slot => slot.shared = edge.status && slot.restartWhenStopped

/-- Whether the task has told that its service has ended, by a final state or by giving up, and not
in a way that meets the condition. -/
def TaskLocal.toldEnd (l : TaskLocal) (condition : DependencyCondition) : Bool :=
  (l.gaveUp || l.toldStatus.state.isTerminal) && l.toldStatus.readiness condition ≠ .ready

theorem DependencyStatus.concluded_of_gone {status : DependencyStatus}
    {condition : DependencyCondition} (h : status.readiness condition = .gone) :
    status.Concluded := by
  by_cases hgone : status.gone
  · exact .inl hgone
  · right
    unfold DependencyStatus.readiness at h
    rw [if_neg hgone] at h
    cases hs : status.state with
    | stopped | exited | failed => rfl
    | running =>
      cases condition <;> simp only [hs] at h <;> first | cases h | split_ifs at h
    | _ => cases condition <;> simp only [hs] at h <;> cases h

theorem TaskLocal.toldEnd_iff {l : TaskLocal} {condition : DependencyCondition} :
    l.toldEnd condition ↔ l.toldStatus.readiness condition = .gone := by
  have hconcluded : (l.gaveUp || l.toldStatus.state.isTerminal) ↔ l.toldStatus.Concluded := by
    rw [Bool.or_eq_true]
    rfl
  rw [toldEnd, Bool.and_eq_true, hconcluded, decide_eq_true_eq]
  constructor
  · rintro ⟨hconcluded, hready⟩
    cases hread : l.toldStatus.readiness condition with
    | ready => exact absurd hread hready
    | gone => rfl
    | pending => exact absurd hread (hconcluded.readiness condition).1
  · intro hgone
    exact ⟨DependencyStatus.concluded_of_gone hgone, by rw [hgone]; exact nofun⟩

namespace World

variable {w w' : World} {action : WorldAction} {task : ℕ} {edge : DependencyEdge}

/-- A task waits, and the edge is the next one it looks at. -/
def WaitsFor (w : World) (task : ℕ) (edge : DependencyEdge) : Prop :=
  ∃ l rest looked, w.locals[task]? = some l ∧ l.phase = .waiting (edge :: rest) looked

/-- Between two states a waiting task was told that it is blocked by the service of the edge, which
it will report as `Skipped`. -/
def TurnsAway (w w' : World) (task : ℕ) (edge : DependencyEdge) : Prop :=
  w.WaitsFor task edge ∧
    ∃ l', w'.locals[task]? = some l' ∧ l'.phase = TaskLocal.blocked edge.name

/-- No step turns a waiting task away over a restart, neither over the stop that comes first nor
over what is left of it once the service was spawned again. -/
structure SparesWaits (w : World) (action : WorldAction) (w' : World) : Prop where
  restarting : ∀ {task : ℕ} {edge : DependencyEdge}, w.TurnsAway w' task edge →
    ¬ w.stack.restarting edge
  /-- The end over which a task is turned away was told by the current task of the service. -/
  current : ∀ {task live : ℕ} {edge : DependencyEdge} {slot : Slot} {l : TaskLocal},
    w.TurnsAway w' task edge → w.stack.slots[edge.name]? = some slot → slot.shared = edge.status →
    slot.handle = some live → w.locals[live]? = some l → l.toldEnd edge.condition
  /-- A task whose slot was given to a later one leaves the status and the process group alone. -/
  stale : ∀ {task : ℕ} {spawned : Task} {taskAction : TaskAction},
    action = .task task taskAction → w.stack.Superseded task spawned →
    w'.stack.cells[spawned.shared]? = w.stack.cells[spawned.shared]?

/-- Whether the service of the edge is being restarted, and its old task has told that it ended. -/
def halfRestarted (w : World) (edge : DependencyEdge) : Bool :=
  w.stack.slots[edge.name]?.any fun slot =>
    slot.shared = edge.status && slot.restartWhenStopped &&
      slot.handle.any fun task => w.locals[task]?.any fun l => l.toldEnd edge.condition

/-- No task looks at a service between the stop that its old task has told of and the respawn. -/
def LooksApart (w : World) (action : WorldAction) (_ : World) : Prop :=
  ∀ (task : ℕ) (edge : DependencyEdge), action = .task task .look → w.WaitsFor task edge →
    ¬ w.halfRestarted edge

theorem restarting_iff : w.stack.restarting edge ↔ ∃ slot, w.stack.slots[edge.name]? = some slot ∧
    slot.shared = edge.status ∧ slot.restartWhenStopped := by
  simp [Stack.restarting, Option.any_eq_true]

theorem halfRestarted_iff : w.halfRestarted edge ↔ ∃ slot live l,
    w.stack.slots[edge.name]? = some slot ∧ slot.shared = edge.status ∧ slot.restartWhenStopped ∧
      slot.handle = some live ∧ w.locals[live]? = some l ∧ l.toldEnd edge.condition := by
  simp [halfRestarted, Option.any_eq_true, and_assoc]

/-- A task is turned away by what it reads, or because nobody speaks for the service any more. -/
theorem turnsAway_cases (h : w.TurnsAway w' task edge) (hstep : w.step action = some w') :
    (action = .task task .look ∧ ∃ cell, w.stack.cells[edge.status]? = some cell ∧
      cell.status.readiness edge.condition = .gone) ∨ w.hasSender edge.status = false := by
  obtain ⟨⟨l, rest, looked, hl, hphase⟩, l', hl', hblocked⟩ := h
  -- Whoever leaves the task alone does not turn it away.
  have hsame : w'.locals[task]? ≠ some l := by
    rw [hl']
    rintro ⟨⟩
    cases hphase.symm.trans hblocked
  rcases step_cases hstep with ⟨_, stack, -, -, -, rfl⟩ | ⟨_, _, -, rfl⟩ |
    ⟨other, taskAction, spawned, l₀, rfl, -, hl₀, hs⟩
  · exact absurd ((getElem?_withStack (List.getElem?_eq_some_iff.mp hl).1).trans hl) hsame
  · exact absurd hl hsame
  · obtain ⟨next, hnext⟩ := exists_taskStep hs
    rw [hnext.locals_eq] at hl' hsame
    by_cases he : other = task
    · subst he
      obtain rfl := Option.some.inj (hl.symm.trans hl₀)
      rw [List.getElem?_set_self (List.getElem?_eq_some_iff.mp hl).1] at hl'
      obtain rfl := Option.some.inj hl'
      cases hnext.localStep with
      | gone hwaiting hcell hgone =>
        obtain ⟨rfl, -⟩ := List.cons.inj (TaskPhase.waiting.inj (hwaiting.symm.trans hphase)).1
        exact .inl ⟨rfl, _, hcell, hgone⟩
      | lost hwaiting hsender =>
        obtain ⟨rfl, -⟩ := List.cons.inj (TaskPhase.waiting.inj (hwaiting.symm.trans hphase)).1
        exact .inr hsender
      | heed => simp [TaskLocal.shutDown, TaskLocal.blocked] at hblocked
      | run | receive | relay | close => cases hphase.symm.trans hblocked
      | ready | pending | started => cases hblocked
      | wrapUp h | conclude h => cases hphase.symm.trans h
    · rw [List.getElem?_set_ne he] at hsame
      exact absurd hl hsame

/-- As long as a service has its slot, somebody speaks for it. -/
theorem hasSender_of_slot {name : ServiceName} {slot : Slot}
    (hs : w.stack.slots[name]? = some slot) : w.hasSender slot.shared := by
  refine Bool.or_eq_true_iff.mpr (.inl (List.any_eq_true.mpr ⟨(name, slot), ?_, by simp⟩))
  exact Std.ExtTreeMap.mem_toList_iff_getElem?_eq_some.mpr hs

/-- A task of a slot has told of an end when it turns somebody away. -/
theorem toldEnd_of_turnsAway (h : worldSystem.Reachable RelaysEnded w)
    (hstep : w.step action = some w') (haway : w.TurnsAway w' task edge) {slot : Slot} {live : ℕ}
    {l : TaskLocal} (hs : w.stack.slots[edge.name]? = some slot) (hshared : slot.shared = edge.status)
    (hhandle : slot.handle = some live) (hl : w.locals[live]? = some l) :
    action = .task task .look ∧ l.toldEnd edge.condition := by
  rcases turnsAway_cases haway hstep with ⟨rfl, cell, hcell, hgone⟩ | hsender
  · refine ⟨rfl, TaskLocal.toldEnd_iff.mpr ?_⟩
    rw [← status_eq_of_slot h hs hhandle hl (hshared ▸ hcell), hgone]
  · rw [← hshared, hasSender_of_slot hs] at hsender
    cases hsender

/-- The slot of a service that is being restarted has a task. -/
theorem exists_live_of_restarting {C : World → WorldAction → World → Prop}
    (h : worldSystem.Reachable C w) {slot : Slot} (hs : w.stack.slots[edge.name]? = some slot)
    (hflag : slot.restartWhenStopped) :
    ∃ live l, slot.handle = some live ∧ w.locals[live]? = some l := by
  have hI := inv_of_reachable h
  obtain ⟨live, hhandle, -⟩ := hI.flags_asked edge.name slot hs (.inr (.inl hflag))
  obtain ⟨_, htask, -⟩ := hI.live_iff.mp ((Stack.live_of_slot hs).trans hhandle)
  have hlt : live < w.locals.length := by
    rw [(settled_of_reachable h).length_eq]
    exact (List.getElem?_eq_some_iff.mp htask).1
  exact ⟨live, _, hhandle, List.getElem?_eq_getElem hlt⟩

/-- A look at a service that is half restarted turns the task away. -/
theorem turnsAway_of_halfRestarted (h : worldSystem.Reachable RelaysEnded w)
    (hstep : w.step (.task task .look) = some w') (hwaits : w.WaitsFor task edge)
    (hhalf : w.halfRestarted edge) : w.TurnsAway w' task edge := by
  obtain ⟨slot, live, l₀, hs, hshared, -, hhandle, hl₀, htold⟩ := halfRestarted_iff.mp hhalf
  have hwaits' := hwaits
  obtain ⟨l, rest, looked, hl, hphase⟩ := hwaits'
  refine ⟨hwaits, ?_⟩
  rcases step_cases hstep with ⟨_, _, he, -⟩ | ⟨_, _, he, -⟩ |
    ⟨_, _, spawned, l₁, he, -, hl₁, hs₁⟩ <;> cases he
  obtain rfl := Option.some.inj (hl.symm.trans hl₁)
  obtain ⟨next, hnext⟩ := exists_taskStep hs₁
  have hread {cell : Cell} (hcell : w.stack.cells[edge.status]? = some cell) :
      cell.status.readiness edge.condition = .gone := by
    rw [status_eq_of_slot h hs hhandle hl₀ (hshared ▸ hcell)]
    exact TaskLocal.toldEnd_iff.mp htold
  refine ⟨next.1, ?_, ?_⟩
  · rw [hnext.locals_eq, List.getElem?_set_self (List.getElem?_eq_some_iff.mp hl).1]
  · cases hnext.localStep with
    | gone hwaiting =>
      obtain ⟨rfl, -⟩ := List.cons.inj (TaskPhase.waiting.inj (hphase.symm.trans hwaiting)).1
      rfl
    | ready hwaiting hcell hready =>
      obtain ⟨rfl, -⟩ := List.cons.inj (TaskPhase.waiting.inj (hphase.symm.trans hwaiting)).1
      cases (hread hcell).symm.trans hready
    | pending hwaiting hcell hpending =>
      obtain ⟨rfl, -⟩ := List.cons.inj (TaskPhase.waiting.inj (hphase.symm.trans hwaiting)).1
      cases (hread hcell).symm.trans hpending
    | started hwaiting => cases hphase.symm.trans hwaiting

/-- A step spares the waits if and only if it is no look at a service that is half restarted. -/
theorem sparesWaits_iff_looksApart (h : worldSystem.Reachable RelaysEnded w)
    (hstep : w.step action = some w') : SparesWaits w action w' ↔ LooksApart w action w' := by
  constructor
  · rintro hspares task edge rfl hwaits hhalf
    obtain ⟨slot, -, -, hs, hshared, hflag, -⟩ := halfRestarted_iff.mp hhalf
    exact hspares.restarting (turnsAway_of_halfRestarted h hstep hwaits hhalf)
      (restarting_iff.mpr ⟨slot, hs, hshared, hflag⟩)
  · intro hlooks
    refine ⟨fun {task edge} haway hrestarting => ?_, fun haway hs hshared hhandle hl => ?_, ?_⟩
    · obtain ⟨slot, hs, hshared, hflag⟩ := restarting_iff.mp hrestarting
      obtain ⟨live, l, hhandle, hl⟩ := exists_live_of_restarting h hs hflag
      obtain ⟨rfl, htold⟩ := toldEnd_of_turnsAway h hstep haway hs hshared hhandle hl
      exact hlooks task edge rfl haway.1
        (halfRestarted_iff.mpr ⟨slot, live, l, hs, hshared, hflag, hhandle, hl, htold⟩)
    · exact (toldEnd_of_turnsAway h hstep haway hs hshared hhandle hl).2
    · rintro task spawned taskAction rfl hsuper
      exact (retired_of_reachable h).noStaleWrites task spawned taskAction w' hsuper hstep

/-- **A restart turns waiting tasks away only in between**: in a run in which no relay is left behind
at a spawn, no waiting task is told that it is blocked over a restart if and only if none looks at a
service between the stop that its old task has told of and the respawn. -/
theorem sparesWaits_iff {w₀ : World} (hinit : worldSystem.init w₀) {actions : List WorldAction}
    (hrelays : worldSystem.Throughout RelaysEnded w₀ actions) :
    worldSystem.Throughout SparesWaits w₀ actions ↔ worldSystem.Throughout LooksApart w₀ actions :=
  TransitionSystem.Throughout.congr (fun hw _ hstep => sparesWaits_iff_looksApart hw hstep)
    (.initial hinit) hrelays

end World

/-! ### A reload to follow -/

/-- The sample configuration with other command lines for both services. -/
def bothChangedConfig : ValidConfig :=
  ⟨configOf [sampleService "db" [] ["--new"], sampleService "web" ["db"] ["--new"]],
    ⟨by decide +kernel, by decide +kernel, by decide +kernel⟩⟩

def bothChangedPlan : StartPlan bothChangedConfig.1 := ⟨[⟨"db"⟩, ⟨"web"⟩], ⟨⟨[], []⟩, rfl⟩⟩

def sampleWorld : World := World.initial sampleStack

theorem init_sampleWorld : worldSystem.init sampleWorld := ⟨_, init_sampleStack, rfl⟩

namespace World

/-- Both services are started, the second one as soon as the first one runs, and a reload changes
them both. -/
def reloadSteps : List WorldAction :=
  .task 0 .look :: runSteps 0 (startProcess 100) ++ relaySteps 0 [2, 2, 2] ++
    [.task 1 .look, .task 1 .look] ++ runSteps 1 (startProcess 200) ++ relaySteps 1 [2, 2, 2] ++
    [.stack (.submit (.reload bothChangedConfig bothChangedPlan 0)), .stack .control]

/-- A task whose service has no monitors stops, and its report is taken. -/
def stopSteps (task : ℕ) : List WorldAction :=
  runSteps task stopProcess ++ relaySteps task [1, 2, 2, 2] ++ [.task task .close] ++
    reportSteps task true

/-- The second service ends first, and is spawned again while the first one is stopping. -/
def webFirst : List WorldAction :=
  reloadSteps ++ stopSteps 1 ++ runSteps 0 (stopProcess.take 3) ++ relaySteps 0 [1, 2]

/-- The first service has stopped, and its relay tells of it. -/
def dbStops : List WorldAction := runSteps 0 (stopProcess.drop 3) ++ relaySteps 0 [2]

/-- Its report is taken, and it is spawned again. -/
def dbReturns : List WorldAction :=
  relaySteps 0 [2] ++ [.task 0 .close] ++ reportSteps 0 true ++
    .task 3 .look :: runSteps 3 (startProcess 300) ++ relaySteps 3 [2, 2, 2]

/-- Evaluates the condition on the relays and the one on the looks. -/
def looksApart (w : World) (action : WorldAction) : Bool :=
  relaysOver w action &&
    match action with
    | .task task .look =>
      match w.locals[task]?.map TaskLocal.phase with
      | some (.waiting (edge :: _) _) => !w.halfRestarted edge
      | _ => true
    | _ => true

theorem looksApart_of_check (w : World) (action : WorldAction) (w' : World)
    (h : looksApart w action) (_ : worldSystem.step w action = some w') :
    LooksApart w action w' := by
  rintro task edge rfl ⟨l, rest, looked, hl, hphase⟩
  simpa [looksApart, hl, hphase] using (Bool.and_eq_true_iff.mp h).2

/-- The new task of the second service looks at the first one while that one is stopping, waits, and
runs its service once the first one is up again. -/
theorem sparesWaits_iff_webFirst :
    (∃ w, worldSystem.run sampleWorld
        (webFirst ++ .task 2 .look :: dbStops ++ dbReturns ++ [.task 2 .look, .task 2 .look]) = some w ∧
      w.stack.tasks.map (fun task => task.service.name.raw) = ["db", "web", "web", "db"] ∧
      w.locals[2]?.map TaskLocal.phase = some .running) ∧
    worldSystem.Throughout SparesWaits sampleWorld
      (webFirst ++ .task 2 .look :: dbStops ++ dbReturns ++ [.task 2 .look, .task 2 .look]) := by
  have hrun : ((worldSystem.checkedRun looksApart sampleWorld
      (webFirst ++ .task 2 .look :: dbStops ++ dbReturns ++ [.task 2 .look, .task 2 .look])).map fun w =>
      decide (w.stack.tasks.map (fun task => task.service.name.raw) = ["db", "web", "web", "db"] ∧
        w.locals[2]?.map TaskLocal.phase = some .running)) = some true := by decide +kernel
  obtain ⟨w, hw, hfacts⟩ := Option.map_eq_some_iff.mp hrun
  have hrelays : worldSystem.Throughout RelaysEnded sampleWorld
      (webFirst ++ .task 2 .look :: dbStops ++ dbReturns ++ [.task 2 .look, .task 2 .look]) :=
    TransitionSystem.throughout_of_checkedRun (fun w action w' h =>
      relaysEnded_of_relaysOver w action w' (Bool.and_eq_true_iff.mp h).1) hw
  exact ⟨⟨w, TransitionSystem.run_of_checkedRun hw, of_decide_eq_true hfacts⟩,
    (sparesWaits_iff init_sampleWorld hrelays).mpr
      (TransitionSystem.throughout_of_checkedRun looksApart_of_check hw)⟩

def dbEdge : DependencyEdge := ⟨⟨"db"⟩, .serviceStarted, 0⟩

/-- The new task of the second service looks once the old task of the first one has published its
stop, and before it has reported. It is turned away, and then the first service is up again. -/
theorem reload_turnsAway : ¬ ∀ w, worldSystem.Reachable AnyStep w → ∀ action w',
    w.step action = some w' → ∀ task edge, w.TurnsAway w' task edge → w.stack.restarting edge →
    ∀ v, worldSystem.Steps AnyStep w' v → ∀ cell, v.stack.cells[edge.status]? = some cell →
      cell.status.readiness edge.condition ≠ .ready := by
  intro hall
  have hrun : ((worldSystem.run sampleWorld (webFirst ++ dbStops)).bind fun w =>
      (w.step (.task 2 .look)).bind fun w' => w.locals[2]?.bind fun l => w'.locals[2]?.bind fun l' =>
        (worldSystem.run w' dbReturns).bind fun v => v.stack.cells[dbEdge.status]?.map fun cell =>
          decide (w.stack.restarting dbEdge ∧ l.phase = .waiting [dbEdge] false ∧
            l'.phase = TaskLocal.blocked dbEdge.name ∧
            cell.status.readiness dbEdge.condition = .ready)) = some true := by decide +kernel
  obtain ⟨w, hw, hrun⟩ := Option.bind_eq_some_iff.mp hrun
  obtain ⟨w', hw', hrun⟩ := Option.bind_eq_some_iff.mp hrun
  obtain ⟨l, hl, hrun⟩ := Option.bind_eq_some_iff.mp hrun
  obtain ⟨l', hl', hrun⟩ := Option.bind_eq_some_iff.mp hrun
  obtain ⟨v, hv, hrun⟩ := Option.bind_eq_some_iff.mp hrun
  obtain ⟨cell, hcell, hfacts⟩ := Option.map_eq_some_iff.mp hrun
  obtain ⟨hrestarting, hbefore, hafter, hready⟩ := of_decide_eq_true hfacts
  have hreach : worldSystem.Reachable AnyStep w :=
    ⟨_, init_sampleWorld, TransitionSystem.steps_of_run hw⟩
  exact hall w hreach _ w' hw' 2 dbEdge ⟨⟨l, _, _, hl, hbefore⟩, l', hl', hafter⟩ hrestarting v
    (TransitionSystem.steps_of_run hv) cell hcell hready

end World

end Servicrab
