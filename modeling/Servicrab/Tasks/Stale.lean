import Servicrab.Runner.Freshness
import Servicrab.Supervisor.Safety
import Servicrab.Tasks.Steps

/-!
# Writes of earlier tasks

A relay that outlives its task writes to the same cell as the tasks that are spawned for the
service later on. `Slot::spawn` wipes the cell before the new task exists, but a relay that was
given up on after `RELAY_DRAIN_TIMEOUT` is still there to write to it. Nothing an earlier task does
reaches the cell in the runs in which its relay has ended by the time of the spawn.

## Main definitions

* `World.NoStaleWrites`: what is asked of every state.
* `World.RelaysEnded`: the guard.
* `World.Retired`: the invariant: a task that was superseded has nothing left to do.

## Main results

* `World.noStaleWrites_of_reachable`.
-/

open TransitionSystem (AnyStep)

namespace Servicrab

namespace Stack

/-- The slot of a task has been given to a later one. -/
def Superseded (w : Stack) (task : ℕ) (spawned : Task) : Prop :=
  w.tasks[task]? = some spawned ∧
    ∃ later spawned', task < later ∧ w.tasks[later]? = some spawned' ∧
      spawned'.shared = spawned.shared

/-- A step spawns a task for the slot of the given cell. -/
def SpawnsOnto (w w' : Stack) (cell : ℕ) : Prop :=
  ∃ task spawned, w.tasks.length ≤ task ∧ w'.tasks[task]? = some spawned ∧ spawned.shared = cell

/-- Of two tasks of the same cell, the first one is superseded. -/
theorem superseded_of_shared {w : Stack} {cell : ℕ} (h : w.tasks.map Task.shared = [cell, cell]) :
    ∃ spawned, w.Superseded 0 spawned ∧ spawned.shared = cell := by
  obtain ⟨first, rest, htasks, hfirst, hrest⟩ := List.map_eq_cons_iff.mp h
  obtain ⟨second, _, hsecond, hshared, -⟩ := List.map_eq_cons_iff.mp hrest
  refine ⟨first, ⟨by simp [htasks], 1, second, Nat.zero_lt_one, ?_, ?_⟩, hfirst⟩
  · simp [htasks, hsecond]
  · rw [hshared, hfirst]

end Stack

namespace World

variable {w w' : World} {action : WorldAction} {task : ℕ} {spawned : Task} {l : TaskLocal}

/-- No step of a task whose slot was given to a later one changes the status or the process group
of the slot. -/
def NoStaleWrites (w : World) : Prop :=
  ∀ (task : ℕ) (spawned : Task) (taskAction : TaskAction) (w' : World),
    w.stack.Superseded task spawned → w.step (.task task taskAction) = some w' →
    w'.stack.cells[spawned.shared]? = w.stack.cells[spawned.shared]?

/-- The guard that a task is spawned for a slot only when the relays of all earlier tasks of that
slot have ended. -/
def RelaysEnded (w : World) (_ : WorldAction) (w' : World) : Prop :=
  ∀ (task : ℕ) (spawned : Task) (l : TaskLocal), w.stack.tasks[task]? = some spawned →
    w.locals[task]? = some l → w.stack.SpawnsOnto w'.stack spawned.shared → l.relay = none

/-- A task whose slot was given to a later one has ended, and so has its relay. -/
def Retired (w : World) : Prop :=
  ∀ (task : ℕ) (spawned : Task), w.stack.Superseded task spawned →
    ∃ l, w.locals[task]? = some l ∧ l.phase = .ending [] ∧ l.relay = none

/-- A task that has ended, with its relay, has no effect any more, and stays as it is. -/
theorem LocalStep.of_ended {taskAction : TaskAction} {next : TaskLocal × Option Effect}
    (hstep : LocalStep w task spawned l taskAction next) (hphase : l.phase = .ending [])
    (hrelay : l.relay = none) :
    next.2 = none ∧ next.1.phase = .ending [] ∧ next.1.relay = none := by
  cases hstep with
  | run => exact ⟨rfl, hphase, hrelay⟩
  | ready h | gone h | pending h | started h | lost h | heed h | wrapUp h | conclude h =>
    exact absurd (hphase.symm.trans h) (by simp)
  | receive h | relay h | close h => exact absurd (hrelay.symm.trans h) (by simp)

/-- A step of a task spawns none. -/
theorem tasks_stepTask {taskAction : TaskAction}
    (hstep : w.stepTask task spawned l taskAction = some w') :
    w'.stack.tasks = w.stack.tasks := by
  obtain ⟨_, -, -, -, heffect⟩ := stepTask_cases hstep
  split at heffect
  · exact (quiet_of_perform heffect).tasks_eq
  · rw [heffect]

theorem Retired.stepTask (h : w.Retired) {taskAction : TaskAction} (hl : w.locals[task]? = some l)
    (hstep : w.stepTask task spawned l taskAction = some w') : w'.Retired := by
  obtain ⟨next, hlocal, hlocals, -, -⟩ := stepTask_cases hstep
  intro other spawned' hsuper
  rw [Stack.Superseded, tasks_stepTask hstep] at hsuper
  obtain ⟨l', hl', hphase, hrelay⟩ := h other spawned' hsuper
  rw [hlocals, List.getElem?_set]
  by_cases he : task = other
  · subst he
    obtain rfl := Option.some.inj (hl.symm.trans hl')
    obtain ⟨-, hphase', hrelay'⟩ := (localStep_of_step hlocal).of_ended hphase hrelay
    exact ⟨next.1, by simp [(List.getElem?_eq_some_iff.mp hl).1], hphase', hrelay'⟩
  · exact ⟨l', by rw [if_neg he, hl'], hphase, hrelay⟩

theorem Retired.withStack (h : w.Retired) (hsettled : w.Settled) (hI : w.stack.Inv)
    {stackAction : StackAction} {stack : Stack} (houtside : stackAction.isOutside)
    (hstep : w.stack.step stackAction = some stack)
    (hguard : RelaysEnded w (.stack stackAction) (w.withStack stack)) :
    (w.withStack stack).Retired := by
  have hfinished := finished_of_isOutside hI houtside hstep
  have hgrow : w.stack.tasks <+: stack.tasks := (Stack.step_grows hI hstep).1
  rintro other spawned' ⟨hother, later, spawned'', hlt, hlater, hshared⟩
  change stack.tasks[other]? = some spawned' at hother
  change stack.tasks[later]? = some spawned'' at hlater
  by_cases hold : later < w.stack.tasks.length
  · rw [Stack.getElem?_of_isPrefix hgrow hold] at hlater
    rw [Stack.getElem?_of_isPrefix hgrow (hlt.trans hold)] at hother
    obtain ⟨l', hl', hrest⟩ := h other spawned' ⟨hother, later, spawned'', hlt, hlater, hshared⟩
    exact ⟨l', (getElem?_withStack (List.getElem?_eq_some_iff.mp hl').1).trans hl', hrest⟩
  · -- The later task was just spawned, so the earlier one has reported.
    have hout : later ∉ stack.finished := by
      rw [hfinished]
      exact fun hmem => hold (hI.finished_lt hmem)
    have hmem : other ∈ w.stack.finished :=
      hfinished ▸ (hI.step hstep).mem_finished hlt hother hlater hshared.symm hout
    have hlen := hI.finished_lt hmem
    rw [Stack.getElem?_of_isPrefix hgrow hlen] at hother
    obtain ⟨l', hl'⟩ : ∃ l', w.locals[other]? = some l' :=
      ⟨_, List.getElem?_eq_getElem (hsettled.length_eq ▸ hlen)⟩
    refine ⟨l', (getElem?_withStack (hsettled.length_eq ▸ hlen)).trans hl', ?_, ?_⟩
    · exact (hsettled.settled hl').ended hmem
    · exact hguard other spawned' l' hother hl' ⟨later, spawned'', not_lt.mp hold, hlater, hshared⟩

theorem retired_of_reachable (h : worldSystem.Reachable RelaysEnded w) : w.Retired := by
  refine h.invariant (I := Retired) ?_ fun {u action v} hu hR hguard hstep => ?_
  · rintro w₀ ⟨stack, hinit, rfl⟩ task spawned ⟨htask, later, spawned', hlt, hlater, hshared⟩
    have hmem := (inv_of_reachable (.initial ⟨stack, hinit, rfl⟩ :
      worldSystem.Reachable AnyStep (World.initial stack))).mem_finished hlt htask hlater
        hshared.symm
    obtain ⟨options, config, plan, stopped, rfl⟩ := hinit
    simp [World.initial, (Stack.logs_initial options config plan stopped).1] at hmem
  · rcases step_cases hstep with ⟨stackAction, stack, rfl, houtside, hs, rfl⟩ | ⟨_, _, -, rfl⟩ |
      ⟨task, taskAction, spawned, l, -, -, hl, hs⟩
    · exact hR.withStack (settled_of_reachable hu) (inv_of_reachable hu) houtside hs hguard
    · exact hR
    · exact hR.stepTask hl hs

theorem Retired.noStaleWrites (h : w.Retired) : w.NoStaleWrites := by
  intro task spawned taskAction w' hsuper hstep
  obtain ⟨l, hl, hphase, hrelay⟩ := h task spawned hsuper
  simp only [step, hsuper.1, hl] at hstep
  obtain ⟨next, hlocal, -, -, heffect⟩ := stepTask_cases hstep
  obtain ⟨hnone, -, -⟩ := (localStep_of_step hlocal).of_ended hphase hrelay
  rw [hnone] at heffect
  rw [show w'.stack = w.stack from heffect]

/-- **No stale writes across respawns**, in every run in which a task is spawned for a slot only
when the relays of all earlier tasks of that slot have ended. -/
theorem noStaleWrites_of_reachable (h : worldSystem.Reachable RelaysEnded w) : w.NoStaleWrites :=
  (retired_of_reachable h).noStaleWrites

end World

/-! ### A restart to follow -/

/-- The probed service alone. -/
def probedConfig : ValidConfig :=
  ⟨configOf [probedService], ⟨by decide +kernel, by decide +kernel, by decide +kernel⟩⟩

def probedPlan : StartPlan probedConfig.1 := ⟨[⟨"db"⟩], ⟨⟨[], []⟩, rfl⟩⟩

def probedWorld : World :=
  World.initial (Stack.initial sampleOptions probedConfig probedPlan.1 ∅)

theorem init_probedWorld : worldSystem.init probedWorld :=
  ⟨_, ⟨sampleOptions, probedConfig, probedPlan, ∅, rfl⟩, rfl⟩

namespace World

/-- Steps of the run of a task. -/
def runSteps (task : ℕ) (actions : List RunAction) : List WorldAction :=
  actions.map fun action => .task task (.run action)

/-- The relay of a task takes as many events as there are numbers, each with that many effects. -/
def relaySteps (task : ℕ) (effects : List ℕ) : List WorldAction :=
  effects.flatMap fun count => .task task .receive :: List.replicate count (.task task .relay)

/-- A task wraps up, and its report is taken. -/
def reportSteps (task : ℕ) (drained : Bool) : List WorldAction :=
  [.task task (.wrapUp drained), .task task .conclude, .task task .conclude, .stack .report]

/-- The service runs, and is then asked to restart. -/
def restartSteps : List WorldAction :=
  .task 0 .look :: runSteps 0 (startProcess 100) ++ relaySteps 0 [2, 2, 2] ++
    [.stack (.submit (.restart ⟨"db"⟩ 0)), .stack .control]

/-- Evaluates the guard: no task that a step adds has a cell some relay still writes to. -/
def relaysOver (w : World) (action : WorldAction) : Bool :=
  match w.step action with
  | some w' => (w'.stack.tasks.drop w.stack.tasks.length).all fun added =>
    (w.stack.tasks.zip w.locals).all fun task =>
      task.1.shared != added.shared || task.2.relay.isNone
  | none => true

theorem relaysEnded_of_relaysOver (w : World) (action : WorldAction) (w' : World)
    (h : relaysOver w action) (hstep : worldSystem.step w action = some w') :
    RelaysEnded w action w' := by
  rintro task spawned l htask hl ⟨later, added, hge, hlater, hshared⟩
  have hstep' : w.step action = some w' := hstep
  have hadded : added ∈ w'.stack.tasks.drop w.stack.tasks.length :=
    List.mem_iff_getElem?.mpr ⟨later - w.stack.tasks.length, by
      rw [List.getElem?_drop, Nat.add_sub_cancel' hge, hlater]⟩
  have hzip : (spawned, l) ∈ w.stack.tasks.zip w.locals :=
    List.mem_of_getElem? (List.getElem?_zip_eq_some.mpr ⟨htask, hl⟩)
  simp only [relaysOver, hstep', List.all_eq_true] at h
  simpa [hshared] using h added hadded (spawned, l) hzip

/-- A restart in which the monitor has noticed the end of the process in time. -/
theorem noStaleWrites_restarted :
    ∃ w, worldSystem.checkedRun relaysOver probedWorld
        (restartSteps ++ runSteps 0 (stopProcess ++ [.monitor 0 .close]) ++
          relaySteps 0 [1, 2, 2, 2] ++ [.task 0 .close] ++ reportSteps 0 true) = some w ∧
      w.stack.tasks.map Task.shared = [0, 0] ∧ w.NoStaleWrites := by
  have hrun : ((worldSystem.checkedRun relaysOver probedWorld
      (restartSteps ++ runSteps 0 (stopProcess ++ [.monitor 0 .close]) ++
        relaySteps 0 [1, 2, 2, 2] ++ [.task 0 .close] ++ reportSteps 0 true)).map fun w =>
      decide (w.stack.tasks.map Task.shared = [0, 0])) = some true := by decide +kernel
  obtain ⟨w, hw, hfacts⟩ := Option.map_eq_some_iff.mp hrun
  refine ⟨w, hw, of_decide_eq_true hfacts, noStaleWrites_of_reachable ?_⟩
  exact ⟨_, init_probedWorld, TransitionSystem.steps_of_checkedRun relaysEnded_of_relaysOver hw⟩

/-- The relay is given up on while a probe is in flight. The probe passes after the respawn, and the
status of the process that was stopped goes to the slot of the new task. -/
theorem lateProbe_writes : ¬ ∀ w, worldSystem.Reachable AnyStep w → w.NoStaleWrites := by
  intro hall
  have hrun : ((worldSystem.run probedWorld
      (restartSteps ++ runSteps 0 (beginProbe 0 ++ stopProcess) ++ relaySteps 0 [1, 2, 2, 2] ++
        reportSteps 0 false ++ runSteps 0 (passProbe 0) ++ [.task 0 .receive])).bind fun w =>
      (w.step (.task 0 .relay)).map fun w' =>
        decide (w.stack.tasks.map Task.shared = [0, 0] ∧
          w.stack.cells[0]? ≠ w'.stack.cells[0]?)) = some true := by decide +kernel
  obtain ⟨w, hw, hrun⟩ := Option.bind_eq_some_iff.mp hrun
  obtain ⟨w', hw', hfacts⟩ := Option.map_eq_some_iff.mp hrun
  obtain ⟨htasks, hcells⟩ := of_decide_eq_true hfacts
  obtain ⟨spawned, hsuper, hshared⟩ := Stack.superseded_of_shared htasks
  have hreach : worldSystem.Reachable AnyStep w :=
    ⟨_, init_probedWorld, TransitionSystem.steps_of_run hw⟩
  exact hcells (hshared ▸ (hall w hreach 0 spawned _ w' hsuper hw').symm)

end World

end Servicrab
