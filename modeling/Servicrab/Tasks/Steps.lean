import Servicrab.Supervisor.Steps
import Servicrab.Tasks.World

/-!
# What a step of the world can do

A step of a task changes its own local state and has at most one effect on the stack; a step of the
supervisor may add tasks. Through the stack alone, a run of the world is a run of the supervisor
loop, so the bookkeeping of the loop carries over. A task that has reported has ended: its relay may
go on, but nothing else of it does.

## Main results

* `World.step_cases`, `World.stepTask_cases`, `World.perform_cases`.
* `World.stack_reachable`, `World.inv_of_reachable`.
* `World.Settled`: the local states agree with what the stack knows of its tasks.
-/

open TransitionSystem (AnyStep)

namespace Servicrab

namespace Stack

variable {w w' : Stack}

/-- Only the end of a task adds to the finished tasks. -/
theorem step_finished (hI : w.Inv) {action : StackAction} (hstep : w.step action = some w')
    (hfinish : ∀ task result, action ≠ .finish task result) : w'.finished = w.finished := by
  by_cases hcontrol : action = .control
  · subst hcontrol
    obtain ⟨_, _, _, _, -, hops, rfl⟩ := hI.ops_control hstep
    exact hops.frame.finished_eq
  by_cases hreport : action = .report
  · subst hreport
    obtain ⟨_, _, _, _, _, _, -, -, -, heffect⟩ := hI.step_report hstep
    cases heffect <;> rfl
  · exact (step_reports hstep hcontrol hreport hfinish).1

/-- Tasks of one cell follow one another: an earlier one has reported before a later one exists. -/
theorem Inv.mem_finished (h : w.Inv) {task later : ℕ} {spawned spawned' : Task} (hlt : task < later)
    (htask : w.tasks[task]? = some spawned) (hlater : w.tasks[later]? = some spawned')
    (hshared : spawned.shared = spawned'.shared) (hout : later ∉ w.finished) :
    task ∈ w.finished := by
  by_contra hnot
  have hname := h.task_cell_task htask hlater hshared
  have hfirst : w.live spawned.service.name = some task :=
    h.live_iff.mpr ⟨spawned, htask, rfl, .inl hnot⟩
  have hsecond : w.live spawned.service.name = some later :=
    h.live_iff.mpr ⟨spawned', hlater, hname.symm, .inl hout⟩
  exact hlt.ne (Option.some.inj (hfirst.symm.trans hsecond))

theorem logs_insertPlanned (w : Stack) (name : ServiceName) :
    (w.insertPlanned name).finished = w.finished ∧
      (w.insertPlanned name).requests = w.requests := by
  unfold insertPlanned
  split
  · exact ⟨finished_debugAssert _ _, requests_debugAssert _ _⟩
  · exact ⟨rfl, rfl⟩

theorem logs_startService (w : Stack) (stopped : Finset ServiceName) (name : ServiceName) :
    (w.startService stopped name).finished = w.finished ∧
      (w.startService stopped name).requests = w.requests := by
  unfold startService publishStopped
  split_ifs
  · split <;> exact ⟨rfl, rfl⟩
  · split <;> exact ⟨rfl, rfl⟩

/-- No task has reported, or was asked to stop, when the loop is entered. -/
theorem logs_initial (options : StackOptions) (config : ValidConfig)
    (plan : StartPlan config.1) (stopped : Finset ServiceName) :
    (Stack.initial options config plan.1 stopped).finished = [] ∧
      (Stack.initial options config plan.1 stopped).requests = [] := by
  refine initial_induction (P := fun w => w.finished = [] ∧ w.requests = []) ⟨rfl, rfl⟩
    (fun w name hw => ?_) (fun _ hw => hw) (fun w name hw => ?_)
  · obtain ⟨hfinished, hrequests⟩ := logs_insertPlanned w name
    exact ⟨hfinished.trans hw.1, hrequests.trans hw.2⟩
  · obtain ⟨hfinished, hrequests⟩ := logs_startService w stopped name
    exact ⟨hfinished.trans hw.1, hrequests.trans hw.2⟩

end Stack

namespace World

variable {w w' : World} {action : WorldAction} {task : ℕ} {spawned : Task} {l l' : TaskLocal}

/-! ### Steps -/

theorem stepTask_cases {taskAction : TaskAction}
    (h : w.stepTask task spawned l taskAction = some w') :
    ∃ next, w.stepLocal task spawned l taskAction = some next ∧
      w'.locals = w.locals.set task next.1 ∧ w'.final = w.final ∧
      match next.2 with
      | some effect => w.perform task spawned effect = some w'.stack
      | none => w'.stack = w.stack := by
  obtain ⟨⟨l', effect⟩, hlocal, hrest⟩ := Option.bind_eq_some_iff.mp h
  refine ⟨_, hlocal, ?_⟩
  cases effect with
  | none =>
    cases hrest
    exact ⟨rfl, rfl, rfl⟩
  | some effect =>
    obtain ⟨stack, hperform, rfl⟩ := Option.map_eq_some_iff.mp hrest
    exact ⟨rfl, rfl, hperform⟩

/-- A step is one of the supervisor and its surroundings, one of the final shutdown, or one of a
task. -/
theorem step_cases (h : w.step action = some w') :
    (∃ stackAction stack, action = .stack stackAction ∧ stackAction.isOutside ∧
      w.stack.step stackAction = some stack ∧ w' = w.withStack stack) ∨
    (∃ name request, action = .stopAll name ∧ w' = { w with final := w.final ++ [request] }) ∨
    ∃ task taskAction spawned l, action = .task task taskAction ∧
      w.stack.tasks[task]? = some spawned ∧ w.locals[task]? = some l ∧
      w.stepTask task spawned l taskAction = some w' := by
  cases action with
  | stack stackAction =>
    left
    obtain ⟨houtside, h⟩ := Option.ite_none_right_eq_some.mp h
    obtain ⟨stack, hstack, rfl⟩ := Option.map_eq_some_iff.mp h
    exact ⟨_, stack, rfl, houtside, hstack, rfl⟩
  | stopAll name =>
    right; left
    simp only [step] at h
    split at h
    · obtain ⟨stop, -, rfl⟩ := Option.map_eq_some_iff.mp h
      exact ⟨name, _, rfl, rfl⟩
    · cases h
  | task task taskAction =>
    right; right
    simp only [step] at h
    split at h
    · rename_i spawned l hspawned hl
      exact ⟨task, taskAction, spawned, l, rfl, hspawned, hl, h⟩
    · cases h

/-- An effect on the cell of its task, or one on the queues. -/
theorem perform_cases {effect : Effect} {stack : Stack}
    (h : w.perform task spawned effect = some stack) :
    ∃ stackAction, w.stack.step stackAction = some stack ∧
      match effect with
      | .store pgid => stackAction = .store spawned.shared pgid
      | .write status => stackAction = .write spawned.shared status
      | .giveUp => ∃ status, stackAction = .write spawned.shared status
      | .emit kind => stackAction = .emit ⟨spawned.service.name, kind⟩
      | .report result => stackAction = .finish task result := by
  cases effect with
  | giveUp =>
    obtain ⟨cell, -, hstep⟩ := Option.bind_eq_some_iff.mp h
    exact ⟨_, hstep, _, rfl⟩
  | store pgid => exact ⟨.store spawned.shared pgid, h, rfl⟩
  | write status => exact ⟨.write spawned.shared status, h, rfl⟩
  | emit kind => exact ⟨.emit ⟨spawned.service.name, kind⟩, h, rfl⟩
  | report result => exact ⟨.finish task result, h, rfl⟩

/-- An effect is a quiet move of the stack. -/
theorem quiet_of_perform {effect : Effect} {stack : Stack}
    (h : w.perform task spawned effect = some stack) : Stack.Quiet w.stack stack := by
  obtain ⟨stackAction, hstep, haction⟩ := perform_cases h
  refine Stack.step_quiet hstep ?_ ?_ <;> rintro rfl <;> cases effect <;> simp at haction

/-! ### The supervisor loop -/

theorem stack_reachable {C : World → WorldAction → World → Prop} (h : worldSystem.Reachable C w) :
    stackSystem.Reachable AnyStep w.stack := by
  refine h.map World.stack ?_ ?_
  · rintro w₀ ⟨stack, hinit, rfl⟩
    exact hinit
  · intro u action v _ hstep
    have hone : ∀ {stackAction : StackAction}, u.stack.step stackAction = some v.stack →
        stackSystem.Steps AnyStep u.stack v.stack := fun hs =>
      (TransitionSystem.Steps.refl _).tail (.intro trivial hs)
    rcases step_cases hstep with ⟨_, stack, -, -, hs, rfl⟩ | ⟨_, _, -, rfl⟩ |
      ⟨task, taskAction, spawned, l, -, -, -, hs⟩
    · exact hone hs
    · exact .refl _
    · obtain ⟨next, -, -, -, heffect⟩ := stepTask_cases hs
      split at heffect
      · obtain ⟨_, hs, -⟩ := perform_cases heffect
        exact hone hs
      · rw [heffect]
        exact .refl _

theorem inv_of_reachable {C : World → WorldAction → World → Prop}
    (h : worldSystem.Reachable C w) : w.stack.Inv :=
  Stack.inv_of_reachable (stack_reachable h)

/-! ### Local states -/

/-- What a step of a task does to its local state, and the effect it has. -/
inductive LocalStep (w : World) (task : ℕ) (spawned : Task) (l : TaskLocal) :
    TaskAction → TaskLocal × Option Effect → Prop
  | ready {edge : DependencyEdge} {rest : List DependencyEdge} {looked : Bool} {cell : Cell}
    (hphase : l.phase = .waiting (edge :: rest) looked)
    (hcell : w.stack.cells[edge.status]? = some cell)
    (hready : cell.status.readiness edge.condition = .ready) :
    LocalStep w task spawned l .look ({ l with phase := .waiting rest false }, none)
  | gone {edge : DependencyEdge} {rest : List DependencyEdge} {looked : Bool} {cell : Cell}
    (hphase : l.phase = .waiting (edge :: rest) looked)
    (hcell : w.stack.cells[edge.status]? = some cell)
    (hgone : cell.status.readiness edge.condition = .gone) :
    LocalStep w task spawned l .look ({ l with phase := TaskLocal.blocked edge.name }, none)
  | pending {edge : DependencyEdge} {rest : List DependencyEdge} {looked : Bool} {cell : Cell}
    (hphase : l.phase = .waiting (edge :: rest) looked)
    (hcell : w.stack.cells[edge.status]? = some cell)
    (hpending : cell.status.readiness edge.condition = .pending) :
    LocalStep w task spawned l .look ({ l with phase := .waiting (edge :: rest) true }, none)
  | started {looked : Bool} (hphase : l.phase = .waiting [] looked) :
    LocalStep w task spawned l .look
      ({ phase := .running, run := some (.new spawned.service w.runOptions), relay := some [] },
        none)
  | lost {edge : DependencyEdge} {rest : List DependencyEdge}
    (hphase : l.phase = .waiting (edge :: rest) true) (hsender : w.hasSender edge.status = false) :
    LocalStep w task spawned l .lost ({ l with phase := TaskLocal.blocked edge.name }, none)
  | heed {edge : DependencyEdge} {rest : List DependencyEdge} {reason : ShutdownReason}
    (hphase : l.phase = .waiting (edge :: rest) true) (hstop : w.stopValue task = some reason) :
    LocalStep w task spawned l (.heed reason)
      ({ l with phase := TaskLocal.shutDown reason }, none)
  | run {run next : Run} {action : RunAction} (hrun : l.run = some run) (hreceive : action ≠ .receive)
    (hstop : ∀ stop ∈ action.stopRead, stop = w.stopValue task)
    (hstep : run.step action = some next) :
    LocalStep w task spawned l (.run action) ({ l with run := some next }, none)
  | receive {run next : Run} {event : ℕ × EventKind} {rest : List (ℕ × EventKind)}
    (hrelay : l.relay = some []) (hrun : l.run = some run) (hchannel : run.channel = event :: rest)
    (hstep : run.step .receive = some next) :
    LocalStep w task spawned l .receive
      ({ l with
        run := some next, relay := some (TaskLocal.relayEffects run.tracker event.2) }, none)
  | relay {effect : Effect} {rest : List Effect} (hrelay : l.relay = some (effect :: rest)) :
    LocalStep w task spawned l .relay ({ l with relay := some rest }, some effect)
  | close {run : Run} (hrelay : l.relay = some []) (hrun : l.run = some run)
    (hchannel : run.channel = []) (hopen : run.isOpen = false) :
    LocalStep w task spawned l .close ({ l with relay := none }, none)
  | wrapUp {run : Run} {result : Except RuntimeError RunOutcome} {drained : Bool}
    (hphase : l.phase = .running) (hrun : l.run = some run)
    (hreturned : run.runner.phase = .returned result) (hdrained : drained → l.relay = none) :
    LocalStep w task spawned l (.wrapUp drained)
      ({ l with phase := TaskLocal.wrappedUp result }, none)
  | conclude {effect : Effect} {rest : List Effect} (hphase : l.phase = .ending (effect :: rest)) :
    LocalStep w task spawned l .conclude ({ l with phase := .ending rest }, some effect)

theorem localStep_of_step {taskAction : TaskAction} {next : TaskLocal × Option Effect}
    (h : w.stepLocal task spawned l taskAction = some next) :
    LocalStep w task spawned l taskAction next := by
  cases taskAction with
  | look =>
    simp only [stepLocal] at h
    split at h
    · rename_i edge rest looked hphase
      obtain ⟨cell, hcell, rfl⟩ := Option.map_eq_some_iff.mp h
      cases hread : cell.status.readiness edge.condition with
      | ready => exact .ready hphase hcell hread
      | gone => exact .gone hphase hcell hread
      | pending => exact .pending hphase hcell hread
    · rename_i hphase
      cases h
      exact .started hphase
    · cases h
  | lost =>
    simp only [stepLocal] at h
    split at h
    · rename_i hphase
      split_ifs at h with hsender
      cases h
      exact .lost hphase (by simpa using hsender)
    · cases h
  | heed reason =>
    simp only [stepLocal] at h
    split at h
    · rename_i hphase
      obtain ⟨hstop, h⟩ := Option.ite_none_right_eq_some.mp h
      cases h
      exact .heed hphase hstop
    · cases h
  | run action =>
    simp only [stepLocal] at h
    split at h
    · rename_i run hrun
      obtain ⟨⟨hreceive, hstop⟩, h⟩ := Option.ite_none_right_eq_some.mp h
      obtain ⟨next, hstep, rfl⟩ := Option.map_eq_some_iff.mp h
      exact .run hrun hreceive hstop hstep
    · cases h
  | receive =>
    simp only [stepLocal] at h
    split at h
    · rename_i run hrelay hrun
      split at h
      · rename_i event rest hchannel
        obtain ⟨next, hstep, rfl⟩ := Option.map_eq_some_iff.mp h
        exact .receive hrelay hrun hchannel hstep
      · cases h
    · cases h
  | relay =>
    simp only [stepLocal] at h
    split at h
    · rename_i hrelay
      cases h
      exact .relay hrelay
    · cases h
  | close =>
    simp only [stepLocal] at h
    split at h
    · rename_i run hrelay hrun
      obtain ⟨⟨hchannel, hopen⟩, h⟩ := Option.ite_none_right_eq_some.mp h
      cases h
      exact .close hrelay hrun hchannel (by simpa using hopen)
    · cases h
  | wrapUp drained =>
    simp only [stepLocal] at h
    split at h
    · rename_i run hphase hrun
      split at h
      · rename_i result hreturned
        obtain ⟨hdrained, h⟩ := Option.ite_none_right_eq_some.mp h
        cases h
        exact .wrapUp hphase hrun hreturned hdrained
      · cases h
    · cases h
  | conclude =>
    simp only [stepLocal] at h
    split at h
    · rename_i hphase
      cases h
      exact .conclude hphase
    · cases h

/-- A report is the last of these effects, if there is one. -/
def ReportsLast : List Effect → Prop
  | [] => True
  | .report _ :: rest => rest = []
  | _ :: rest => ReportsLast rest

theorem ReportsLast.tail {effect : Effect} {rest : List Effect} (h : ReportsLast (effect :: rest)) :
    ReportsLast rest := by
  cases effect with
  | report =>
    obtain rfl : rest = [] := h
    trivial
  | _ => exact h

/-- What a local state says about its task, which has reported or not. -/
structure TaskSettled (finished : Prop) (l : TaskLocal) : Prop where
  /-- Whoever has reported has nothing left to do. -/
  ended : finished → l.phase = .ending []
  reports_last : ∀ effects, l.phase = .ending effects → ReportsLast effects
  relay_reports : ∀ effects, l.relay = some effects → ∀ result, .report result ∉ effects

theorem taskSettled_new (spawned : Task) {finished : Prop} (h : ¬ finished) :
    TaskSettled finished (TaskLocal.new spawned) where
  ended hf := absurd hf h
  reports_last := by simp [TaskLocal.new]
  relay_reports := by simp [TaskLocal.new]

theorem report_notMem_relayEffects (tracker : DependencyStatus) (kind : EventKind)
    (result : ServiceResult) : .report result ∉ TaskLocal.relayEffects tracker kind := by
  unfold TaskLocal.relayEffects
  simp only [List.mem_append, List.mem_singleton, reduceCtorEq, or_false, not_or]
  constructor <;> split <;> simp

/-- A step leaves a local state settled, the task having reported if that was the effect. -/
theorem TaskSettled.step {finished : Prop} (h : TaskSettled finished l) {taskAction : TaskAction}
    {next : TaskLocal × Option Effect} (hstep : LocalStep w task spawned l taskAction next) :
    TaskSettled (finished ∨ ∃ result, next.2 = some (.report result)) next.1 := by
  have hphase_ne : ∀ {phase : TaskPhase}, l.phase = phase → phase ≠ .ending [] → ¬ finished :=
    fun he hne hf => hne (he.symm.trans (h.ended hf))
  cases hstep with
  | ready hphase | gone hphase | pending hphase | lost hphase | heed hphase =>
    have hnot := hphase_ne hphase (by simp)
    refine ⟨by simp [hnot], ?_, h.relay_reports⟩
    simp [TaskLocal.blocked, TaskLocal.shutDown, ReportsLast]
  | started hphase =>
    have hnot := hphase_ne hphase (by simp)
    exact ⟨by simp [hnot], by simp, by simp⟩
  | wrapUp hphase =>
    have hnot := hphase_ne hphase (by simp)
    refine ⟨by simp [hnot], ?_, h.relay_reports⟩
    unfold TaskLocal.wrappedUp
    split <;> simp [ReportsLast]
  | run =>
    refine ⟨?_, h.reports_last, h.relay_reports⟩
    simpa using h.ended
  | receive =>
    refine ⟨by simpa using h.ended, h.reports_last, ?_⟩
    rintro _ ⟨⟩
    exact report_notMem_relayEffects _ _
  | relay hrelay =>
    rename_i effect rest
    have hmem := h.relay_reports _ hrelay
    refine ⟨?_, h.reports_last, ?_⟩
    · rintro (hf | ⟨result, he⟩)
      · exact h.ended hf
      · cases he
        exact absurd List.mem_cons_self (hmem result)
    · rintro _ ⟨⟩ result hr
      exact hmem result (List.mem_cons_of_mem _ hr)
  | close => exact ⟨by simpa using h.ended, h.reports_last, by simp⟩
  | conclude hphase =>
    rename_i effect rest
    have hnot := hphase_ne hphase (by simp)
    have hlast := h.reports_last _ hphase
    refine ⟨?_, ?_, h.relay_reports⟩
    · rintro (hf | ⟨result, he⟩)
      · exact absurd hf hnot
      · cases he
        exact congrArg TaskPhase.ending hlast
    · rintro _ ⟨⟩
      exact hlast.tail

/-- The local states agree with what the stack knows of its tasks. -/
structure Settled (w : World) : Prop where
  length_eq : w.locals.length = w.stack.tasks.length
  settled : ∀ {task : ℕ} {l : TaskLocal}, w.locals[task]? = some l →
    TaskSettled (task ∈ w.stack.finished) l

/-- The tasks that have reported after an effect. -/
theorem mem_finished_of_perform {effect : Effect} {stack : Stack}
    (h : w.perform task spawned effect = some stack) (other : ℕ) :
    other ∈ stack.finished ↔
      other ∈ w.stack.finished ∨ other = task ∧ ∃ result, effect = .report result := by
  obtain ⟨stackAction, hstep, haction⟩ := perform_cases h
  cases effect with
  | report result =>
    subst haction
    obtain ⟨_, -, -, rfl⟩ := Stack.finishTask_cases hstep
    simp
  | giveUp =>
    obtain ⟨_, rfl⟩ := haction
    cases hstep
    simp
  | _ =>
    subst haction
    cases hstep
    simp

/-- A task keeps its local state when tasks are added. -/
theorem getElem?_withStack {stack : Stack} (h : task < w.locals.length) :
    (w.withStack stack).locals[task]? = w.locals[task]? := List.getElem?_append_left h

/-- The local state of a task in the world after a step of the supervisor: it was there before, or
the task was just spawned. -/
theorem locals_withStack_cases {stack : Stack} (hl : (w.withStack stack).locals[task]? = some l) :
    w.locals[task]? = some l ∨ w.locals.length ≤ task ∧
      ∃ spawned, stack.tasks[task]? = some spawned ∧ l = TaskLocal.new spawned := by
  rcases lt_or_ge task w.locals.length with hlt | hge
  · exact .inl (getElem?_withStack hlt ▸ hl)
  · right
    rw [withStack, List.getElem?_append_right hge, List.getElem?_map, List.getElem?_drop,
      Nat.add_sub_cancel' hge] at hl
    obtain ⟨spawned, hspawned, rfl⟩ := Option.map_eq_some_iff.mp hl
    exact ⟨hge, spawned, hspawned, rfl⟩

/-- A move from outside ends no task. -/
theorem finished_of_isOutside (hI : w.stack.Inv) {stackAction : StackAction} {stack : Stack}
    (houtside : stackAction.isOutside) (hstep : w.stack.step stackAction = some stack) :
    stack.finished = w.stack.finished := by
  refine Stack.step_finished hI hstep ?_
  rintro _ _ rfl
  simp [StackAction.isOutside] at houtside

theorem Settled.withStack (h : w.Settled) (hI : w.stack.Inv) {stackAction : StackAction}
    {stack : Stack} (houtside : stackAction.isOutside)
    (hstep : w.stack.step stackAction = some stack) : (w.withStack stack).Settled := by
  have hfinished := finished_of_isOutside hI houtside hstep
  have hlength : w.stack.tasks.length ≤ stack.tasks.length :=
    (Stack.step_grows hI hstep).1.length_le
  constructor
  · simp only [World.withStack, List.length_append, List.length_map, List.length_drop, h.length_eq]
    omega
  · intro task l hl
    change TaskSettled (task ∈ stack.finished) l
    rw [hfinished]
    rcases locals_withStack_cases hl with hl | ⟨hge, spawned, -, rfl⟩
    · exact h.settled hl
    · refine taskSettled_new spawned fun hmem => ?_
      exact absurd (hI.finished_lt hmem) (not_lt.mpr (h.length_eq ▸ hge))

theorem Settled.stepTask (h : w.Settled) {taskAction : TaskAction}
    (hl : w.locals[task]? = some l) (hstep : w.stepTask task spawned l taskAction = some w') :
    w'.Settled := by
  obtain ⟨next, hlocal, hlocals, -, heffect⟩ := stepTask_cases hstep
  have hnext := (h.settled hl).step (localStep_of_step hlocal)
  have hfinished : ∀ other, other ∈ w'.stack.finished ↔ other ∈ w.stack.finished ∨
      other = task ∧ ∃ result, next.2 = some (.report result) := by
    intro other
    split at heffect
    · rename_i effect he
      rw [mem_finished_of_perform heffect, he]
      simp
    · rename_i he
      simp [heffect, he]
  have htasks : w'.stack.tasks = w.stack.tasks := by
    split at heffect
    · exact (quiet_of_perform heffect).tasks_eq
    · rw [heffect]
  constructor
  · rw [hlocals, List.length_set, htasks, h.length_eq]
  · intro other l' hl'
    rw [hlocals, List.getElem?_set] at hl'
    split_ifs at hl' with he hlt
    · subst he
      cases hl'
      simpa only [hfinished, true_and] using hnext
    · have hsame : other ∈ w'.stack.finished ↔ other ∈ w.stack.finished := by
        rw [hfinished]
        exact or_iff_left fun hr => he hr.1.symm
      rw [hsame]
      exact h.settled hl'

theorem settled_initial (stack : Stack) (hfinished : stack.finished = []) :
    (World.initial stack).Settled := by
  constructor
  · simp [World.initial]
  · intro task l hl
    simp only [World.initial, List.getElem?_map, Option.map_eq_some_iff] at hl
    obtain ⟨spawned, -, rfl⟩ := hl
    exact taskSettled_new spawned (by simp [World.initial, hfinished])

/-- The local states agree with what the stack knows of its tasks in every reachable state. -/
theorem settled_of_reachable {C : World → WorldAction → World → Prop}
    (h : worldSystem.Reachable C w) : w.Settled := by
  refine h.invariant ?_ fun {u action v} hu hI _ hstep => ?_
  · rintro w₀ ⟨stack, ⟨options, config, plan, stopped, rfl⟩, rfl⟩
    exact settled_initial _ (Stack.logs_initial options config plan stopped).1
  · rcases step_cases hstep with ⟨_, stack, -, houtside, hs, rfl⟩ | ⟨_, _, -, rfl⟩ |
      ⟨task, taskAction, spawned, l, -, -, hl, hs⟩
    · exact hI.withStack (inv_of_reachable hu) houtside hs
    · exact ⟨hI.length_eq, hI.settled⟩
    · exact hI.stepTask hl hs

end World

end Servicrab
