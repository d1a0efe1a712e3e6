import Servicrab.Config.Valid
import Servicrab.Supervisor.Intent

/-!
# The end of a stack

What `StackSupervisor::run` does once its loop is left (`stack.rs`): `stop_all` goes through the
services that are not in the plan, and then through the plan backwards; it asks each one to stop and
waits for its task, or sweeps the process group of the task and aborts it when the grace period is
over. The handles that are left are awaited, and the reports that are left are taken.

Meanwhile the tasks, their relays and the clients go on. The plan is part of the start order that
the validation made, so that backwards a service comes before everything that it depends on.

## Main definitions

* `Shutdown`, `Shutdown.begin`, `Shutdown.step`, `shutdownSystem`.
* `Shutdown.Orderly`: what is asked of every state.
* `Stack.SortedReloads`: what loading promises of the configurations in a run.
* `Stack.LoadedReloads`: they come from loading.

## Main results

* `Shutdown.orderly_of_steps`.
* `Stack.planned_of_loaded`, `Shutdown.orderly_of_loaded`: the same of configurations that loading
  has accepted.
-/

open Std (ExtTreeMap)
open TransitionSystem (AnyStep)

namespace Servicrab

/-- Extra time granted on top of the shutdown timeout of a service: five seconds. -/
def stopGrace : Duration := 5 * 10 ^ 9

/-- Where the end of `StackSupervisor::run` is. -/
inductive ShutdownPhase
  /-- In `stop_all`, about to go on to the next of these services. -/
  | stopping (rest : List ServiceName)
  /-- In `stop_all`, waiting for the task of a service until the grace period is over. -/
  | waiting (name : ServiceName) (task : ℕ) (grace : Duration) (rest : List ServiceName)
  /-- Waiting for the tasks whose handles are left. -/
  | joining (handles : List (ServiceName × ℕ))
  /-- Taking the reports that are left. -/
  | draining
  | done
  deriving DecidableEq

/-- A supervisor whose loop was left. -/
structure Shutdown where
  stack : Stack
  reason : Option ShutdownReason
  stops : ExtTreeMap ServiceName ℕ
  handles : ExtTreeMap ServiceName ℕ
  phase : ShutdownPhase
  /-- The requests that `stop_all` has sent, each on the stop channel of a service. -/
  sent : List (ServiceName × ℕ)
  /-- The process groups that were swept. -/
  swept : List ℤ
  /-- The tasks that were aborted, each with what its slot held as the process group. -/
  aborted : List (ℕ × Option ℤ)

/-- A move of a supervisor whose loop was left, or of its surroundings. -/
inductive ShutdownAction
  /-- A task, a relay or a client moves. -/
  | outside (action : StackAction)
  /-- `stop_all` goes on. -/
  | stop
  /-- The awaited task has ended. -/
  | ended
  /-- The grace period is over. -/
  | timeout
  /-- The next of the handles that are left is awaited. -/
  | join
  /-- A report is taken, or there is none left. -/
  | drain

namespace Stack

variable (w : Stack)

/-- The stop channels of the slots. -/
def stops : ExtTreeMap ServiceName ℕ := w.slots.filterMap fun _ slot => slot.stop

/-- The handles of the slots. -/
def handles : ExtTreeMap ServiceName ℕ := w.slots.filterMap fun _ slot => slot.handle

/-- The services in the order `stop_all` goes through them. Those that a reload has dropped may
still be winding down, so they come first. -/
def stopOrder : List ServiceName :=
  (w.stops.keys.filter fun name => name ∉ w.plan) ++ w.plan.reverse

/-- The handles are taken out of the slots. -/
def takeHandles : Stack :=
  { w with slots := w.slots.map fun _ slot => { slot with handle := none } }

/-- How long a task is waited for. -/
def grace (name : ServiceName) : Duration :=
  ((w.config.1.services[name]?).map Service.shutdownTimeout).getD 0 + stopGrace

/-- What the slot of a service holds as its process group. -/
def pgid (name : ServiceName) : Option ℤ :=
  w.slots[name]?.bind fun slot => w.cells[slot.shared]?.map Cell.pgid

end Stack

/-- `sweep_group`: the group that is killed, if a slot holds one. -/
def sweepGroup (pgid : Option ℤ) : List ℤ :=
  match pgid with
  | some pgid => if pgid = 0 then [] else [pgid]
  | none => []

namespace Shutdown

/-- The loop was left, with a reason for shutting the stack down or without one. -/
def begin (w : Stack) (reason : Option ShutdownReason) : Shutdown where
  stack := w.takeHandles
  reason := reason
  stops := w.stops
  handles := w.handles
  phase := if reason.isSome then .stopping w.stopOrder else .joining w.handles.toList
  sent := []
  swept := []
  aborted := []

variable (s : Shutdown)

/-- The next service that `stop_all` goes through. -/
def stopNext (reason : ShutdownReason) (name : ServiceName) (rest : List ServiceName) : Shutdown :=
  match s.stops[name]? with
  | none => { s with phase := .stopping rest }
  | some stop =>
    let s := { s with stack := s.stack.request stop reason, sent := s.sent ++ [(name, stop)] }
    match s.handles[name]? with
    | none => { s with phase := .stopping rest }
    | some task =>
      { s with
        handles := s.handles.erase name
        phase := .waiting name task (s.stack.grace name) rest }

/-- One move. -/
def step : ShutdownAction → Option Shutdown
  | .outside action => (s.stack.step action).map fun stack => { s with stack := stack }
  | .stop =>
    match s.phase, s.reason with
    | .stopping (name :: rest), some reason => some (s.stopNext reason name rest)
    | .stopping [], _ => some { s with phase := .joining s.handles.toList }
    | _, _ => none
  | .ended =>
    match s.phase with
    | .waiting _ task _ rest =>
      if task ∈ s.stack.finished then some { s with phase := .stopping rest } else none
    | _ => none
  | .timeout =>
    match s.phase with
    | .waiting name task _ rest => some { s with
        -- The group is swept while there is still a task that knows about it.
        swept := s.swept ++ sweepGroup (s.stack.pgid name)
        aborted := s.aborted ++ [(task, s.stack.pgid name)]
        phase := .stopping rest }
    | _ => none
  | .join =>
    match s.phase with
    | .joining ((_, task) :: rest) =>
      if task ∈ s.stack.finished then some { s with phase := .joining rest } else none
    | .joining [] => some { s with phase := .draining }
    | _ => none
  | .drain =>
    match s.phase, s.stack.reportQueue with
    | .draining, (_, report) :: rest => some { s with
        stack := { s.stack with reportQueue := rest, reports := s.stack.reports ++ [report] } }
    | .draining, [] =>
      -- The channel is closed once no task is left to send on it.
      if (List.range s.stack.tasks.length).all fun task =>
          task ∈ s.stack.finished ∨ task ∈ s.aborted.map Prod.fst then
        some { s with phase := .done }
      else none
    | _, _ => none

end Shutdown

/-- The ends of the runs of `StackSupervisor::run`. -/
def shutdownSystem : TransitionSystem Shutdown ShutdownAction where
  init s := ∃ (w : Stack) (reason : Option ShutdownReason), stackSystem.Reachable AnyStep w ∧
    w.left = some reason ∧ s = Shutdown.begin w reason
  step := Shutdown.step

namespace Stack

variable {w w' : Stack} {name : ServiceName}

/-! ### The plan in force -/

/-- The guard that the configuration of a reload was loaded, so that its start order is sorted. -/
def SortedReloads (_ : Stack) (action : StackAction) (_ : Stack) : Prop :=
  ∀ config plan ack, action = .submit (.reload config plan ack) → config.1.Sorted

/-- The guard that loading has accepted the configuration of a reload. -/
def LoadedReloads (_ : Stack) (action : StackAction) (_ : Stack) : Prop :=
  ∀ config plan ack, action = .submit (.reload config plan ack) → config.1.Loaded

theorem LoadedReloads.sorted {action : StackAction} (h : LoadedReloads w action w') :
    SortedReloads w action w' :=
  fun config plan ack he => (h config plan ack he).sorted

/-- The plan in force is a plan of the configuration in force, which was loaded. -/
structure Planned (w : Stack) : Prop where
  planned : ∃ selection, planStack w.config.1 selection = .ok w.plan
  sorted : w.config.1.Sorted
  queued : ∀ config plan ack, .reload config plan ack ∈ w.control → config.1.Sorted

/-- The same plan is in force. -/
def SamePlan (w w' : Stack) : Prop := w'.config = w.config ∧ w'.plan = w.plan

theorem SamePlan.trans {w'' : Stack} (h : SamePlan w w') (h' : SamePlan w' w'') :
    SamePlan w w'' := ⟨h'.1.trans h.1, h'.2.trans h.2⟩

theorem SamePlan.foldl {f : Stack → ServiceName → Stack} (hf : ∀ s name, SamePlan s (f s name))
    (names : List ServiceName) : SamePlan w (names.foldl f w) := by
  exact List.foldlRecOn (motive := SamePlan w) names f ⟨rfl, rfl⟩ fun s hs name _ =>
    hs.trans (hf s name)

theorem samePlan_debugAssert (w : Stack) (condition : Bool) (assertion : DebugAssertion) :
    SamePlan w (w.debugAssert condition assertion) := by
  rw [debugAssert_eq]
  exact ⟨rfl, rfl⟩

theorem samePlan_insertSlot (w : Stack) (name : ServiceName) (service : Service) :
    SamePlan w (w.insertSlot name service) := samePlan_debugAssert w _ _

theorem samePlan_removeService (w : Stack) (name : ServiceName) :
    SamePlan w (w.removeService name) := by
  unfold removeService
  split
  · exact ⟨rfl, rfl⟩
  · split <;> exact ⟨rfl, rfl⟩

theorem samePlan_addService (w : Stack) (config : Config) (name : ServiceName) :
    SamePlan w (w.addService config name) := by
  unfold addService
  split
  · exact ⟨rfl, rfl⟩
  · split
    · exact samePlan_debugAssert w _ _
    · exact samePlan_insertSlot w name _

theorem samePlan_changeService (w : Stack) (config : Config) (name : ServiceName) :
    SamePlan w (w.changeService config name) := by
  unfold changeService
  split
  · split <;> exact ⟨rfl, rfl⟩
  · exact ⟨rfl, rfl⟩

theorem samePlan_spawnAdded (w : Stack) (name : ServiceName) : SamePlan w (w.spawnAdded name) := by
  unfold spawnAdded
  split
  · split_ifs <;> exact ⟨rfl, rfl⟩
  · exact ⟨rfl, rfl⟩

theorem samePlan_insertPlanned (w : Stack) (name : ServiceName) :
    SamePlan w (w.insertPlanned name) := by
  unfold insertPlanned
  split
  · exact samePlan_insertSlot w name _
  · exact ⟨rfl, rfl⟩

theorem samePlan_startService (w : Stack) (stopped : Finset ServiceName) (name : ServiceName) :
    SamePlan w (w.startService stopped name) := by
  unfold startService publishStopped
  split_ifs <;> split <;> exact ⟨rfl, rfl⟩

/-- A reload puts its own plan in force. -/
theorem plan_applyReload (w : Stack) (config : ValidConfig) (plan : List ServiceName) :
    (w.applyReload config plan).config = config ∧ (w.applyReload config plan).plan = plan := by
  let applied : Stack := { w with config := config, plan := plan }
  have hremove : SamePlan applied _ :=
    .foldl samePlan_removeService (w.diff config.1 plan).removed
  have hadd := hremove.trans
    (.foldl (samePlan_addService · config.1) (w.diff config.1 plan).added)
  have hchange := hadd.trans
    (.foldl (samePlan_changeService · config.1) (w.diff config.1 plan).changed)
  have hwire : SamePlan applied (w.wireReload config plan) := hchange.trans ⟨rfl, rfl⟩
  exact hwire.trans (.foldl samePlan_spawnAdded (w.diff config.1 plan).added)

/-- Only a reload changes the plan in force. -/
theorem plan_handleControl (w : Stack) (command : Control) :
    SamePlan w (w.handleControl command) ∨
      ∃ config plan ack, command = .reload config plan ack ∧
        (w.handleControl command).config = config ∧ (w.handleControl command).plan = plan.1 := by
  cases command with
  | reload config plan ack =>
    rw [handleControl, reload]
    split
    · exact .inl ⟨rfl, rfl⟩
    · exact .inr ⟨config, plan, ack, rfl, plan_applyReload w config plan.1⟩
  | start service ack =>
    left
    rw [handleControl]
    obtain ⟨_, he⟩ | ⟨slot, -, -, he⟩ := w.withSlot_cases service ack _ <;> rw [he]
    · exact ⟨rfl, rfl⟩
    · split_ifs <;> exact ⟨rfl, rfl⟩
  | stop service ack | restart service ack =>
    left
    rw [handleControl]
    obtain ⟨_, he⟩ | ⟨slot, -, -, he⟩ := w.withSlot_cases service ack _ <;> rw [he]
    · exact ⟨rfl, rfl⟩
    · split <;> exact ⟨rfl, rfl⟩

theorem Planned.of_same (h : w.Planned) (hsame : SamePlan w w')
    (hcontrol : w'.control ⊆ w.control) : w'.Planned where
  planned := by
    rw [hsame.1, hsame.2]
    exact h.planned
  sorted := by
    rw [hsame.1]
    exact h.sorted
  queued config plan ack hmem := h.queued config plan ack (hcontrol hmem)

theorem Planned.control (h : w.Planned) (hI : w.Inv) (hstep : w.step .control = some w') :
    w'.Planned := by
  obtain ⟨command, rest, hqueue, rfl⟩ := step_control hstep
  have hrest : ({ w with control := rest }.handleControl command).control = rest := by
    obtain ⟨w₁, hops, he | ⟨result, he⟩⟩ := handleControl_ops (hI.takeCommand rest) command <;>
      rw [he] <;> exact hops.frame.control_eq
  have hsub : ({ w with control := rest }.handleControl command).control ⊆ w.control := by
    rw [hrest, hqueue]
    exact List.subset_cons_self command rest
  rcases plan_handleControl { w with control := rest } command with
    hsame | ⟨config, plan, ack, rfl, hconfig, hplan⟩
  · exact h.of_same hsame hsub
  · constructor
    · rw [hconfig, hplan]
      exact plan.2
    · rw [hconfig]
      exact h.queued config plan ack (hqueue ▸ List.mem_cons_self)
    · exact fun config plan ack hmem => h.queued config plan ack (hsub hmem)

theorem Planned.step (h : w.Planned) (hI : w.Inv) {action : StackAction}
    (hguard : SortedReloads w action w') (hstep : w.step action = some w') : w'.Planned := by
  by_cases hcontrol : action = .control
  · subst hcontrol
    exact h.control hI hstep
  by_cases hreport : action = .report
  · subst hreport
    have hqueue := (step_control_eq hI hstep (by simp) (by simp)).1
    obtain ⟨_, _, _, _, _, _, -, -, -, heffect⟩ := hI.step_report hstep
    cases heffect <;> exact h.of_same ⟨rfl, rfl⟩ (List.Subset.refl _)
  have hquiet := step_quiet hstep hcontrol hreport
  have hsame : SamePlan w w' := ⟨hquiet.config_eq, hquiet.plan_eq⟩
  by_cases hsubmit : ∃ command, action = .submit command
  · obtain ⟨command, rfl⟩ := hsubmit
    obtain ⟨-, hstep⟩ := Option.ite_none_right_eq_some.mp hstep
    cases hstep
    refine ⟨h.planned, h.sorted, fun config plan ack hmem => ?_⟩
    rcases List.mem_append.mp hmem with hmem | hmem
    · exact h.queued config plan ack hmem
    · exact hguard config plan ack (congrArg StackAction.submit (List.mem_singleton.mp hmem).symm)
  · have hqueue := (step_control_eq hI hstep (fun command he => hsubmit ⟨command, he⟩) hcontrol).1
    exact h.of_same hsame (by rw [hqueue]; exact List.Subset.refl _)

theorem planned_initial (options : StackOptions) {config : ValidConfig} (plan : StartPlan config.1)
    (stopped : Finset ServiceName) (hsorted : config.1.Sorted) :
    (Stack.initial options config plan.1 stopped).Planned := by
  have hsame : SamePlan (Stack.empty options config plan.1)
      (Stack.initial options config plan.1 stopped) := by
    refine initial_induction (P := SamePlan (Stack.empty options config plan.1)) ⟨rfl, rfl⟩
      (fun w name hw => hw.trans (samePlan_insertPlanned w name)) (fun w hw => hw.trans ⟨rfl, rfl⟩)
      (fun w name hw => hw.trans (samePlan_startService w stopped name))
  constructor
  · rw [hsame.1, hsame.2]
    exact plan.2
  · rw [hsame.1]
    exact hsorted
  · intro config' plan' ack hmem
    rw [(unasked_initial options config plan.1 stopped).1] at hmem
    cases hmem

/-- In a run in which every configuration was loaded, the plan in force is part of its sorted start
order. -/
theorem planned_of_steps {options : StackOptions} {config : ValidConfig}
    {plan : StartPlan config.1} {stopped : Finset ServiceName} (hsorted : config.1.Sorted)
    (h : stackSystem.Steps SortedReloads (Stack.initial options config plan.1 stopped) w) :
    w.Planned := by
  refine h.invariant (planned_initial options plan stopped hsorted) fun hu hP hguard hstep => ?_
  exact hP.step (inv_of_reachable ⟨_, ⟨options, config, plan, stopped, rfl⟩, hu⟩) hguard hstep

theorem planned_of_loaded {options : StackOptions} {config : ValidConfig}
    {plan : StartPlan config.1} {stopped : Finset ServiceName} (hloaded : config.1.Loaded)
    (h : stackSystem.Steps LoadedReloads (Stack.initial options config plan.1 stopped) w) :
    w.Planned :=
  planned_of_steps hloaded.sorted (h.mono fun _ _ _ => LoadedReloads.sorted)

/-! ### The order of the stops -/

/-- A planned service depends on another planned one, directly or not. -/
def PlannedOn (w : Stack) (name dependency : ServiceName) : Prop :=
  name ∈ w.plan ∧ dependency ∈ w.plan ∧ Relation.TransGen w.config.1.DependsOn name dependency

theorem Planned.nodup_plan (h : w.Planned) : w.plan.Nodup := by
  obtain ⟨selection, hplan⟩ := h.planned
  exact w.config.2.nodup_startOrder.sublist (planStack_sublist hplan)

/-- In the plan, a service comes after all planned ones that it depends on. -/
theorem Planned.dependencyOrder (h : w.Planned) : DependencyOrder w.PlannedOn w.plan := by
  obtain ⟨selection, hplan⟩ := h.planned
  obtain ⟨selected, hselected⟩ := planStack_eq_filter hplan
  have horder := h.sorted.dependencyOrder.filter fun name => decide (name ∈ selected)
  rw [← hselected] at horder
  refine horder.mono fun name dependency hon => ⟨hon.2.2, ?_⟩
  have hmem := hon.2.1
  rw [hselected] at hmem
  exact (List.mem_filter.mp hmem).2

/-- `stop_all` comes to a service after all planned ones that depend on it. -/
theorem Planned.stopOrder (h : w.Planned) :
    DependencyOrder (fun dependency name => w.PlannedOn name dependency) w.stopOrder := by
  refine .append_left (fun name hname other hother => ?_) ?_
  · simp only [List.mem_filter, decide_eq_true_eq] at hname
    exact hname.2 hother.2.1
  · refine (h.dependencyOrder.reverse h.nodup_plan).mono fun dependency name hdep => ?_
    exact ⟨hdep, hdep.1⟩

theorem Planned.nodup_stopOrder (h : w.Planned) : w.stopOrder.Nodup := by
  refine List.nodup_append.mpr ⟨ExtTreeMap.nodup_keys.filter _, ?_, ?_⟩
  · exact List.nodup_reverse.mpr h.nodup_plan
  · rintro name hname _ hplan rfl
    simp only [List.mem_filter, decide_eq_true_eq] at hname
    exact hname.2 (List.mem_reverse.mp hplan)

theorem getElem?_stops (w : Stack) (name : ServiceName) :
    w.stops[name]? = w.slots[name]?.bind Slot.stop := by
  rw [stops, ExtTreeMap.getElem?_filterMap']

theorem getElem?_handles (w : Stack) (name : ServiceName) : w.handles[name]? = w.live name := by
  rw [handles, ExtTreeMap.getElem?_filterMap', live]

/-- The channels are those of the live tasks. -/
theorem Inv.stops_eq (h : w.Inv) (name : ServiceName) : w.stops[name]? = w.live name := by
  rw [getElem?_stops, live]
  cases hs : w.slots[name]? with
  | none => rfl
  | some slot => exact h.stop_eq hs

/-- `stop_all` goes through every service with a live task. -/
theorem Inv.mem_stopOrder (h : w.Inv) {task : ℕ} (hlive : w.live name = some task) :
    name ∈ w.stopOrder := by
  by_cases hplan : name ∈ w.plan
  · exact List.mem_append_right _ (List.mem_reverse.mpr hplan)
  · refine List.mem_append_left _ (List.mem_filter.mpr ⟨?_, by simpa using hplan⟩)
    exact TreeMap.mem_keys_iff_exists.mpr ⟨task, (h.stops_eq name).trans hlive⟩

end Stack

/-! ### What `stop_all` has come to -/

/-- The services that `stop_all` has not come to yet. -/
def ShutdownPhase.ahead : ShutdownPhase → List ServiceName
  | .stopping rest | .waiting _ _ _ rest => rest
  | .joining _ | .draining | .done => []

/-- The service whose task is awaited, with that task. -/
def ShutdownPhase.awaited : ShutdownPhase → Option (ServiceName × ℕ)
  | .waiting name task _ _ => some (name, task)
  | .stopping _ | .joining _ | .draining | .done => none

/-- Whether `stop_all` has returned. -/
def ShutdownPhase.Stopped : ShutdownPhase → Prop
  | .stopping _ | .waiting _ _ _ _ => False
  | .joining _ | .draining | .done => True

theorem ShutdownPhase.Stopped.ahead_eq {phase : ShutdownPhase} (h : phase.Stopped) :
    phase.ahead = [] := by
  cases phase with
  | stopping | waiting => exact h.elim
  | joining | draining | done => rfl

theorem ShutdownPhase.Stopped.awaited_eq {phase : ShutdownPhase} (h : phase.Stopped) :
    phase.awaited = none := by
  cases phase with
  | stopping | waiting => exact h.elim
  | joining | draining | done => rfl

namespace Shutdown

/-- A task has ended, or it was aborted after its process group was swept, if it had one. -/
def Over (s : Shutdown) (task : ℕ) : Prop :=
  task ∈ s.stack.finished ∨
    ∃ pgid, (task, pgid) ∈ s.aborted ∧ ∀ group ∈ sweepGroup pgid, group ∈ s.swept

/-- What `stop_all` has done once it has come to the services `come`. -/
structure Came (w : Stack) (s : Shutdown) (come : List ServiceName) : Prop where
  order_eq : come ++ s.phase.ahead = if s.reason.isSome then w.stopOrder else []
  sent_eq : s.sent = come.filterMap fun name => (w.live name).map (name, ·)
  awaited : ∀ entry, s.phase.awaited = some entry → come.getLast? = some entry.1
  settled : ∀ name ∈ come, ∀ task, w.live name = some task →
    s.phase.awaited = some (name, task) ∨ s.Over task
  handles_eq : ∀ name ∈ s.phase.ahead, s.handles[name]? = w.live name
  stops_eq : s.stops = w.stops
  tasks_eq : s.stack.tasks = w.tasks
  left_eq : s.stack.left = w.left
  requests_eq : ∀ reason, s.reason = some reason →
    s.stack.requests = w.requests ++ s.sent.map fun entry => (entry.2, reason)

namespace Came

variable {w : Stack} {s s' : Shutdown} {come : List ServiceName} {reason : Option ShutdownReason}

theorem begin (w : Stack) (reason : Option ShutdownReason) :
    Came w (Shutdown.begin w reason) [] where
  order_eq := by cases reason <;> rfl
  sent_eq := rfl
  awaited entry h := by cases reason <;> cases h
  settled name h := absurd h List.not_mem_nil
  handles_eq name _ := w.getElem?_handles name
  stops_eq := rfl
  tasks_eq := rfl
  left_eq := rfl
  requests_eq reason h := (List.append_nil w.requests).symm

/-- Only the tasks that are over matter for what is said of those `stop_all` has come to. -/
theorem over_mono (h : Came w s come) (hover : ∀ task, s.Over task → s'.Over task)
    {name : ServiceName} (hname : name ∈ come) {task : ℕ} (hlive : w.live name = some task) :
    s.phase.awaited = some (name, task) ∨ s'.Over task :=
  (h.settled name hname task hlive).imp_right (hover task)

/-- What goes on outside only ever ends tasks. -/
theorem outside (h : Came w s come) (hleft : w.left = some reason) {action : StackAction}
    (hstep : s.step (.outside action) = some s') : Came w s' come := by
  obtain ⟨stack, hstack, rfl⟩ := Option.map_eq_some_iff.mp hstep
  obtain ⟨hquiet, hsame, hfinished⟩ := Stack.step_of_left (h.left_eq.trans hleft) hstack
  have hover : ∀ task, s.Over task → Over { s with stack := stack } task :=
    fun task hover => hover.imp_left fun hmem => hfinished hmem
  exact { h with
    settled := fun name hname task hlive => h.over_mono hover hname hlive
    tasks_eq := hquiet.tasks_eq.trans h.tasks_eq
    left_eq := hsame.trans h.left_eq
    requests_eq := fun reason hreason => hquiet.requests_eq.trans (h.requests_eq reason hreason) }

/-- `stop_all` passes over a service that has no live task. -/
theorem skip (h : Came w s come) {name : ServiceName} {rest : List ServiceName}
    (hphase : s.phase = .stopping (name :: rest)) (hlive : w.live name = none) :
    Came w { s with phase := .stopping rest } (come ++ [name]) where
  order_eq := by
    have horder := h.order_eq
    rw [hphase] at horder
    simpa [ShutdownPhase.ahead] using horder
  sent_eq := by
    rw [List.filterMap_append, List.filterMap_cons_none (by rw [hlive]; rfl)]
    exact h.sent_eq.trans (List.append_nil _).symm
  awaited entry hentry := by cases hentry
  settled other hother task hother' := by
    rcases List.mem_append.mp hother with hmem | hmem
    · refine .inr ((h.settled other hmem task hother').resolve_left ?_)
      rw [hphase]
      exact nofun
    · rw [List.mem_singleton.mp hmem, hlive] at hother'
      cases hother'
  handles_eq other hother := h.handles_eq other (by rw [hphase]; exact .tail name hother)
  stops_eq := h.stops_eq
  tasks_eq := h.tasks_eq
  left_eq := h.left_eq
  requests_eq := h.requests_eq

/-- `stop_all` asks a live task to stop, and waits for it. -/
theorem ask (h : Came w s come) (hnodup : w.stopOrder.Nodup) {name : ServiceName}
    {rest : List ServiceName} (hphase : s.phase = .stopping (name :: rest)) {task : ℕ}
    (hlive : w.live name = some task) {reason : ShutdownReason} (hreason : s.reason = some reason)
    (grace : Duration) :
    Came w { s with
      stack := s.stack.request task reason
      sent := s.sent ++ [(name, task)]
      handles := s.handles.erase name
      phase := .waiting name task grace rest } (come ++ [name]) where
  order_eq := by
    have horder := h.order_eq
    rw [hphase] at horder
    simpa [ShutdownPhase.ahead] using horder
  sent_eq := by
    rw [List.filterMap_append, ← h.sent_eq, List.filterMap_cons_some (by rw [hlive]; rfl)]
    rfl
  awaited entry hentry := by
    cases hentry
    exact List.getLast?_concat
  settled other hother task' hother' := by
    rcases List.mem_append.mp hother with hmem | hmem
    · refine .inr ((h.settled other hmem task' hother').resolve_left ?_)
      rw [hphase]
      exact nofun
    · obtain rfl := List.mem_singleton.mp hmem
      rw [hlive] at hother'
      cases hother'
      exact .inl rfl
  handles_eq other hother := by
    have hne : other ≠ name := by
      rintro rfl
      have horder := h.order_eq
      rw [hphase, hreason] at horder
      rw [← show _ = w.stopOrder from horder] at hnodup
      exact (List.nodup_cons.mp (List.nodup_append.mp hnodup).2.1).1 hother
    refine Eq.trans (TreeMap.getElem?_erase_of_ne hne) ?_
    exact h.handles_eq other (by rw [hphase]; exact .tail name hother)
  stops_eq := h.stops_eq
  tasks_eq := h.tasks_eq
  left_eq := h.left_eq
  requests_eq reason' hreason' := by
    rw [hreason] at hreason'
    cases hreason'
    simp only [Stack.request, h.requests_eq reason hreason, List.map_append, List.map_cons,
      List.map_nil, List.append_assoc]

/-- `stop_all` is through with a service. -/
theorem resume (h : Came w s come) {name : ServiceName} {task : ℕ} {grace : Duration}
    {rest : List ServiceName} (hphase : s.phase = .waiting name task grace rest)
    {swept : List ℤ} {aborted : List (ℕ × Option ℤ)}
    (hover : ∀ other, s.Over other → Over { s with
      swept := swept, aborted := aborted, phase := .stopping rest } other)
    (htask : Over { s with swept := swept, aborted := aborted, phase := .stopping rest } task) :
    Came w { s with swept := swept, aborted := aborted, phase := .stopping rest } come where
  order_eq := by
    have horder := h.order_eq
    rwa [hphase] at horder
  sent_eq := h.sent_eq
  awaited entry hentry := by cases hentry
  settled other hother task' hother' := by
    rcases h.over_mono hover hother hother' with hawaited | hdone
    · rw [hphase] at hawaited
      cases hawaited
      exact .inr htask
    · exact .inr hdone
  handles_eq other hother := h.handles_eq other (by rw [hphase]; exact hother)
  stops_eq := h.stops_eq
  tasks_eq := h.tasks_eq
  left_eq := h.left_eq
  requests_eq := h.requests_eq

/-- After `stop_all`, only what is left of the tasks and their reports is dealt with. -/
theorem finish (h : Came w s come) (hahead : s.phase.ahead = []) (hawaited : s.phase.awaited = none)
    (phase : ShutdownPhase) (hphase : phase.Stopped) (reportQueue : List (ℕ × ServiceReport))
    (reports : List ServiceReport) :
    Came w { s with
      stack := { s.stack with reportQueue := reportQueue, reports := reports }
      phase := phase } come where
  order_eq := by
    rw [← h.order_eq, hahead]
    exact congrArg (come ++ ·) hphase.ahead_eq
  sent_eq := h.sent_eq
  awaited entry hentry := by
    rw [show _ = none from hphase.awaited_eq] at hentry
    cases hentry
  settled other hother task hother' := by
    refine .inr ((h.settled other hother task hother').resolve_left ?_)
    rw [hawaited]
    exact nofun
  handles_eq other hother := by
    rw [show _ = [] from hphase.ahead_eq] at hother
    cases hother
  stops_eq := h.stops_eq
  tasks_eq := h.tasks_eq
  left_eq := h.left_eq
  requests_eq := h.requests_eq

theorem stop (h : Came w s come) (hI : w.Inv) (hnodup : w.stopOrder.Nodup)
    (hstep : s.step .stop = some s') : ∃ come', Came w s' come' := by
  simp only [Shutdown.step] at hstep
  split at hstep
  · rename_i name rest reason hphase hreason
    cases hstep
    have hstop : s.stops[name]? = w.live name := by rw [h.stops_eq, hI.stops_eq]
    have hhandle : s.handles[name]? = w.live name :=
      h.handles_eq name (by rw [hphase]; exact .head rest)
    refine ⟨come ++ [name], ?_⟩
    cases hlive : w.live name with
    | none =>
      simp only [stopNext, hstop, hlive]
      exact h.skip hphase hlive
    | some task =>
      simp only [stopNext, hstop, hhandle, hlive]
      exact h.ask hnodup hphase hlive hreason _
  · rename_i hphase
    cases hstep
    refine ⟨come, ?_⟩
    exact h.finish (by rw [hphase]; rfl) (by rw [hphase]; rfl) (.joining _) trivial
      s.stack.reportQueue s.stack.reports
  · cases hstep

theorem ended (h : Came w s come) (hstep : s.step .ended = some s') : Came w s' come := by
  simp only [Shutdown.step] at hstep
  split at hstep
  · rename_i hphase
    obtain ⟨hfinished, hstep⟩ := Option.ite_none_right_eq_some.mp hstep
    cases hstep
    exact h.resume hphase (fun _ hover => hover) (.inl hfinished)
  · cases hstep

theorem timeout (h : Came w s come) (hstep : s.step .timeout = some s') : Came w s' come := by
  simp only [Shutdown.step] at hstep
  split at hstep
  · rename_i name task grace rest hphase
    cases hstep
    refine h.resume hphase (fun other hover => ?_) (.inr ⟨s.stack.pgid name, ?_, ?_⟩)
    · rcases hover with hfinished | ⟨pgid, hmem, hswept⟩
      · exact .inl hfinished
      · exact .inr ⟨pgid, List.mem_append_left _ hmem,
          fun group hgroup => List.mem_append_left _ (hswept group hgroup)⟩
    · exact List.mem_append_right _ List.mem_cons_self
    · exact fun group hgroup => List.mem_append_right _ hgroup
  · cases hstep

theorem join (h : Came w s come) (hstep : s.step .join = some s') : Came w s' come := by
  simp only [Shutdown.step] at hstep
  split at hstep
  · rename_i hphase
    obtain ⟨-, hstep⟩ := Option.ite_none_right_eq_some.mp hstep
    cases hstep
    exact h.finish (by rw [hphase]; rfl) (by rw [hphase]; rfl) (.joining _) trivial
      s.stack.reportQueue s.stack.reports
  · rename_i hphase
    cases hstep
    exact h.finish (by rw [hphase]; rfl) (by rw [hphase]; rfl) .draining trivial
      s.stack.reportQueue s.stack.reports
  · cases hstep

theorem drain (h : Came w s come) (hstep : s.step .drain = some s') : Came w s' come := by
  simp only [Shutdown.step] at hstep
  split at hstep
  · rename_i hphase _
    cases hstep
    exact h.finish (by rw [hphase]; rfl) (by rw [hphase]; rfl) s.phase
      (by rw [hphase]; trivial) _ _
  · rename_i hphase _
    obtain ⟨-, hstep⟩ := Option.ite_none_right_eq_some.mp hstep
    cases hstep
    exact h.finish (by rw [hphase]; rfl) (by rw [hphase]; rfl) .done trivial
      s.stack.reportQueue s.stack.reports
  · cases hstep

/-- However the end of a stack goes on, `stop_all` comes to the services one by one. -/
theorem step (h : Came w s come) (hI : w.Inv) (hnodup : w.stopOrder.Nodup)
    (hleft : w.left = some reason) {action : ShutdownAction} (hstep : s.step action = some s') :
    ∃ come', Came w s' come' := by
  cases action with
  | outside action => exact ⟨come, h.outside hleft hstep⟩
  | stop => exact h.stop hI hnodup hstep
  | ended => exact ⟨come, h.ended hstep⟩
  | timeout => exact ⟨come, h.timeout hstep⟩
  | join => exact ⟨come, h.join hstep⟩
  | drain => exact ⟨come, h.drain hstep⟩

end Came

/-- In every state of the end of a stack, `stop_all` has come to some of the services. -/
theorem exists_came {w : Stack} {reason : Option ShutdownReason} {s : Shutdown} (hI : w.Inv)
    (hnodup : w.stopOrder.Nodup) (hleft : w.left = some reason)
    (h : shutdownSystem.Steps AnyStep (Shutdown.begin w reason) s) : ∃ come, Came w s come := by
  refine h.invariant (I := fun s => ∃ come, Came w s come) ⟨[], .begin w reason⟩ ?_
  rintro _ _ _ - ⟨come, hcame⟩ - hstep
  exact hcame.step hI hnodup hleft hstep

/-- What is asked of the end of a stack whose loop was left in the state `w`. -/
structure Orderly (w : Stack) (s : Shutdown) : Prop where
  /-- A planned service is only asked to stop once every one that depends on it is over. -/
  after_dependents : ∀ name dependency stop task, w.PlannedOn name dependency →
    (dependency, stop) ∈ s.sent → w.live name = some task → s.Over task
  /-- Only live tasks are asked. -/
  sent_live : ∀ name stop, (name, stop) ∈ s.sent → w.live name = some stop
  at_most_once : s.sent.Nodup
  /-- Every live task, also one that a reload dropped, is asked once. -/
  once : s.reason.isSome → s.phase.Stopped →
    ∀ name task, w.live name = some task → s.sent.count (name, task) = 1
  /-- `stop_all` can always go on until it returns. -/
  returns : ∃ s', shutdownSystem.Steps AnyStep s s' ∧ s'.phase.Stopped
  /-- What `stop_all` sends is all that is sent after the loop was left. -/
  requests_eq : ∀ reason, s.reason = some reason →
    s.stack.requests = w.requests ++ s.sent.map fun entry => (entry.2, reason)
  /-- No task is spawned after the loop was left. -/
  tasks_eq : s.stack.tasks = w.tasks

namespace Came

variable {w : Stack} {s : Shutdown} {come : List ServiceName}

theorem mem_sent (h : Came w s come) {name : ServiceName} {stop : ℕ} :
    (name, stop) ∈ s.sent ↔ name ∈ come ∧ w.live name = some stop := by
  rw [h.sent_eq, List.mem_filterMap]
  constructor
  · rintro ⟨other, hother, he⟩
    obtain ⟨task, hlive, he⟩ := Option.map_eq_some_iff.mp he
    cases he
    exact ⟨hother, hlive⟩
  · rintro ⟨hmem, hlive⟩
    exact ⟨name, hmem, by rw [hlive]; rfl⟩

theorem nodup_come (h : Came w s come) (hnodup : w.stopOrder.Nodup) : come.Nodup := by
  have hqueue : (come ++ s.phase.ahead).Nodup := by
    rw [h.order_eq]
    split
    · exact hnodup
    · exact List.nodup_nil
  exact (List.nodup_append.mp hqueue).1

theorem nodup_sent (h : Came w s come) (hnodup : w.stopOrder.Nodup) : s.sent.Nodup := by
  rw [h.sent_eq]
  refine (h.nodup_come hnodup).filterMap fun name other entry hname hother => ?_
  obtain ⟨task, -, rfl⟩ := Option.map_eq_some_iff.mp (Option.mem_def.mp hname)
  obtain ⟨task', -, he⟩ := Option.map_eq_some_iff.mp (Option.mem_def.mp hother)
  exact (congrArg Prod.fst he).symm

/-- What `stop_all` came to before another service is over. -/
theorem over_of_before (h : Came w s come) (hnodup : w.stopOrder.Nodup)
    {pre post : List ServiceName} {name dependency : ServiceName}
    (hcome : come = pre ++ dependency :: post) (hname : name ∈ pre) {task : ℕ}
    (hlive : w.live name = some task) : s.Over task := by
  refine (h.settled name (by simp [hcome, hname]) task hlive).resolve_left fun hawaited => ?_
  -- the awaited service is the last one that `stop_all` has come to
  have hlast := h.awaited _ hawaited
  have hdistinct := h.nodup_come hnodup
  rw [hcome] at hlast hdistinct
  rw [List.getLast?_append_cons] at hlast
  exact (List.nodup_append.mp hdistinct).2.2 name hname name (List.mem_of_getLast? hlast) rfl

end Came

/-- The awaited task can time out. -/
theorem exists_stopping {s : Shutdown} (h : ¬ s.phase.Stopped) :
    ∃ s', shutdownSystem.Steps AnyStep s s' ∧ s'.reason = s.reason ∧
      s'.phase = .stopping s.phase.ahead := by
  cases hphase : s.phase with
  | stopping rest => exact ⟨s, .refl s, rfl, hphase⟩
  | waiting name task grace rest =>
    have hstep : shutdownSystem.step s .timeout = some { s with
        swept := s.swept ++ sweepGroup (s.stack.pgid name)
        aborted := s.aborted ++ [(task, s.stack.pgid name)]
        phase := .stopping rest } := by
      simp only [shutdownSystem, Shutdown.step, hphase]
    exact ⟨_, .tail (.refl s) (.intro trivial hstep), rfl, rfl⟩
  | joining | draining | done =>
    rw [hphase] at h
    exact absurd trivial h

theorem stopNext_keeps (s : Shutdown) (reason : ShutdownReason) (name : ServiceName)
    (rest : List ServiceName) :
    (s.stopNext reason name rest).reason = s.reason ∧
      ¬ (s.stopNext reason name rest).phase.Stopped ∧
      (s.stopNext reason name rest).phase.ahead = rest := by
  unfold stopNext
  split
  · exact ⟨rfl, id, rfl⟩
  · dsimp only
    split <;> exact ⟨rfl, id, rfl⟩

/-- However many services are ahead, `stop_all` can come to all of them. -/
theorem exists_stopped {s : Shutdown} (hahead : s.reason.isSome ∨ s.phase.ahead = []) :
    ∃ s', shutdownSystem.Steps AnyStep s s' ∧ s'.phase.Stopped := by
  by_cases hphase : s.phase.Stopped
  · exact ⟨s, .refl s, hphase⟩
  generalize hrest : s.phase.ahead = rest at hahead
  induction rest generalizing s with
  | nil =>
    obtain ⟨u, hu, -, hstopping⟩ := exists_stopping hphase
    rw [hrest] at hstopping
    have hstep : shutdownSystem.step u .stop =
        some { u with phase := .joining u.handles.toList } := by
      simp only [shutdownSystem, Shutdown.step, hstopping]
    exact ⟨_, hu.tail (.intro trivial hstep), trivial⟩
  | cons name rest ih =>
    obtain ⟨u, hu, hreason, hstopping⟩ := exists_stopping hphase
    rw [hrest] at hstopping
    obtain ⟨reason, hsome⟩ := Option.isSome_iff_exists.mp (hahead.resolve_right (by simp))
    rw [hsome] at hreason
    have hstep : shutdownSystem.step u .stop = some (u.stopNext reason name rest) := by
      simp only [shutdownSystem, Shutdown.step, hstopping, hreason]
    obtain ⟨hsame, hopen, hnext⟩ := u.stopNext_keeps reason name rest
    obtain ⟨s', hs', hstopped⟩ := ih hopen hnext (.inl (by rw [hsame, hreason]; rfl))
    exact ⟨s', (hu.tail (.intro trivial hstep)).trans hs', hstopped⟩

section Order

variable {options : StackOptions} {config : ValidConfig} {plan : StartPlan config.1}
  {stopped : Finset ServiceName} {w : Stack} {reason : Option ShutdownReason} {s : Shutdown}

/-- The order of the stops is that of the plan, if that is part of a start order. -/
theorem orderly_of_planned (hI : w.Inv) (hplanned : w.Planned) (hleft : w.left = some reason)
    (hs : shutdownSystem.Steps AnyStep (Shutdown.begin w reason) s) : s.Orderly w := by
  have hnodup := hplanned.nodup_stopOrder
  obtain ⟨come, hcame⟩ := exists_came hI hnodup hleft hs
  refine {
    after_dependents := ?after_dependents
    sent_live := fun name stop hsent => (hcame.mem_sent.mp hsent).2
    at_most_once := hcame.nodup_sent hnodup
    once := ?once
    returns := ?returns
    requests_eq := hcame.requests_eq
    tasks_eq := hcame.tasks_eq }
  case after_dependents =>
    intro name dependency stop task hon hsent hlive
    obtain ⟨pre, post, hcome⟩ := List.append_of_mem (hcame.mem_sent.mp hsent).1
    have horder := hcame.order_eq
    split at horder
    · refine hcame.over_of_before hnodup hcome ?_ hlive
      rw [hcome, List.append_assoc, List.cons_append] at horder
      exact hplanned.stopOrder pre dependency _ horder.symm name hon
    · simp [hcome] at horder
  case once =>
    intro hreason hstopped name task hlive
    refine List.count_eq_one_of_mem (hcame.nodup_sent hnodup) (hcame.mem_sent.mpr ⟨?_, hlive⟩)
    have horder := hcame.order_eq
    rw [if_pos hreason, hstopped.ahead_eq, List.append_nil] at horder
    rw [horder]
    exact hI.mem_stopOrder hlive
  case returns =>
    refine exists_stopped ?_
    have horder := hcame.order_eq
    split at horder
    · exact .inl ‹_›
    · exact .inr (List.append_eq_nil_iff.mp horder).2

/-- **The order of the end of a stack.** Whatever the commands and reloads before the loop was left,
and however the tasks, the clients and the grace periods go on, `stop_all` asks a planned service to
stop only once those that depend on it are over, asks every live task once, and nothing is spawned
any more. -/
theorem orderly_of_steps (hsorted : config.1.Sorted)
    (hw : stackSystem.Steps Stack.SortedReloads (Stack.initial options config plan.1 stopped) w)
    (hleft : w.left = some reason)
    (hs : shutdownSystem.Steps AnyStep (Shutdown.begin w reason) s) : s.Orderly w :=
  orderly_of_planned (Stack.inv_of_reachable ⟨_, ⟨options, config, plan, stopped, rfl⟩, hw.anyStep⟩)
    (Stack.planned_of_steps hsorted hw) hleft hs

/-- It is the order of the end of every stack whose configurations loading has accepted. -/
theorem orderly_of_loaded (hloaded : config.1.Loaded)
    (hw : stackSystem.Steps Stack.LoadedReloads (Stack.initial options config plan.1 stopped) w)
    (hleft : w.left = some reason)
    (hs : shutdownSystem.Steps AnyStep (Shutdown.begin w reason) s) : s.Orderly w :=
  orderly_of_planned (Stack.inv_of_reachable ⟨_, ⟨options, config, plan, stopped, rfl⟩, hw.anyStep⟩)
    (Stack.planned_of_loaded hloaded hw) hleft hs

end Order

/-! ### The end of the sample stack -/

/-- The loop is left while a reload has the first service restarted and a command is queued: the
second service does not end in time and its group is swept, then the first one is asked. -/
theorem orderly_changed : ∃ (w : Stack) (s : Shutdown), s.Orderly w ∧
    w.left = some (some .userInterrupt) ∧ s.sent = [(⟨"web"⟩, 1), (⟨"db"⟩, 0)] ∧ s.swept = [77] ∧
      s.phase = .done := by
  have hrun : ((stackSystem.run sampleStack [.submit (.reload changedConfig changedPlan 0),
      .control, .submit (.start ⟨"web"⟩ 1), .store 1 77, .interrupt .userInterrupt]).bind fun w =>
      (shutdownSystem.run (Shutdown.begin w (some .userInterrupt)) [.stop, .timeout, .stop,
        .outside Stack.sampleEnd, .ended, .stop, .join, .drain, .drain]).map fun s => decide
          (w.left = some (some .userInterrupt) ∧ s.sent = [(⟨"web"⟩, 1), (⟨"db"⟩, 0)] ∧
            s.swept = [77] ∧ s.phase = .done)) = some true := by
    decide +kernel
  obtain ⟨w, hw, hrun⟩ := Option.bind_eq_some_iff.mp hrun
  obtain ⟨s, hs, hfacts⟩ := Option.map_eq_some_iff.mp hrun
  obtain ⟨hleft, hfacts⟩ := of_decide_eq_true hfacts
  have hguard := TransitionSystem.steps_of_run_of_forall (C := Stack.SortedReloads) ?_ hw
  · exact ⟨w, s, orderly_of_steps (by decide +kernel) hguard hleft
      (TransitionSystem.steps_of_run hs), hleft, hfacts⟩
  · rintro action haction _ _ config plan ack rfl
    obtain ⟨rfl, -⟩ : config = changedConfig ∧ ack = 0 := by simp at haction; tauto
    decide +kernel

end Shutdown

end Servicrab
