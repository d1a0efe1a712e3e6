import Servicrab.Supervisor.Convergence
import Servicrab.Supervisor.Shutdown

/-!
# The reports of removed services

A service that a reload has removed is not part of the verdict of the run: the loop drops its report
together with its slot. What is left in the queue when the loop is left is taken without a look at
the slots. So the report of a removed service stays out of the outcome if and only if the loop still
takes it, or nobody does.

## Main definitions

* `TakenReport`, `RemovedLeftOut`.
* `Stack.Marked`: the retired slots are those of the services that are not in the plan.
* `Shutdown.Drained`: the invariant of the drain.

## Main results

* `Shutdown.removedLeftOut_iff`.
-/

open Std (ExtTreeMap)
open TransitionSystem (AnyStep)

namespace Servicrab

/-- A report as it was taken from the queue. -/
structure TakenReport where
  task : ℕ
  report : ServiceReport
  /-- Whether the service was not in the plan in force: a reload had removed it, and no later one had
  brought it back. -/
  removed : Bool
  deriving DecidableEq

/-- The reports of the outcome are those of the services that were not removed when their report was
taken. -/
def RemovedLeftOut (reports : List ServiceReport) (taken : List TakenReport) : Prop :=
  reports = (taken.filter fun entry => !entry.removed).map TakenReport.report

/-- Reports that were taken later without a look at the services. -/
theorem RemovedLeftOut.append_iff {reports : List ServiceReport} {taken later : List TakenReport}
    (h : RemovedLeftOut reports taken) :
    RemovedLeftOut (reports ++ later.map TakenReport.report) (taken ++ later) ↔
      ∀ entry ∈ later, entry.removed = false := by
  rw [RemovedLeftOut, List.filter_append, List.map_append, ← h, List.append_cancel_left_eq]
  constructor
  · intro he
    have hlength := congrArg List.length he
    rw [List.length_map, List.length_map, eq_comm, List.length_filter_eq_length_iff] at hlength
    exact fun entry hentry => by simpa using hlength entry hentry
  · intro hall
    rw [List.filter_eq_self.mpr fun entry hentry => by simp [hall entry hentry]]

namespace Stack

variable {w w' : Stack} {name : ServiceName} {slot slot' : Slot}

/-- The report that is taken next. -/
def nextReport (w : Stack) : List TakenReport :=
  match w.reportQueue with
  | (task, report) :: _ => [⟨task, report, decide (report.service ∉ w.plan)⟩]
  | [] => []

/-- The report that a move of the loop takes. -/
def takes (w : Stack) (action : StackAction) : List TakenReport :=
  match action with
  | .report => w.nextReport
  | _ => []

/-! ### Retired slots -/

/-- The retired slots are those of the services that are not in the plan. -/
def Marked (w : Stack) : Prop :=
  ∀ (name : ServiceName) (slot : Slot), w.slots[name]? = some slot →
    (slot.retired ↔ name ∉ w.plan)

theorem Marked.congr (h : w.Marked) (hslots : w'.slots = w.slots) (hplan : w'.plan = w.plan) :
    w'.Marked := by
  intro name slot hs
  rw [hplan]
  exact h name slot (hslots ▸ hs)

theorem Marked.insert (h : w.Marked) (hs : w.slots[name]? = some slot)
    (hslots : w'.slots = w.slots.insert name slot') (hplan : w'.plan = w.plan)
    (hretired : slot'.retired = slot.retired) : w'.Marked := by
  intro other s hs'
  rw [hplan]
  rw [hslots, TreeMap.getElem?_insert] at hs'
  split_ifs at hs' with he
  · cases hs'
    rw [hretired, he]
    exact h name slot hs
  · exact h other s hs'

theorem Marked.report (h : w.Marked) (hI : w.Inv) (hstep : w.step .report = some w') :
    w'.Marked := by
  obtain ⟨_, report, _, slot, _, _, -, hs, -, heffect⟩ := hI.step_report hstep
  cases heffect with
  | removed =>
    intro other s hs'
    rw [TreeMap.getElem?_erase] at hs'
    split_ifs at hs'
    exact h other s hs'
  | respawned | stopped => exact h.insert hs rfl rfl rfl

theorem Marked.control (h : w.Marked) (hI : w.Inv) (hstep : w.step .control = some w') :
    w'.Marked := by
  obtain ⟨command, rest, -, rfl⟩ := step_control hstep
  have hrest : Marked { w with control := rest } := h.congr rfl rfl
  cases command with
  | reload config plan ack =>
    rw [handleControl, reload]
    split
    · exact hrest.congr rfl rfl
    · have hconv : Converging config.1 plan.1
          ({ w with control := rest }.applyReload config plan.1) :=
        converging_applyReload (hI.takeCommand rest)
      have hplan := (plan_applyReload { w with control := rest } config plan.1).2
      intro name slot hs
      change slot.retired ↔ name ∉ (applyReload _ config plan.1).plan
      rw [hplan]
      refine ⟨fun hretired hname => ?_, fun hname => hconv.unplanned hname hs⟩
      obtain ⟨slot', hs', hkept, -⟩ := hconv.planned hname
      rw [Option.some.inj (hs.symm.trans hs'), hkept] at hretired
      cases hretired
  | start service ack =>
    rw [handleControl]
    obtain ⟨_, he⟩ | ⟨slot, hs, -, he⟩ := withSlot_cases service ack _ <;> rw [he]
    · exact hrest.congr rfl rfl
    · split_ifs
      · exact hrest.congr rfl rfl
      · exact hrest.insert hs rfl rfl rfl
  | stop service ack | restart service ack =>
    rw [handleControl]
    obtain ⟨_, he⟩ | ⟨slot, hs, -, he⟩ := withSlot_cases service ack _ <;> rw [he]
    · exact hrest.congr rfl rfl
    · split
      · first | exact hrest.congr rfl rfl | exact hrest.insert hs rfl rfl rfl
      · exact hrest.insert hs rfl rfl rfl

theorem Marked.step (h : w.Marked) (hI : w.Inv) {action : StackAction}
    (hstep : w.step action = some w') : w'.Marked := by
  by_cases hcontrol : action = .control
  · exact h.control hI (hcontrol ▸ hstep)
  by_cases hreport : action = .report
  · exact h.report hI (hreport ▸ hstep)
  have hquiet := step_quiet hstep hcontrol hreport
  exact h.congr hquiet.slots_eq hquiet.plan_eq

theorem Marked.insertPlanned (h : w.Marked) (hname : name ∈ w.plan) :
    (w.insertPlanned name).Marked := by
  unfold Stack.insertPlanned
  split
  · intro other s hs
    rw [(samePlan_insertSlot w name _).2]
    simp only [insertSlot, TreeMap.getElem?_insert, slots_debugAssert] at hs
    split_ifs at hs with he
    · cases hs
      simp [he, hname]
    · exact h other s hs
  · exact h

theorem Marked.rewireDependencies (h : w.Marked) : w.rewireDependencies.Marked := by
  intro name slot hs
  rw [Stack.rewireDependencies, ExtTreeMap.getElem?_map] at hs
  obtain ⟨before, hbefore, rfl⟩ := Option.map_eq_some_iff.mp hs
  have hmarked := h name before hbefore
  split <;> exact hmarked

theorem Marked.startService (h : w.Marked) (stopped : Finset ServiceName) (name : ServiceName) :
    (w.startService stopped name).Marked := by
  unfold Stack.startService publishStopped
  split_ifs <;> split
  · exact h
  · exact h.congr rfl rfl
  · rename_i slot hs
    exact h.insert hs rfl rfl rfl
  · exact h

theorem marked_initial (options : StackOptions) (config : ValidConfig) (plan : List ServiceName)
    (stopped : Finset ServiceName) : (Stack.initial options config plan stopped).Marked := by
  have hempty : (empty options config plan).Marked := fun name slot hs => by simp [empty] at hs
  have hslots : (plan.foldl insertPlanned (empty options config plan)).Marked ∧
      (plan.foldl insertPlanned (empty options config plan)).plan = plan := by
    refine List.foldlRecOn (motive := fun w => w.Marked ∧ w.plan = plan) plan insertPlanned
      ⟨hempty, rfl⟩ fun w hw name hname => ?_
    refine ⟨?_, (samePlan_insertPlanned w name).2.trans hw.2⟩
    exact hw.1.insertPlanned (by rw [hw.2]; exact hname)
  refine (List.foldlRecOn (motive := fun w => w.Marked ∧ w.plan = plan) plan (startService · stopped)
    ⟨hslots.1.rewireDependencies, hslots.2⟩ fun w hw name _ => ?_).1
  exact ⟨hw.1.startService stopped name, (samePlan_startService w stopped name).2.trans hw.2⟩

theorem marked_of_reachable {C : Stack → StackAction → Stack → Prop}
    (h : stackSystem.Reachable C w) : w.Marked := by
  refine h.invariant ?_ fun hu hM _ hstep => hM.step (inv_of_reachable hu) hstep
  rintro w₀ ⟨options, config, plan, stopped, rfl⟩
  exact marked_initial options config plan.1 stopped

/-! ### The loop -/

theorem Op.reports_eq (hop : Op w w') : w'.reports = w.reports := by
  cases hop with
  | insert hs => rw [insertSlot_of_none hs]
  | _ => rfl

theorem Ops.reports_eq (hops : Ops w w') : w'.reports = w.reports := by
  induction hops with
  | refl => rfl
  | tail _ hop ih => exact hop.reports_eq.trans ih

theorem ReportEffect.reports_eq {rest : List (ℕ × ServiceReport)} {reports : List ServiceReport}
    {left : Option (Option ShutdownReason)}
    (h : ReportEffect w rest name slot reports left w') : w'.reports = reports := by
  cases h <;> rfl

/-- Nothing but a report or a command touches the reports that were collected. -/
theorem reports_quiet {action : StackAction} (hstep : w.step action = some w')
    (hcontrol : action ≠ .control) (hreport : action ≠ .report) : w'.reports = w.reports := by
  cases action with
  | control => exact absurd rfl hcontrol
  | report => exact absurd rfl hreport
  | finish task result =>
    obtain ⟨_, -, -, rfl⟩ := finishTask_cases hstep
    rfl
  | submit | interrupt | idle =>
    simp only [step] at hstep
    split_ifs at hstep
    cases hstep
    rfl
  | write | store | emit =>
    cases hstep
    rfl

/-- The loop collects the reports that it takes, but for those of removed services. -/
theorem reports_step (hM : w.Marked) (hI : w.Inv) {action : StackAction}
    (hstep : w.step action = some w') :
    w'.reports = w.reports ++
      ((w.takes action).filter fun entry => !entry.removed).map TakenReport.report := by
  cases action with
  | control =>
    obtain ⟨_, _, _, _, -, hops, rfl⟩ := hI.ops_control hstep
    exact hops.reports_eq.trans (List.append_nil _).symm
  | report =>
    simp only [step] at hstep
    split at hstep
    · rename_i task report rest hlooping hqueue
      cases hstep
      obtain ⟨slot, hs, hhandle⟩ := hI.exists_slot_of_report hqueue
      have hpos : 0 < w.running := by
        refine hI.running_pos report.service ?_
        rw [live_of_slot hs, hhandle]
        rfl
      have hsettled := (settleSlot_effect w rest report.service slot).reports_eq
      have hmarked := hM report.service slot hs
      simp only [handleReport, decide_eq_true hpos, debugAssert_true, hs, takes, nextReport, hqueue]
      cases hretired : slot.retired with
      | true =>
        have hremoved : report.service ∉ w.plan := hmarked.mp hretired
        simpa [hremoved] using hsettled
      | false =>
        have hkept : report.service ∈ w.plan := by
          by_contra hname
          rw [hmarked.mpr hname] at hretired
          cases hretired
        simpa [hkept] using hsettled
    · cases hstep
  | _ => exact (reports_quiet hstep (by simp) (by simp)).trans (List.append_nil _).symm

/-- A run of the loop leaves out the reports of removed services. -/
theorem removedLeftOut_of_run {options : StackOptions} {config : ValidConfig}
    {plan : StartPlan config.1} {stopped : Finset ServiceName} {actions : List StackAction}
    (h : stackSystem.run (Stack.initial options config plan.1 stopped) actions = some w) :
    RemovedLeftOut w.reports
      (stackSystem.observed takes (Stack.initial options config plan.1 stopped) actions) := by
  have hinit : stackSystem.Reachable AnyStep (Stack.initial options config plan.1 stopped) :=
    .initial ⟨options, config, plan, stopped, rfl⟩
  have hnone : (Stack.initial options config plan.1 stopped).reports = [] := by
    refine initial_induction (P := fun w => w.reports = []) rfl (fun w name hw => ?_)
      (fun w hw => hw) (fun w name hw => ?_)
    · unfold insertPlanned
      split
      · simpa only [insertSlot, reports_debugAssert] using hw
      · exact hw
    · unfold startService publishStopped
      split_ifs <;> split <;> exact hw
  have hbegin : RemovedLeftOut (Stack.initial options config plan.1 stopped).reports [] := hnone
  refine TransitionSystem.observed_induction (I := fun w taken => RemovedLeftOut w.reports taken)
    (fun {u action v taken} hu htaken hstep => ?_) hinit hbegin h
  rw [RemovedLeftOut, reports_step (marked_of_reachable hu) (inv_of_reachable hu) hstep, htaken,
    List.filter_append, List.map_append]

end Stack

/-! ### The drain -/

namespace Shutdown

/-- The report that a move takes. -/
def takes (s : Shutdown) (action : ShutdownAction) : List TakenReport :=
  match action with
  | .drain => s.stack.nextReport
  | _ => []

theorem takes_of_ne {s : Shutdown} {action : ShutdownAction} (h : action ≠ .drain) :
    s.takes action = [] := by
  cases action with
  | drain => exact absurd rfl h
  | _ => rfl

/-- Apart from the drain and what goes on outside, the moves only send requests. -/
theorem stack_of_step {s s' : Shutdown} {action : ShutdownAction}
    (hstep : s.step action = some s') (hdrain : action ≠ .drain)
    (houtside : ∀ stackAction, action ≠ .outside stackAction) :
    ∃ requests, s'.stack = { s.stack with requests := requests } := by
  cases action with
  | drain => exact absurd rfl hdrain
  | outside stackAction => exact absurd rfl (houtside stackAction)
  | stop =>
    simp only [Shutdown.step] at hstep
    split at hstep <;> cases hstep
    · unfold stopNext
      split
      · exact ⟨_, rfl⟩
      · dsimp only
        split <;> exact ⟨_, rfl⟩
    · exact ⟨_, rfl⟩
  | timeout =>
    simp only [Shutdown.step] at hstep
    split at hstep <;> cases hstep
    exact ⟨_, rfl⟩
  | ended | join =>
    simp only [Shutdown.step] at hstep
    split at hstep
    · obtain ⟨-, hstep⟩ := Option.ite_none_right_eq_some.mp hstep
      cases hstep
      exact ⟨_, rfl⟩
    all_goals
      cases hstep
      try exact ⟨_, rfl⟩

/-- What was taken since the loop was left, and the reports that came late. -/
structure Drained (w : Stack) (s : Shutdown) (taken : List TakenReport)
    (late : List (ℕ × ServiceReport)) : Prop where
  plan_eq : s.stack.plan = w.plan
  tasks_eq : s.stack.tasks = w.tasks
  left_eq : s.stack.left = w.left
  reports_eq : s.stack.reports = w.reports ++ taken.map TakenReport.report
  queue_eq : (taken.map fun entry => (entry.task, entry.report)) ++ s.stack.reportQueue =
    w.reportQueue ++ late
  finished_eq : s.stack.finished = w.finished ++ late.map Prod.fst
  /-- A late report comes from a task that had not sent one. -/
  late_new : ∀ entry ∈ late, entry.1 ∉ w.finished ∧
    ∃ spawned, w.tasks[entry.1]? = some spawned ∧ spawned.service.name = entry.2.service
  late_nodup : (late.map Prod.fst).Nodup
  removed_eq : ∀ entry ∈ taken, entry.removed = decide (entry.report.service ∉ w.plan)

namespace Drained

variable {w : Stack} {s s' : Shutdown} {taken : List TakenReport} {late : List (ℕ × ServiceReport)}
  {reason : Option ShutdownReason}

theorem begin (w : Stack) (reason : Option ShutdownReason) :
    Drained w (Shutdown.begin w reason) [] [] := by
  constructor <;> simp [Shutdown.begin, Stack.takeHandles]

/-- What goes on outside may add late reports. -/
theorem outside (h : Drained w s taken late) (hleft : w.left = some reason) {action : StackAction}
    (hstep : s.step (.outside action) = some s') : ∃ late', Drained w s' taken late' := by
  obtain ⟨stack, hstack, rfl⟩ := Option.map_eq_some_iff.mp hstep
  obtain ⟨hquiet, hsame, -⟩ := Stack.step_of_left (h.left_eq.trans hleft) hstack
  have hplan := hquiet.plan_eq.trans h.plan_eq
  have htasks := hquiet.tasks_eq.trans h.tasks_eq
  by_cases hfinish : ∃ task result, action = .finish task result
  · obtain ⟨task, result, rfl⟩ := hfinish
    obtain ⟨spawned, htask, hnew, rfl⟩ := Stack.finishTask_cases hstack
    rw [h.finished_eq, List.mem_append, not_or] at hnew
    refine ⟨late ++ [(task, ⟨spawned.service.name, result⟩)], hplan, htasks, hsame.trans h.left_eq,
      h.reports_eq, ?_, ?_, ?_, ?_, h.removed_eq⟩
    · rw [← List.append_assoc, h.queue_eq, List.append_assoc]
    · simp [h.finished_eq]
    · intro entry hentry
      rcases List.mem_append.mp hentry with hentry | hentry
      · exact h.late_new entry hentry
      · rw [List.mem_singleton.mp hentry]
        exact ⟨hnew.1, spawned, h.tasks_eq ▸ htask, rfl⟩
    · rw [List.map_append, List.nodup_append]
      refine ⟨h.late_nodup, by simp, ?_⟩
      rintro _ hother other hmem rfl
      rw [List.mem_singleton.mp hmem] at hother
      exact hnew.2 hother
  · have hlooping : s.stack.looping = false := by
      simp [Stack.looping, h.left_eq.trans hleft]
    have hcontrol : action ≠ .control := by
      rintro rfl
      simp [Stack.step, hlooping] at hstack
    have hreport : action ≠ .report := by
      rintro rfl
      simp [Stack.step, hlooping] at hstack
    obtain ⟨hfinished, hqueue⟩ := Stack.step_reports hstack hcontrol hreport
      fun task result he => hfinish ⟨task, result, he⟩
    refine ⟨late, hplan, htasks, hsame.trans h.left_eq, ?_, ?_, hfinished.trans h.finished_eq,
      h.late_new, h.late_nodup, h.removed_eq⟩
    · exact (Stack.reports_quiet hstack hcontrol hreport).trans h.reports_eq
    · rw [hqueue, h.queue_eq]

theorem drain (h : Drained w s taken late) (hstep : s.step .drain = some s') :
    Drained w s' (taken ++ s.stack.nextReport) late := by
  simp only [Shutdown.step] at hstep
  split at hstep
  · rename_i task report rest hphase hqueue
    cases hstep
    have hnext : s.stack.nextReport =
        [⟨task, report, decide (report.service ∉ s.stack.plan)⟩] := by
      rw [Stack.nextReport, hqueue]
    rw [hnext]
    refine ⟨h.plan_eq, h.tasks_eq, h.left_eq, ?_, ?_, h.finished_eq, h.late_new, h.late_nodup, ?_⟩
    · simp [h.reports_eq]
    · rw [← h.queue_eq, hqueue]
      simp
    · intro entry hentry
      rcases List.mem_append.mp hentry with hentry | hentry
      · exact h.removed_eq entry hentry
      · rw [List.mem_singleton.mp hentry, h.plan_eq]
  · rename_i hphase hqueue
    obtain ⟨-, hstep⟩ := Option.ite_none_right_eq_some.mp hstep
    cases hstep
    rw [Stack.nextReport, hqueue, List.append_nil]
    exact ⟨h.plan_eq, h.tasks_eq, h.left_eq, h.reports_eq, h.queue_eq, h.finished_eq, h.late_new,
      h.late_nodup, h.removed_eq⟩
  · cases hstep

theorem step (h : Drained w s taken late) (hleft : w.left = some reason) {action : ShutdownAction}
    (hstep : s.step action = some s') : ∃ late', Drained w s' (taken ++ s.takes action) late' := by
  by_cases hdrain : action = .drain
  · subst hdrain
    exact ⟨late, h.drain hstep⟩
  rw [takes_of_ne hdrain, List.append_nil]
  by_cases houtside : ∃ stackAction, action = .outside stackAction
  · obtain ⟨stackAction, rfl⟩ := houtside
    exact h.outside hleft hstep
  obtain ⟨requests, hstack⟩ := stack_of_step hstep hdrain fun stackAction he =>
    houtside ⟨stackAction, he⟩
  refine ⟨late, ?_, ?_, ?_, ?_, ?_, ?_, h.late_new, h.late_nodup, h.removed_eq⟩
  all_goals rw [hstack]
  exacts [h.plan_eq, h.tasks_eq, h.left_eq, h.reports_eq, h.queue_eq, h.finished_eq]

theorem reported_eq (h : Drained w s taken late) :
    taken.map TakenReport.task ++ s.stack.reportQueue.map Prod.fst =
      w.reportQueue.map Prod.fst ++ late.map Prod.fst := by
  have hqueue := congrArg (List.map Prod.fst) h.queue_eq
  rwa [List.map_append, List.map_append, List.map_map] at hqueue

/-- A report that was taken is one of the task that its service had when the loop was left. -/
theorem live_of_mem (h : Drained w s taken late) (hI : w.Inv) {entry : TakenReport}
    (hentry : entry ∈ taken) : w.live entry.report.service = some entry.task := by
  have hmem : (entry.task, entry.report) ∈ w.reportQueue ++ late := by
    rw [← h.queue_eq]
    exact List.mem_append_left _ (List.mem_map_of_mem (f := fun e => (e.task, e.report)) hentry)
  refine hI.live_iff.mpr ?_
  rcases List.mem_append.mp hmem with hmem | hmem
  · obtain ⟨spawned, htask, hname⟩ := hI.queue_service hmem
    exact ⟨spawned, htask, hname, .inr (List.mem_map_of_mem (f := Prod.fst) hmem)⟩
  · obtain ⟨hnew, spawned, htask, hname⟩ := h.late_new _ hmem
    exact ⟨spawned, htask, hname, .inl hnew⟩

/-- A task that a service had when the loop was left is outstanding as long as its report was not
taken. -/
theorem outstanding_iff (h : Drained w s taken late) (hI : w.Inv) {name : ServiceName} {task : ℕ}
    (hlive : w.live name = some task) :
    s.stack.Outstanding task name ↔ task ∉ taken.map TakenReport.task := by
  obtain ⟨spawned, htask, hname, hout⟩ := hI.live_iff.mp hlive
  have hnodup : (taken.map TakenReport.task ++ s.stack.reportQueue.map Prod.fst).Nodup := by
    rw [h.reported_eq, List.nodup_append]
    refine ⟨hI.queue_nodup, h.late_nodup, ?_⟩
    rintro other hother _ hmem rfl
    obtain ⟨entry, hentry, rfl⟩ := List.mem_map.mp hmem
    exact (h.late_new entry hentry).1 (hI.queue_finished hother)
  constructor
  · rintro ⟨-, -, -, hout⟩ htaken
    have hnot : task ∉ s.stack.reportQueue.map Prod.fst := fun hmem =>
      (List.nodup_append.mp hnodup).2.2 task htaken task hmem rfl
    refine hnot (hout.resolve_left fun hfinished => hfinished ?_)
    have hmem : task ∈ w.reportQueue.map Prod.fst ++ late.map Prod.fst := by
      rw [← h.reported_eq]
      exact List.mem_append_left _ htaken
    rw [h.finished_eq]
    exact List.mem_append.mpr ((List.mem_append.mp hmem).imp_left hI.queue_finished)
  · intro htaken
    refine ⟨spawned, h.tasks_eq ▸ htask, hname, or_iff_not_imp_left.mpr fun hfinished => ?_⟩
    rw [not_not, h.finished_eq, List.mem_append] at hfinished
    have hmem : task ∈ taken.map TakenReport.task ++ s.stack.reportQueue.map Prod.fst := by
      rw [h.reported_eq]
      rcases hfinished with hfinished | hlate
      · exact List.mem_append_left _ (hout.resolve_left fun hnot => hnot hfinished)
      · exact List.mem_append_right _ hlate
    exact (List.mem_append.mp hmem).resolve_left htaken

/-- No report of a removed service was taken as long as the tasks of the retired slots are
outstanding. -/
theorem removed_iff (h : Drained w s taken late) (hI : w.Inv) (hM : w.Marked) :
    (∀ entry ∈ taken, entry.removed = false) ↔
      ∀ name slot task, w.slots[name]? = some slot → slot.retired → slot.stop = some task →
        s.stack.Outstanding task name := by
  constructor
  · intro hall name slot task hs hretired hstop
    have hlive : w.live name = some task := by rw [Stack.live_of_slot hs, ← hI.stop_eq hs, hstop]
    rw [h.outstanding_iff hI hlive]
    intro htaken
    obtain ⟨entry, hentry, rfl⟩ := List.mem_map.mp htaken
    have hservice : entry.report.service = name := by
      obtain ⟨spawned, htask, hname, -⟩ := hI.live_iff.mp hlive
      obtain ⟨spawned', htask', hname', -⟩ := hI.live_iff.mp (h.live_of_mem hI hentry)
      rw [← hname, ← hname', Option.some.inj (htask.symm.trans htask')]
    have hremoved := h.removed_eq entry hentry
    rw [hall entry hentry, hservice] at hremoved
    exact absurd ((hM name slot hs).mp hretired) (by simpa using hremoved)
  · intro hall entry hentry
    have hlive := h.live_of_mem hI hentry
    rw [h.removed_eq entry hentry, decide_eq_false_iff_not]
    intro hname
    obtain ⟨slot, hs, hhandle⟩ := Stack.exists_slot_of_live hlive
    have hout := hall _ slot entry.task hs ((hM _ slot hs).mpr hname)
      ((hI.stop_eq hs).trans hhandle)
    rw [h.outstanding_iff hI hlive] at hout
    exact hout (List.mem_map_of_mem (f := TakenReport.task) hentry)

end Drained

/-- **The reports of removed services** stay out of what is collected if and only if none of them is
left to the drain: every task that a retired slot has when the loop is left has not reported, or its
report is still in the queue. -/
theorem removedLeftOut_iff {options : StackOptions} {config : ValidConfig} {plan : StartPlan config.1}
    {stopped : Finset ServiceName} {actions : List StackAction} {w : Stack}
    {reason : Option ShutdownReason} {endActions : List ShutdownAction} {s : Shutdown}
    (hw : stackSystem.run (Stack.initial options config plan.1 stopped) actions = some w)
    (hleft : w.left = some reason)
    (hs : shutdownSystem.run (Shutdown.begin w reason) endActions = some s) :
    RemovedLeftOut s.stack.reports
        (stackSystem.observed Stack.takes (Stack.initial options config plan.1 stopped) actions ++
          shutdownSystem.observed takes (Shutdown.begin w reason) endActions) ↔
      ∀ name slot task, w.slots[name]? = some slot → slot.retired → slot.stop = some task →
        s.stack.Outstanding task name := by
  have hreach : stackSystem.Reachable AnyStep w :=
    ⟨_, ⟨options, config, plan, stopped, rfl⟩, TransitionSystem.steps_of_run hw⟩
  obtain ⟨late, hdrained⟩ : ∃ late, Drained w s
      (shutdownSystem.observed takes (Shutdown.begin w reason) endActions) late := by
    have hinit : shutdownSystem.Reachable AnyStep (Shutdown.begin w reason) :=
      .initial ⟨w, reason, hreach, hleft, rfl⟩
    refine TransitionSystem.observed_induction
      (I := fun s taken => ∃ late, Drained w s taken late) ?_ hinit ⟨[], .begin w reason⟩ hs
    rintro u action v taken - ⟨late, hdrained⟩ hstep
    exact hdrained.step hleft hstep
  rw [hdrained.reports_eq, (Stack.removedLeftOut_of_run hw).append_iff,
    hdrained.removed_iff (Stack.inv_of_reachable hreach) (Stack.marked_of_reachable hreach)]

/-! ### Two ends of the sample stack -/

/-- A reload drops the second service, and its task fails while it is stopped. -/
def dropSecond : List StackAction := [.submit (.reload reducedConfig reducedPlan 0), .control,
  .finish 1 (.failed (.restartLimitExhausted "web" 0))]

/-- The first task is asked to stop and ends, and the reports are drained. -/
def endFirst : List ShutdownAction := [.stop, .outside Stack.sampleEnd, .ended, .stop, .join, .drain,
  .drain, .drain]

/-- The loop takes the report of the dropped service before it is left. -/
theorem removedLeftOut_reported : ∃ w s,
    stackSystem.run sampleStack (dropSecond ++ [.report, .interrupt .userInterrupt]) = some w ∧
      shutdownSystem.run (Shutdown.begin w (some .userInterrupt)) (endFirst.take 7) = some s ∧
      RemovedLeftOut s.stack.reports
        (stackSystem.observed Stack.takes sampleStack
            (dropSecond ++ [.report, .interrupt .userInterrupt]) ++
          shutdownSystem.observed takes (Shutdown.begin w (some .userInterrupt))
            (endFirst.take 7)) := by
  have hrun : ((stackSystem.run sampleStack
      (dropSecond ++ [.report, .interrupt .userInterrupt])).bind fun w =>
      (shutdownSystem.run (Shutdown.begin w (some .userInterrupt)) (endFirst.take 7)).map fun _ =>
        decide (w.left = some (some .userInterrupt) ∧
          ∀ entry ∈ w.slots.toList, entry.2.retired = false)) = some true := by
    decide +kernel
  obtain ⟨w, hw, hrun⟩ := Option.bind_eq_some_iff.mp hrun
  obtain ⟨s, hs, hfacts⟩ := Option.map_eq_some_iff.mp hrun
  obtain ⟨hleft, hretired⟩ := of_decide_eq_true hfacts
  refine ⟨w, s, hw, hs, (@removedLeftOut_iff _ _ samplePlan _ _ _ _ _ _ hw hleft hs).mpr ?_⟩
  intro name slot task hslot hslotRetired
  have hfalse := hretired (name, slot) (ExtTreeMap.mem_toList_iff_getElem?_eq_some.mpr hslot)
  rw [hfalse] at hslotRetired
  cases hslotRetired

/-- The stack is interrupted before the loop takes that report: the drain collects it, and it is a
failure of the run. -/
theorem removed_service_fails_run : ¬ ∀ (options : StackOptions) (config : ValidConfig)
    (plan : StartPlan config.1) (stopped : Finset ServiceName) (actions : List StackAction)
    (w : Stack) (reason : Option ShutdownReason) (endActions : List ShutdownAction) (s : Shutdown),
    stackSystem.run (Stack.initial options config plan.1 stopped) actions = some w →
    w.left = some reason →
    shutdownSystem.run (Shutdown.begin w reason) endActions = some s → s.phase = .done →
    RemovedLeftOut s.stack.reports
      (stackSystem.observed Stack.takes (Stack.initial options config plan.1 stopped) actions ++
        shutdownSystem.observed takes (Shutdown.begin w reason) endActions) := by
  intro hall
  have hrun : ((stackSystem.run sampleStack (dropSecond ++ [.interrupt .userInterrupt])).bind fun w =>
      (shutdownSystem.run (Shutdown.begin w (some .userInterrupt)) ([.stop, .ended] ++ endFirst)).map
        fun s => decide (w.left = some (some .userInterrupt) ∧ s.phase = .done ∧
          s.stack.reports ≠ ((stackSystem.observed Stack.takes sampleStack
              (dropSecond ++ [.interrupt .userInterrupt]) ++
            shutdownSystem.observed takes (Shutdown.begin w (some .userInterrupt))
              ([.stop, .ended] ++ endFirst)).filter fun entry => !entry.removed).map
                TakenReport.report)) = some true := by
    decide +kernel
  obtain ⟨w, hw, hrun⟩ := Option.bind_eq_some_iff.mp hrun
  obtain ⟨s, hs, hfacts⟩ := Option.map_eq_some_iff.mp hrun
  obtain ⟨hleft, hdone, hne⟩ := of_decide_eq_true hfacts
  exact hne (hall _ _ samplePlan _ _ w _ _ s hw hleft hs hdone)

end Shutdown

end Servicrab
