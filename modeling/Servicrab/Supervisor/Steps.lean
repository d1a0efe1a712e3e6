import Servicrab.Supervisor.Preservation

/-!
# Every move keeps the books

What a report does to a stack that meets the invariant is stated once, as
`Stack.ReportEffect`, and what all moves other than the two arms for commands and reports leave
alone as `Stack.Quiet`. With the initial stack, the invariant then holds in every reachable state.

## Main results

* `Stack.Inv.step_report`, `Stack.step_control`, `Stack.step_quiet`: what a step can do.
* `Stack.inv_of_reachable`: the invariant holds in every reachable state.
-/

open Std (ExtTreeMap)

namespace Servicrab

namespace Stack

variable {w w' : Stack} {name : ServiceName} {slot slot' : Slot}

/-! ### Reports -/

/-- What taking a report off the queue does, when the slot of its service holds the task that sent
it: the slot goes away, or gets a new task, or is left without one. -/
inductive ReportEffect (w : Stack) (rest : List (ℕ × ServiceReport)) (name : ServiceName)
    (slot : Slot) (reports : List ServiceReport) (left : Option (Option ShutdownReason)) :
    Stack → Prop
  | removed (hretired : slot.retired) : ReportEffect w rest name slot reports left
    { w with
      reportQueue := rest
      running := w.running - 1
      answers := w.answers ++ slot.answers (.ok .stopped)
      slots := w.slots.erase name
      reports := reports
      left := left }
  | respawned (hretired : slot.retired = false) (hrestart : slot.restartWhenStopped) :
    ReportEffect w rest name slot reports left
    { w with
      reportQueue := rest
      running := w.running - 1 + 1
      answers := w.answers ++ slot.answers (.ok .restarted)
      cells := w.cells.modify slot.shared fun _ => { status := .new, pgid := 0 }
      tasks := w.tasks ++ [{ service := slot.service, deps := slot.deps, shared := slot.shared }]
      slots := w.slots.insert name
        { slot with
          stop := some w.tasks.length, handle := some w.tasks.length
          restartWhenStopped := false, pending := none }
      reports := reports
      left := left }
  | stopped (hretired : slot.retired = false) (hrestart : slot.restartWhenStopped = false) :
    ReportEffect w rest name slot reports left
    { w with
      reportQueue := rest
      running := w.running - 1
      answers := w.answers ++ slot.answers (.ok .stopped)
      slots := w.slots.insert name { slot with stop := none, handle := none, pending := none }
      reports := reports
      left := left }

variable {task : ℕ} {report : ServiceReport} {rest : List (ℕ × ServiceReport)}

/-- The report at the head of the queue comes from the task its service's slot holds. -/
theorem Accounts.exists_slot_of_report (h : w.Accounts)
    (hqueue : w.reportQueue = (task, report) :: rest) :
    ∃ slot, w.slots[report.service]? = some slot ∧ slot.handle = some task := by
  obtain ⟨spawned, ht, hn⟩ := h.queue_service (hqueue ▸ List.mem_cons_self)
  refine exists_slot_of_live (h.live_iff.mpr ⟨spawned, ht, hn, .inr ?_⟩)
  simp [hqueue]

/-- The loop counts every task that has a slot. -/
theorem Accounts.running_pos (h : w.Accounts) (name : ServiceName)
    (hlive : (w.live name).isSome) : 0 < w.running := by
  rw [h.running_eq, Finset.card_pos]
  exact ⟨name, mem_liveSlots.mpr hlive⟩

/-- The verdict of the run is independent of what happens to the slot. -/
theorem ReportEffect.withVerdict {reports reports' : List ServiceReport}
    {left left' : Option (Option ShutdownReason)}
    (h : ReportEffect w rest name slot reports left w') :
    ReportEffect w rest name slot reports' left' { w' with reports := reports', left := left' } := by
  cases h with
  | removed hretired => exact .removed hretired
  | respawned hretired hrestart => exact .respawned hretired hrestart
  | stopped hretired hrestart => exact .stopped hretired hrestart

theorem settleSlot_effect (w : Stack) (rest : List (ℕ × ServiceReport)) (name : ServiceName)
    (slot : Slot) :
    ReportEffect w rest name slot w.reports w.left
      ({ w with reportQueue := rest, running := w.running - 1 }.settleSlot name slot) := by
  unfold settleSlot
  cases hretired : slot.retired with
  | true =>
    convert (ReportEffect.removed hretired : ReportEffect w rest name slot w.reports w.left _) using 1
    simp [answer, Slot.answers]
  | false =>
    cases hrestart : slot.restartWhenStopped with
    | true =>
      convert (ReportEffect.respawned hretired hrestart :
        ReportEffect w rest name slot w.reports w.left _) using 1
      simp [answer, Slot.answers, Stack.spawn, hretired]
    | false =>
      convert (ReportEffect.stopped hretired hrestart :
        ReportEffect w rest name slot w.reports w.left _) using 1
      simp [answer, Slot.answers, hretired, hrestart]

theorem handleReport_effect (rest : List (ℕ × ServiceReport)) (h : w.Accounts)
    (hs : w.slots[report.service]? = some slot)
    (hhandle : slot.handle = some task) :
    ∃ reports left, ReportEffect w rest report.service slot reports left
      ({ w with reportQueue := rest }.handleReport report) := by
  have hpos : 0 < w.running := by
    refine h.running_pos report.service ?_
    rw [live_of_slot hs, hhandle]
    rfl
  have heffect := settleSlot_effect w rest report.service slot
  unfold handleReport
  simp only [decide_eq_true hpos, debugAssert_true, hs]
  cases hretired : slot.retired with
  | true => exact ⟨_, _, heffect⟩
  | false => exact ⟨_, _, heffect.withVerdict⟩

theorem Accounts.handleReport (h : w.Accounts) (hqueue : w.reportQueue = (task, report) :: rest)
    (hs : w.slots[report.service]? = some slot) (hhandle : slot.handle = some task)
    {reports : List ServiceReport} {left : Option (Option ShutdownReason)}
    (heffect : ReportEffect w rest report.service slot reports left w') : w'.Accounts := by
  have hrelease := h.release hqueue hs hhandle
  have hslot : (w.release rest report.service slot).slots[report.service]? =
      some { slot with stop := none, handle := none } := by
    rw [Stack.release, TreeMap.getElem?_insert, if_pos rfl]
  cases heffect with
  | removed =>
    refine (hrelease.erase (live_of_slot hslot)).congr ?_ rfl rfl rfl rfl rfl
    simp [Stack.release]
  | respawned =>
    have hname := h.slot_name hs
    have hspawn : ((w.release rest report.service slot).spawn report.service { slot with
        stop := none, handle := none, restartWhenStopped := false, pending := none }).Accounts :=
      hrelease.spawn hslot rfl hname rfl
    refine hspawn.congr ?_ rfl rfl rfl rfl rfl
    simp [Stack.release, Stack.spawn]
  | stopped =>
    have hset : ((w.release rest report.service slot).setSlot report.service { slot with
        stop := none, handle := none, pending := none }).Accounts :=
      hrelease.setSlot hslot ⟨rfl, rfl, rfl, rfl⟩
    refine hset.congr ?_ rfl rfl rfl rfl rfl
    simp [Stack.release, Stack.setSlot]

theorem FlagsAsked.handleReport (h : w.FlagsAsked) {reports : List ServiceReport}
    {left : Option (Option ShutdownReason)}
    (heffect : ReportEffect w rest name slot reports left w') : w'.FlagsAsked := by
  cases heffect with
  | removed => exact h.erase rfl (List.Subset.refl _)
  | respawned hretired =>
    refine h.insert rfl (List.Subset.refl _) fun hf => ?_
    simp [Slot.Flagged, hretired] at hf
  | stopped hretired hrestart =>
    refine h.insert rfl (List.Subset.refl _) fun hf => ?_
    simp [Slot.Flagged, hretired, hrestart] at hf

theorem Inv.settle (h : w.Inv) (hqueue : w.reportQueue = (task, report) :: rest)
    (hs : w.slots[report.service]? = some slot) (hhandle : slot.handle = some task)
    {reports : List ServiceReport} {left : Option (Option ShutdownReason)}
    (heffect : ReportEffect w rest report.service slot reports left w') : w'.Inv where
  toAccounts := h.toAccounts.handleReport hqueue hs hhandle heffect
  flags_asked := h.flags_asked.handleReport heffect
  no_failed := by cases heffect <;> exact h.no_failed

/-! ### Steps -/

/-- What the report arm does in a state that meets the invariant. -/
theorem Inv.step_report (h : w.Inv) (hstep : w.step .report = some w') :
    ∃ task report rest slot reports left, w.reportQueue = (task, report) :: rest ∧
      w.slots[report.service]? = some slot ∧ slot.handle = some task ∧
      ReportEffect w rest report.service slot reports left w' := by
  simp only [step] at hstep
  split at hstep
  · rename_i task report rest _ hqueue
    obtain ⟨slot, hs, hhandle⟩ := h.exists_slot_of_report hqueue
    obtain ⟨reports, left, heffect⟩ := handleReport_effect rest h.toAccounts hs hhandle
    cases hstep
    exact ⟨task, report, rest, slot, reports, left, hqueue, hs, hhandle, heffect⟩
  · cases hstep

/-- What the control arm does: it handles the first command. -/
theorem step_control (hstep : w.step .control = some w') :
    ∃ command rest, w.control = command :: rest ∧
      w' = { w with control := rest }.handleControl command := by
  simp only [step] at hstep
  split at hstep
  · rename_i command rest _ hcontrol
    exact ⟨command, rest, hcontrol, (Option.some.inj hstep).symm⟩
  · cases hstep

/-- A move of the surroundings: no slot, task, request or answer is touched. -/
structure Quiet (w w' : Stack) : Prop where
  slots_eq : w'.slots = w.slots
  tasks_eq : w'.tasks = w.tasks
  requests_eq : w'.requests = w.requests
  answers_eq : w'.answers = w.answers
  config_eq : w'.config = w.config
  plan_eq : w'.plan = w.plan
  running_eq : w'.running = w.running
  cells_eq : w'.cells.length = w.cells.length
  failed_eq : w'.failedAssertions = w.failedAssertions

theorem finishTask_cases {result : ServiceResult} (hstep : w.finishTask task result = some w') :
    ∃ spawned, w.tasks[task]? = some spawned ∧ task ∉ w.finished ∧ w' = { w with
      finished := w.finished ++ [task]
      reportQueue := w.reportQueue ++ [(task, ⟨spawned.service.name, result⟩)] } := by
  unfold finishTask at hstep
  cases ht : w.tasks[task]? with
  | none => simp [ht] at hstep
  | some spawned =>
    simp only [ht] at hstep
    split_ifs at hstep with hmem
    exact ⟨spawned, rfl, hmem, (Option.some.inj hstep).symm⟩

/-- Apart from the two arms that take commands and reports, every move is quiet. -/
theorem step_quiet {action : StackAction} (hstep : w.step action = some w')
    (hcontrol : action ≠ .control) (hreport : action ≠ .report) : Quiet w w' := by
  cases action with
  | control => exact absurd rfl hcontrol
  | report => exact absurd rfl hreport
  | finish task result =>
    obtain ⟨_, -, -, rfl⟩ := finishTask_cases hstep
    exact ⟨rfl, rfl, rfl, rfl, rfl, rfl, rfl, rfl, rfl⟩
  | submit | interrupt | idle =>
    simp only [step] at hstep
    split_ifs at hstep
    cases hstep
    exact ⟨rfl, rfl, rfl, rfl, rfl, rfl, rfl, rfl, rfl⟩
  | write | store =>
    cases hstep
    exact ⟨rfl, rfl, rfl, rfl, rfl, rfl, rfl, List.length_modify .., rfl⟩
  | emit =>
    cases hstep
    exact ⟨rfl, rfl, rfl, rfl, rfl, rfl, rfl, rfl, rfl⟩

/-- Once the loop was left, nothing that a task or a client does spawns a task, sends a request or
touches a slot. -/
theorem step_of_left {reason : Option ShutdownReason} (hleft : w.left = some reason)
    {action : StackAction} (hstep : w.step action = some w') :
    Quiet w w' ∧ w'.left = w.left ∧ w.finished ⊆ w'.finished := by
  have hlooping : w.looping = false := by simp [looping, hleft]
  cases action with
  | control => simp [step, hlooping] at hstep
  | report => simp [step, hlooping] at hstep
  | interrupt => simp [step, hlooping] at hstep
  | idle => simp [step, hleft] at hstep
  | submit command =>
    refine ⟨step_quiet hstep (by simp) (by simp), ?_⟩
    obtain ⟨-, hstep⟩ := Option.ite_none_right_eq_some.mp hstep
    cases hstep
    exact ⟨rfl, List.Subset.refl _⟩
  | finish task result =>
    refine ⟨step_quiet hstep (by simp) (by simp), ?_⟩
    obtain ⟨_, -, -, rfl⟩ := finishTask_cases hstep
    exact ⟨rfl, List.subset_append_left _ _⟩
  | write | store | emit =>
    refine ⟨step_quiet hstep (by simp) (by simp), ?_⟩
    cases hstep
    exact ⟨rfl, List.Subset.refl _⟩

/-- Only the report arm and the end of a task touch the reports. -/
theorem step_reports {action : StackAction} (hstep : w.step action = some w')
    (hcontrol : action ≠ .control) (hreport : action ≠ .report)
    (hfinish : ∀ task result, action ≠ .finish task result) :
    w'.finished = w.finished ∧ w'.reportQueue = w.reportQueue := by
  cases action with
  | control => exact absurd rfl hcontrol
  | report => exact absurd rfl hreport
  | finish task result => exact absurd rfl (hfinish task result)
  | submit | interrupt | idle =>
    simp only [step] at hstep
    split_ifs at hstep
    cases hstep
    exact ⟨rfl, rfl⟩
  | write | store | emit =>
    cases hstep
    exact ⟨rfl, rfl⟩

theorem Accounts.finishTask (h : w.Accounts) {result : ServiceResult}
    (hstep : w.finishTask task result = some w') : w'.Accounts := by
  obtain ⟨spawned, ht, hmem, rfl⟩ := finishTask_cases hstep
  constructor
  case live_iff =>
    intro other t
    refine h.live_iff.trans (exists_congr fun _ => and_congr_right fun _ => and_congr_right fun _ =>
      ?_)
    simp only [List.map_append, List.map_cons, List.map_nil, List.mem_append, List.mem_singleton]
    by_cases he : t = task
    · simp [he, hmem]
    · simp [he]
  case finished_lt =>
    intro t hmem'
    obtain hmem' | rfl := by simpa using hmem'
    · exact h.finished_lt hmem'
    · exact (List.getElem?_eq_some_iff.mp ht).1
  case queue_finished =>
    intro t hmem'
    simp only [List.map_append, List.map_cons, List.map_nil, List.mem_append, List.mem_singleton]
      at hmem' ⊢
    exact hmem'.imp_left h.queue_finished
  case queue_service =>
    intro t r hmem'
    obtain hmem' | hmem' := List.mem_append.mp hmem'
    · exact h.queue_service hmem'
    · cases List.mem_singleton.mp hmem'
      exact ⟨spawned, ht, rfl⟩
  case queue_nodup =>
    have hnot : task ∉ w.reportQueue.map Prod.fst := fun hq => hmem (h.queue_finished hq)
    simpa [List.nodup_append] using ⟨h.queue_nodup, fun t r hr e => hnot (by
      simpa using ⟨r, e ▸ hr⟩)⟩
  exacts [h.slot_name, h.stop_eq, h.running_eq, h.slot_cell, h.slot_cell_inj, h.task_cell,
    h.task_cell_slot, h.task_cell_task, h.live_cell]

theorem Inv.takeCommand (h : w.Inv) (rest : List Control) : { w with control := rest }.Inv :=
  h.congr rfl rfl rfl rfl rfl rfl (List.Subset.refl _) rfl

/-- A command that is taken comes to a sequence of operations, and is answered at most. -/
theorem Inv.ops_control (h : w.Inv) (hstep : w.step .control = some w') :
    ∃ command rest answers w₁, w.control = command :: rest ∧ Ops { w with control := rest } w₁ ∧
      w' = { w₁ with answers := answers } := by
  obtain ⟨command, rest, hcontrol, rfl⟩ := step_control hstep
  obtain ⟨w₁, hops, he | ⟨result, he⟩⟩ := handleControl_ops (h.takeCommand rest) command
  · exact ⟨command, rest, w₁.answers, w₁, hcontrol, hops, he⟩
  · exact ⟨command, rest, w₁.answers ++ [(command.intoAck, result)], w₁, hcontrol, hops, he⟩

/-- The invariant is kept by every move. -/
theorem Inv.step (h : w.Inv) {action : StackAction} (hstep : w.step action = some w') :
    w'.Inv := by
  by_cases hcontrol : action = .control
  · subst hcontrol
    obtain ⟨command, rest, -, rfl⟩ := step_control hstep
    exact (h.takeCommand rest).handleControl command
  by_cases hreport : action = .report
  · subst hreport
    obtain ⟨task, report, rest, slot, reports, left, hqueue, hs, hhandle, heffect⟩ :=
      h.step_report hstep
    exact h.settle hqueue hs hhandle heffect
  have hquiet := step_quiet hstep hcontrol hreport
  have hasked : w.asked ⊆ w'.asked := by rw [asked, asked, hquiet.requests_eq]; exact fun _ => id
  by_cases hfinish : ∃ task result, action = .finish task result
  · obtain ⟨task, result, rfl⟩ := hfinish
    exact {
      toAccounts := h.toAccounts.finishTask hstep
      flags_asked := h.flags_asked.congr hquiet.slots_eq hasked
      no_failed := hquiet.failed_eq.trans h.no_failed }
  · obtain ⟨hfinished, hqueue⟩ := step_reports hstep hcontrol hreport
      fun task result he => hfinish ⟨task, result, he⟩
    exact h.congr hquiet.slots_eq hquiet.tasks_eq hfinished hqueue hquiet.running_eq
      hquiet.cells_eq hasked hquiet.failed_eq

/-! ### Growing logs and tasks that are done -/

/-- No move takes a task, or a request to stop, back. -/
theorem step_grows (hI : w.Inv) {action : StackAction} (hstep : w.step action = some w') :
    w.tasks <+: w'.tasks ∧ w.requests <+: w'.requests := by
  by_cases hcontrol : action = .control
  · subst hcontrol
    obtain ⟨_, _, _, _, -, hops, rfl⟩ := hI.ops_control hstep
    exact ⟨hops.frame.tasks_grow, hops.frame.requests_grow⟩
  by_cases hreport : action = .report
  · subst hreport
    obtain ⟨_, _, _, _, _, _, -, -, -, heffect⟩ := hI.step_report hstep
    cases heffect with
    | removed | stopped => exact ⟨List.prefix_rfl, List.prefix_rfl⟩
    | respawned => exact ⟨List.prefix_append _ _, List.prefix_rfl⟩
  have hquiet := step_quiet hstep hcontrol hreport
  rw [hquiet.tasks_eq, hquiet.requests_eq]
  exact ⟨List.prefix_rfl, List.prefix_rfl⟩

theorem getElem?_of_isPrefix {α : Type*} {l l' : List α} (h : l <+: l') {i : ℕ} (hi : i < l.length) :
    l'[i]? = l[i]? := by
  obtain ⟨new, rfl⟩ := h
  exact List.getElem?_append_left hi

/-- A task that is outstanding after a move was outstanding before it. -/
theorem Outstanding.of_step (hI : w.Inv) {action : StackAction} (hstep : w.step action = some w')
    {task : ℕ} (ht : task < w.tasks.length) (h : w'.Outstanding task name) :
    w.Outstanding task name := by
  obtain ⟨spawned, hspawned, hname, hout⟩ := h
  rw [getElem?_of_isPrefix (step_grows hI hstep).1 ht] at hspawned
  refine ⟨spawned, hspawned, hname, ?_⟩
  by_cases hcontrol : action = .control
  · subst hcontrol
    obtain ⟨_, _, _, _, -, hops, rfl⟩ := hI.ops_control hstep
    rwa [hops.frame.finished_eq, hops.frame.reportQueue_eq] at hout
  by_cases hreport : action = .report
  · subst hreport
    obtain ⟨t, report, rest, slot, reports, left, hqueue, -, -, heffect⟩ := hI.step_report hstep
    have hsub : task ∈ rest.map Prod.fst → task ∈ w.reportQueue.map Prod.fst := by
      rw [hqueue]
      exact List.mem_cons_of_mem _
    cases heffect <;> exact hout.imp_right hsub
  by_cases hfinish : ∃ t result, action = .finish t result
  · obtain ⟨t, result, rfl⟩ := hfinish
    obtain ⟨_, -, hnot, rfl⟩ := finishTask_cases hstep
    simp only [List.mem_append, List.mem_singleton, List.map_append, List.map_cons, List.map_nil,
      not_or] at hout
    obtain ⟨hout, -⟩ | hout | rfl := hout
    exacts [.inl hout, .inr hout, .inl hnot]
  · obtain ⟨hfinished, hqueue⟩ := step_reports hstep hcontrol hreport
      fun t result he => hfinish ⟨t, result, he⟩
    rwa [hfinished, hqueue] at hout

/-! ### The start -/

theorem Inv.empty (options : StackOptions) (config : ValidConfig) (plan : List ServiceName) :
    (Stack.empty options config plan).Inv := by
  have hlive : ∀ name, (Stack.empty options config plan).live name = none := fun name => by
    simp [live, Stack.empty]
  constructor
  case toAccounts =>
    constructor
    case running_eq =>
      have hslots : (Stack.empty options config plan).liveSlots = ∅ := by
        ext name
        simp [mem_liveSlots, hlive]
      rw [hslots]
      rfl
    case live_iff =>
      intro name task
      rw [hlive]
      simp [Outstanding, Stack.empty]
    all_goals simp [Stack.empty]
  case flags_asked =>
    intro name slot hs
    simp [Stack.empty] at hs
  case no_failed => rfl

theorem Inv.publishStopped (h : w.Inv) (name : ServiceName) : (w.publishStopped name).Inv := by
  unfold Stack.publishStopped
  split
  · exact h
  · exact h.congr rfl rfl rfl rfl rfl (List.length_modify ..) (List.Subset.refl _) rfl

theorem getElem?_insertPlanned_of_ne {other : ServiceName} (h : other ≠ name) :
    (w.insertPlanned name).slots[other]? = w.slots[other]? := by
  unfold insertPlanned
  split
  · exact getElem?_insertSlot_of_ne h _
  · rfl

theorem getElem?_publishStopped (name other : ServiceName) :
    (w.publishStopped name).slots[other]? = w.slots[other]? := by
  unfold publishStopped
  split <;> rfl

theorem getElem?_startService_of_ne {other : ServiceName} (h : other ≠ name)
    (stopped : Finset ServiceName) :
    (w.startService stopped name).slots[other]? = w.slots[other]? := by
  unfold startService
  split
  · exact getElem?_publishStopped name other
  · split
    · exact TreeMap.getElem?_insert_of_ne h _
    · rfl

/-- No slot has a task yet. -/
def Unstarted (w : Stack) : Prop := ∀ name, w.live name = none

theorem Inv.insertAll (options : StackOptions) (config : ValidConfig) (plan : StartPlan config.1) :
    let w := plan.1.foldl insertPlanned (Stack.empty options config plan.1)
    w.Inv ∧ w.Unstarted := by
  have hmain := KeyedFold.invariant_foldl
    (I := fun w : Stack => (w.Inv ∧ w.Unstarted) ∧ w.config = config) (f := insertPlanned)
    (v := fun k (s : Stack) => s.slots[k]?) (P := fun _ v => v = none)
    (fun _ _ _ hne => getElem?_insertPlanned_of_ne hne.symm) plan.nodup
    (s := Stack.empty options config plan.1) ?_ ?_ ?_
  · exact hmain.1
  · rintro s name hmem ⟨⟨hI, hidle⟩, hconfig⟩ hnone
    obtain ⟨service, hservice, hname⟩ := plan.exists_service hmem
    have he : s.insertPlanned name = s.insertSlot name service := by
      simp only [insertPlanned, hconfig, hservice]
    rw [he]
    refine ⟨⟨hI.insertSlot hnone hname, fun other => ?_⟩, ?_⟩
    · rw [insertSlot_of_none hnone, live_insert (w := s) rfl]
      split_ifs
      · rfl
      · exact hidle other
    · rw [insertSlot_of_none hnone]
      exact hconfig
  · refine ⟨⟨Inv.empty options config plan.1, fun other => ?_⟩, rfl⟩
    simp [live, Stack.empty]
  · intro name _
    simp [Stack.empty]

/-- The supervisor enters its loop with its books in order. -/
theorem Inv.initial (options : StackOptions) (config : ValidConfig) (plan : StartPlan config.1)
    (stopped : Finset ServiceName) : (Stack.initial options config plan.1 stopped).Inv := by
  obtain ⟨hI, hidle⟩ := Inv.insertAll options config plan
  refine KeyedFold.invariant_foldl (I := Inv) (f := (startService · stopped))
    (v := fun k (s : Stack) => s.slots[k]?) (P := fun _ v => v.bind Slot.handle = none)
    (fun _ _ _ hne => getElem?_startService_of_ne hne.symm stopped) plan.nodup ?_
    hI.rewireDependencies ?_
  · intro s name _ hs hnone
    simp only [startService]
    split_ifs
    · exact hs.publishStopped name
    · cases hslot : s.slots[name]? with
      | none => exact hs
      | some slot =>
        refine hs.spawn hslot ?_
        simpa only [hslot, Option.bind_some] using hnone
  · intro name _
    exact (live_rewireDependencies _ name).trans (hidle name)

/-- The invariant holds in every reachable state, whatever guard the steps meet. -/
theorem inv_of_reachable {C : Stack → StackAction → Stack → Prop}
    (h : stackSystem.Reachable C w) : w.Inv := by
  refine h.invariant ?_ fun _ hI _ hstep => hI.step hstep
  rintro w₀ ⟨options, config, plan, stopped, rfl⟩
  exact Inv.initial options config plan stopped

/-- No run takes a task, or a request to stop, back. -/
theorem steps_grow {C : Stack → StackAction → Stack → Prop} (hw : stackSystem.Reachable C w)
    (hrun : stackSystem.Steps C w w') : w.tasks <+: w'.tasks ∧ w.requests <+: w'.requests :=
  hrun.invariant (I := fun u => w.tasks <+: u.tasks ∧ w.requests <+: u.requests)
    ⟨List.prefix_rfl, List.prefix_rfl⟩ fun hu hI _ hstep => by
      have hnext := step_grows (inv_of_reachable (hw.steps hu)) hstep
      exact ⟨hI.1.trans hnext.1, hI.2.trans hnext.2⟩

end Stack

end Servicrab
