import Servicrab.Supervisor.Removed

/-!
# The verdict of a run

`StackSupervisor::run` returns the reports of the tasks in the order in which they were sent, and why
the stack was shut down (`stack.rs`); `up` turns this into its exit code (`up.rs`). `up` has no
command that reloads: the file watchers only restart services.

## Main definitions

* `StackOutcome`, `StackOutcome.upExitCode`, `Shutdown.outcome`.
* `Stack.sends`: the report that a move sends.
* `Stack.Sent`: the accounts of what was sent.

## Main results

* `Shutdown.verdict_of_run`.
-/

open Std (ExtTreeMap)
open TransitionSystem (AnyStep)

namespace Servicrab

/-- The result of supervising a whole stack. -/
structure StackOutcome where
  reports : List ServiceReport
  /-- Why the stack was shut down, if it was. -/
  shutdown : Option ShutdownReason
  deriving DecidableEq

namespace StackOutcome

variable (outcome : StackOutcome)

/-- Reports that count as failures. -/
def failures : List ServiceReport := outcome.reports.filter fun report => report.result.isFailure

/-- Whether every service ended without a fatal error. -/
def isSuccess : Bool := outcome.failures.isEmpty

/-- The exit code of `up`. -/
def upExitCode : ℤ :=
  if !outcome.isSuccess then 1
  else
    match outcome.shutdown with
    | some .userInterrupt => 130
    | some .terminated => 143
    | some .hangUp => 129
    | some _ => 1
    | none => 0

variable {outcome}

theorem isSuccess_iff :
    outcome.isSuccess ↔ ∀ report ∈ outcome.reports, report.result.isFailure = false := by
  simp [isSuccess, failures]

theorem upExitCode_eq_zero :
    outcome.upExitCode = 0 ↔ outcome.isSuccess ∧ outcome.shutdown = none := by
  cases hsuccess : outcome.isSuccess with
  | false => simp [upExitCode, hsuccess]
  | true =>
    cases hshutdown : outcome.shutdown with
    | none => simp [upExitCode, hsuccess, hshutdown]
    | some reason => cases reason <;> simp [upExitCode, hsuccess, hshutdown]

end StackOutcome

theorem ServiceResult.isFailure_eq_false {result : ServiceResult} :
    result.isFailure = false ↔ ∃ outcome, result = .finished outcome := by
  cases result <;> simp [isFailure]

namespace Stack

variable {w w' : Stack}

/-- The report that a move sends, with the task that sends it. -/
def sends (w : Stack) : StackAction → List (ℕ × ServiceReport)
  | .finish task result =>
    (w.tasks[task]?).toList.map fun spawned => (task, ⟨spawned.service.name, result⟩)
  | _ => []

/-- The accounts of the reports that were sent: each task sends one at most, and each is collected or
in the queue. -/
structure Sent (w : Stack) (sent : List (ℕ × ServiceReport)) : Prop where
  reports_eq : sent.map Prod.snd = w.reports ++ w.reportQueue.map Prod.snd
  finished_eq : sent.map Prod.fst = w.finished
  nodup : w.finished.Nodup
  service : ∀ entry ∈ sent, ∃ spawned, w.tasks[entry.1]? = some spawned ∧
    spawned.service.name = entry.2.service

namespace Sent

variable {sent : List (ℕ × ServiceReport)}

theorem congr (h : w.Sent sent)
    (hreports : w'.reports ++ w'.reportQueue.map Prod.snd =
      w.reports ++ w.reportQueue.map Prod.snd)
    (hfinished : w'.finished = w.finished) (htasks : w.tasks <+: w'.tasks) : w'.Sent sent := by
  refine ⟨h.reports_eq.trans hreports.symm, h.finished_eq.trans hfinished.symm,
    hfinished ▸ h.nodup, fun entry hentry => ?_⟩
  obtain ⟨spawned, htask, hname⟩ := h.service entry hentry
  refine ⟨spawned, ?_, hname⟩
  rw [getElem?_of_isPrefix htasks (List.getElem?_eq_some_iff.mp htask).1, htask]

theorem finish (h : w.Sent sent) {task : ℕ} {result : ServiceResult}
    (hstep : w.step (.finish task result) = some w') :
    w'.Sent (sent ++ w.sends (.finish task result)) := by
  obtain ⟨spawned, htask, hnew, rfl⟩ := finishTask_cases hstep
  have hsends : w.sends (.finish task result) = [(task, ⟨spawned.service.name, result⟩)] := by
    simp [sends, htask]
  rw [hsends]
  refine ⟨?_, ?_, ?_, fun entry hentry => ?_⟩
  · simp [h.reports_eq]
  · simp [h.finished_eq]
  · rw [List.nodup_append]
    exact ⟨h.nodup, List.nodup_singleton task, by
      simpa using fun other hother (he : other = task) => hnew (he ▸ hother)⟩
  · rcases List.mem_append.mp hentry with hentry | hentry
    · exact h.service entry hentry
    · obtain rfl := List.mem_singleton.mp hentry
      exact ⟨spawned, htask, rfl⟩

/-- A move that neither takes a report nor a command. -/
theorem quiet (h : w.Sent sent) {action : StackAction} (hstep : w.step action = some w')
    (hcontrol : action ≠ .control) (hreport : action ≠ .report) :
    w'.Sent (sent ++ w.sends action) := by
  by_cases hfinish : ∃ task result, action = .finish task result
  · obtain ⟨task, result, rfl⟩ := hfinish
    exact h.finish hstep
  have hnone : w.sends action = [] := by
    cases action with
    | finish task result => exact absurd ⟨task, result, rfl⟩ hfinish
    | _ => rfl
  obtain ⟨hfinished, hqueue⟩ := step_reports hstep hcontrol hreport fun task result he =>
    hfinish ⟨task, result, he⟩
  have htasks : w.tasks <+: w'.tasks := by
    rw [(step_quiet hstep hcontrol hreport).tasks_eq]
  rw [hnone, List.append_nil]
  refine h.congr ?_ hfinished htasks
  rw [reports_quiet hstep hcontrol hreport, hqueue]

end Sent

/-! ### The loop of `up` -/

/-- No slot is retired, and no reload is on its way. -/
structure NoneRemoved (w : Stack) : Prop where
  kept : ∀ (name : ServiceName) (slot : Slot), w.slots[name]? = some slot → slot.retired = false
  queued : ∀ config plan ack, Control.reload config plan ack ∉ w.control

theorem NoneRemoved.insert (h : w.NoneRemoved) {name : ServiceName} {slot : Slot}
    (hslots : w'.slots = w.slots.insert name slot) (hretired : slot.retired = false)
    (hcontrol : w'.control ⊆ w.control) : w'.NoneRemoved := by
  refine ⟨fun other s hs => ?_, fun config plan ack hmem => h.queued config plan ack (hcontrol hmem)⟩
  rw [hslots, TreeMap.getElem?_insert] at hs
  split_ifs at hs with he
  · exact Option.some.inj hs ▸ hretired
  · exact h.kept other s hs

theorem NoneRemoved.handleControl (h : w.NoneRemoved) {command : Control}
    (hcommand : ∀ config plan ack, command ≠ .reload config plan ack) :
    (w.handleControl command).NoneRemoved := by
  have hsend (ack : ℕ) (result : Verdict) : (w.send ack result).NoneRemoved := ⟨h.kept, h.queued⟩
  cases command with
  | reload config plan ack => exact absurd rfl (hcommand config plan ack)
  | start service ack =>
    rw [Stack.handleControl]
    obtain ⟨_, he⟩ | ⟨slot, hs, -, he⟩ := withSlot_cases service ack _ <;> rw [he]
    · exact hsend _ _
    · split_ifs
      · exact hsend _ _
      · exact h.insert rfl (h.kept service slot hs) (List.Subset.refl _)
  | stop service ack =>
    rw [Stack.handleControl]
    obtain ⟨_, he⟩ | ⟨slot, hs, -, he⟩ := withSlot_cases service ack _ <;> rw [he]
    · exact hsend _ _
    · split
      · exact hsend _ _
      · exact h.insert rfl (h.kept service slot hs) (List.Subset.refl _)
  | restart service ack =>
    rw [Stack.handleControl]
    obtain ⟨_, he⟩ | ⟨slot, hs, -, he⟩ := withSlot_cases service ack _ <;> rw [he]
    · exact hsend _ _
    · split <;> exact h.insert rfl (h.kept service slot hs) (List.Subset.refl _)

theorem NoneRemoved.step (h : w.NoneRemoved) (hI : w.Inv) {action : StackAction}
    (haction : ∀ config plan ack, action ≠ .submit (.reload config plan ack))
    (hstep : w.step action = some w') : w'.NoneRemoved := by
  cases action with
  | control =>
    obtain ⟨command, rest, hcontrol, rfl⟩ := step_control hstep
    have hrest : NoneRemoved { w with control := rest } :=
      ⟨h.kept, fun config plan ack hmem =>
        h.queued config plan ack (hcontrol ▸ List.mem_cons_of_mem _ hmem)⟩
    refine hrest.handleControl fun config plan ack he => ?_
    exact h.queued config plan ack (by rw [hcontrol, he]; exact List.mem_cons_self)
  | report =>
    obtain ⟨_, report, _, slot, _, _, -, hs, -, heffect⟩ := hI.step_report hstep
    have hretired := h.kept report.service slot hs
    cases heffect with
    | removed hremoved =>
      rw [hretired] at hremoved
      cases hremoved
    | respawned | stopped => exact h.insert rfl hretired (List.Subset.refl _)
  | submit command =>
    simp only [Stack.step] at hstep
    split_ifs at hstep
    cases hstep
    refine ⟨h.kept, fun config plan ack hmem => ?_⟩
    rcases List.mem_append.mp hmem with hmem | hmem
    · exact h.queued config plan ack hmem
    · exact haction config plan ack (congrArg _ (List.mem_singleton.mp hmem).symm)
  | finish =>
    obtain ⟨_, -, -, rfl⟩ := finishTask_cases hstep
    exact ⟨h.kept, h.queued⟩
  | interrupt | idle =>
    simp only [Stack.step] at hstep
    split_ifs at hstep
    cases hstep
    exact ⟨h.kept, h.queued⟩
  | write | store | emit =>
    cases hstep
    exact ⟨h.kept, h.queued⟩

theorem ReportEffect.frame {rest : List (ℕ × ServiceReport)} {name : ServiceName} {slot : Slot}
    {reports : List ServiceReport} {left : Option (Option ShutdownReason)}
    (h : ReportEffect w rest name slot reports left w') :
    w'.reportQueue = rest ∧ w'.finished = w.finished ∧ w'.options = w.options ∧ w'.left = left := by
  cases h <;> exact ⟨rfl, rfl, rfl, rfl⟩

/-- The loop of `up` collects each report that it takes. -/
theorem NoneRemoved.step_report (h : w.NoneRemoved) (hI : w.Inv) (hstep : w.step .report = some w') :
    ∃ task report, w.reportQueue = (task, report) :: w'.reportQueue ∧
      w'.reports = w.reports ++ [report] ∧ w'.finished = w.finished ∧ w'.options = w.options ∧
      (w'.left = if report.result.isFailure && w.options.abortOnFailure then
        some (some .stackFailure) else w.left) ∧ w.left = none := by
  simp only [Stack.step] at hstep
  split at hstep
  · rename_i task report rest hlooping hqueue
    obtain ⟨slot, hs, hhandle⟩ := hI.exists_slot_of_report hqueue
    have hpos : 0 < w.running := by
      refine hI.running_pos report.service ?_
      rw [live_of_slot hs, hhandle]
      rfl
    have hleft : w.left = none := by
      simp only [looping, Bool.and_eq_true, Option.isNone_iff_eq_none] at hlooping
      exact hlooping.1
    have heffect := settleSlot_effect w rest report.service slot
    obtain ⟨hrest, hfinished, hoptions, hsettled⟩ := heffect.frame
    have hreports := heffect.reports_eq
    have hw' : w' = { ({ w with reportQueue := rest, running := w.running - 1 }.settleSlot
        report.service slot) with
        reports := w.reports ++ [report]
        left := if report.result.isFailure && w.options.abortOnFailure then
          some (some .stackFailure) else w.left } := by
      rw [← Option.some.inj hstep]
      simp only [handleReport, decide_eq_true hpos, debugAssert_true, hs,
        h.kept report.service slot hs, Bool.false_eq_true, if_false, hreports, hoptions, hsettled]
    rw [hw']
    exact ⟨task, report, hqueue.trans (congrArg _ hrest.symm), rfl, hfinished, hoptions, rfl, hleft⟩
  · cases hstep

theorem Op.verdict_frame (hop : Op w w') : w'.options = w.options ∧ w'.left = w.left := by
  cases hop with
  | insert hs =>
    rw [insertSlot_of_none hs]
    exact ⟨rfl, rfl⟩
  | _ => exact ⟨rfl, rfl⟩

theorem Ops.verdict_frame (hops : Ops w w') : w'.options = w.options ∧ w'.left = w.left := by
  induction hops with
  | refl => exact ⟨rfl, rfl⟩
  | tail _ hop ih => exact ⟨hop.verdict_frame.1.trans ih.1, hop.verdict_frame.2.trans ih.2⟩

/-- A failure that was collected has ended the run, if the stack is to be torn down then. -/
def Aborts (w : Stack) : Prop :=
  w.options.abortOnFailure → (∃ report ∈ w.reports, report.result.isFailure) →
    w.left = some (some .stackFailure)

/-- The invariant of the loop of `up`. -/
structure Collected (options : StackOptions) (w : Stack) (sent : List (ℕ × ServiceReport)) :
    Prop where
  noneRemoved : w.NoneRemoved
  sent : w.Sent sent
  options_eq : w.options = options
  aborts : w.Aborts

namespace Collected

variable {options : StackOptions} {sent : List (ℕ × ServiceReport)}

theorem control (h : Collected options w sent) (hI : w.Inv) (hkept : w'.NoneRemoved)
    (hstep : w.step .control = some w') : Collected options w' sent := by
  obtain ⟨_, _, _, w₁, -, hops, rfl⟩ := hI.ops_control hstep
  obtain ⟨hoptions, hleft⟩ := hops.verdict_frame
  have hreports : w₁.reports = w.reports := hops.reports_eq
  refine ⟨hkept, h.sent.congr ?_ hops.frame.finished_eq hops.frame.tasks_grow,
    hoptions.trans h.options_eq, fun habort hfailed => ?_⟩
  · show w₁.reports ++ w₁.reportQueue.map Prod.snd = _
    rw [hreports, hops.frame.reportQueue_eq]
  · exact hleft.trans (h.aborts (hoptions ▸ habort) (hreports ▸ hfailed))

theorem report (h : Collected options w sent) (hI : w.Inv) (hkept : w'.NoneRemoved)
    (hstep : w.step .report = some w') : Collected options w' sent := by
  obtain ⟨task, report, hqueue, hreports, hfinished, hoptions, hleft, hnone⟩ :=
    h.noneRemoved.step_report hI hstep
  refine ⟨hkept, h.sent.congr ?_ hfinished (step_grows hI hstep).1, hoptions.trans h.options_eq,
    fun habort hfailed => ?_⟩
  · rw [hreports, hqueue]
    simp
  · -- Nothing that was collected before is a failure, as the loop goes on.
    have hbefore : ∀ other ∈ w.reports, ¬other.result.isFailure := by
      intro other hother hfailure
      have hleft := h.aborts (hoptions ▸ habort) ⟨other, hother, hfailure⟩
      rw [hnone] at hleft
      cases hleft
    obtain ⟨other, hother, hfailure⟩ := hfailed
    rw [hreports, List.mem_append, List.mem_singleton] at hother
    obtain rfl := hother.resolve_left fun hother => hbefore other hother hfailure
    rw [hleft, hfailure, ← hoptions, habort]
    rfl

theorem step (h : Collected options w sent) (hI : w.Inv) {action : StackAction}
    (haction : ∀ config plan ack, action ≠ .submit (.reload config plan ack))
    (hstep : w.step action = some w') : Collected options w' (sent ++ w.sends action) := by
  have hkept := h.noneRemoved.step hI haction hstep
  by_cases hcontrol : action = .control
  · subst hcontrol
    simpa [sends] using h.control hI hkept hstep
  by_cases hreport : action = .report
  · subst hreport
    simpa [sends] using h.report hI hkept hstep
  obtain ⟨hoptions, hleft⟩ : w'.options = w.options ∧ (w'.left = w.left ∨ w.left = none) := by
    cases action with
    | control => exact absurd rfl hcontrol
    | report => exact absurd rfl hreport
    | finish =>
      obtain ⟨_, -, -, rfl⟩ := finishTask_cases hstep
      exact ⟨rfl, .inl rfl⟩
    | submit =>
      obtain ⟨-, hstep⟩ := Option.ite_none_right_eq_some.mp hstep
      cases hstep
      exact ⟨rfl, .inl rfl⟩
    | interrupt | idle =>
      obtain ⟨hlooping, hstep⟩ := Option.ite_none_right_eq_some.mp hstep
      cases hstep
      simp only [looping, Bool.and_eq_true, Option.isNone_iff_eq_none] at hlooping
      exact ⟨rfl, .inr hlooping.1⟩
    | write | store | emit =>
      cases hstep
      exact ⟨rfl, .inl rfl⟩
  have hreports := reports_quiet hstep hcontrol hreport
  refine ⟨hkept, h.sent.quiet hstep hcontrol hreport, hoptions.trans h.options_eq,
    fun habort hfailed => ?_⟩
  have hbefore := h.aborts (hoptions ▸ habort) (hreports ▸ hfailed)
  rcases hleft with hleft | hleft
  · exact hleft.trans hbefore
  · rw [hleft] at hbefore
    cases hbefore

end Collected

theorem NoneRemoved.insertPlanned (h : w.NoneRemoved) (name : ServiceName) :
    (w.insertPlanned name).NoneRemoved := by
  rw [Stack.insertPlanned]
  cases w.config.1.services[name]? with
  | none => exact h
  | some service =>
    dsimp only
    rw [insertSlot, debugAssert_eq]
    exact h.insert rfl rfl (List.Subset.refl _)

theorem NoneRemoved.startService (h : w.NoneRemoved) (stopped : Finset ServiceName)
    (name : ServiceName) : (w.startService stopped name).NoneRemoved := by
  rw [Stack.startService, publishStopped]
  cases hs : w.slots[name]? with
  | none => rwa [ite_self]
  | some slot =>
    dsimp only
    split_ifs
    · exact ⟨h.kept, h.queued⟩
    · exact h.insert rfl (h.kept name slot hs) (List.Subset.refl _)

theorem noneRemoved_initial (options : StackOptions) (config : ValidConfig)
    (plan : List ServiceName) (stopped : Finset ServiceName) :
    (Stack.initial options config plan stopped).NoneRemoved := by
  refine initial_induction ⟨fun name slot hs => ?_, nofun⟩ (fun w name hw => hw.insertPlanned name)
    (fun w hw => ⟨fun name slot hs => ?_, hw.queued⟩) (fun w name hw => hw.startService stopped name)
  · simp [empty] at hs
  · rw [rewireDependencies, ExtTreeMap.getElem?_map] at hs
    obtain ⟨before, hbefore, rfl⟩ := Option.map_eq_some_iff.mp hs
    have hretired := hw.kept name before hbefore
    cases w.config.1.services[name]? with
    | none => exact hretired
    | some service => exact hretired

/-- Nothing has come to an end yet. -/
structure Unended (options : StackOptions) (w : Stack) : Prop where
  reports : w.reports = []
  reportQueue : w.reportQueue = []
  finished : w.finished = []
  options_eq : w.options = options

theorem unended_initial (options : StackOptions) (config : ValidConfig) (plan : List ServiceName)
    (stopped : Finset ServiceName) :
    Unended options (Stack.initial options config plan stopped) := by
  refine initial_induction ⟨rfl, rfl, rfl, rfl⟩ (fun w name hw => ?_)
    (fun w hw => ⟨hw.reports, hw.reportQueue, hw.finished, hw.options_eq⟩) (fun w name hw => ?_)
  · rw [Stack.insertPlanned]
    cases w.config.1.services[name]? with
    | none => exact hw
    | some service =>
      dsimp only
      rw [insertSlot, debugAssert_eq]
      exact ⟨hw.reports, hw.reportQueue, hw.finished, hw.options_eq⟩
  · rw [Stack.startService, publishStopped]
    cases w.slots[name]? with
    | none => rwa [ite_self]
    | some slot =>
      dsimp only
      split_ifs
      · exact ⟨hw.reports, hw.reportQueue, hw.finished, hw.options_eq⟩
      · exact ⟨hw.reports, hw.reportQueue, hw.finished, hw.options_eq⟩

theorem collected_initial (options : StackOptions) (config : ValidConfig) (plan : List ServiceName)
    (stopped : Finset ServiceName) :
    Collected options (Stack.initial options config plan stopped) [] := by
  have hinitial := unended_initial options config plan stopped
  refine ⟨noneRemoved_initial options config plan stopped, ⟨?_, ?_, ?_, nofun⟩, hinitial.options_eq,
    fun _ hfailed => ?_⟩
  · rw [hinitial.reports, hinitial.reportQueue]
    rfl
  · exact hinitial.finished.symm
  · rw [hinitial.finished]
    exact List.nodup_nil
  · obtain ⟨report, hreport, -⟩ := hfailed
    rw [hinitial.reports] at hreport
    cases hreport

/-- The loop of `up` collects what is sent. -/
theorem collected_of_run {options : StackOptions} {config : ValidConfig} {plan : StartPlan config.1}
    {stopped : Finset ServiceName} {actions : List StackAction}
    (hup : ∀ config plan ack, .submit (.reload config plan ack) ∉ actions)
    (h : stackSystem.run (Stack.initial options config plan.1 stopped) actions = some w) :
    Collected options w
      (stackSystem.observed sends (Stack.initial options config plan.1 stopped) actions) := by
  have hinit : stackSystem.Reachable AnyStep (Stack.initial options config plan.1 stopped) :=
    .initial ⟨options, config, plan, stopped, rfl⟩
  refine TransitionSystem.observed_induction_of_mem (I := Collected options)
    (fun {u action v sent} haction hu hI hstep => ?_) hinit
    (collected_initial options config plan.1 stopped) h
  exact hI.step (inv_of_reachable hu) (fun config plan ack he =>
    hup config plan ack (he ▸ haction)) hstep

end Stack

/-! ### The end of the run -/

namespace Shutdown

variable {s s' : Shutdown}

def outcome (s : Shutdown) : StackOutcome := ⟨s.stack.reports, s.reason⟩

/-- The report that a move sends, with the task that sends it. -/
def sends (s : Shutdown) : ShutdownAction → List (ℕ × ServiceReport)
  | .outside action => s.stack.sends action
  | _ => []

/-- The invariant of the end: what is sent is accounted for, and no task is aborted unless the stack
is told to stop. -/
structure Collecting (reason : Option ShutdownReason) (s : Shutdown)
    (sent : List (ℕ × ServiceReport)) : Prop where
  sent : s.stack.Sent sent
  left_eq : s.stack.left = some reason
  reason_eq : s.reason = reason
  unasked : reason = none → s.aborted = [] ∧
    (s.phase = .draining ∨ s.phase = .done ∨ ∃ handles, s.phase = .joining handles)

namespace Collecting

variable {reason : Option ShutdownReason} {sent : List (ℕ × ServiceReport)}

theorem ne_none_of_waiting (h : Collecting reason s sent) {name : ServiceName} {task : ℕ}
    {grace : Duration} {rest : List ServiceName} (hphase : s.phase = .waiting name task grace rest) :
    reason ≠ none := by
  intro hnone
  rcases (h.unasked hnone).2 with hother | hother | ⟨_, hother⟩ <;> simp [hphase] at hother

theorem outside (h : Collecting reason s sent) {action : StackAction}
    (hstep : s.step (.outside action) = some s') :
    Collecting reason s' (sent ++ s.stack.sends action) := by
  obtain ⟨stack, hstack, rfl⟩ := Option.map_eq_some_iff.mp hstep
  have hlooping : s.stack.looping = false := by simp [Stack.looping, h.left_eq]
  have hcontrol : action ≠ .control := by
    rintro rfl
    simp [Stack.step, hlooping] at hstack
  have hreport : action ≠ .report := by
    rintro rfl
    simp [Stack.step, hlooping] at hstack
  exact ⟨h.sent.quiet hstack hcontrol hreport,
    (Stack.step_of_left h.left_eq hstack).2.1.trans h.left_eq, h.reason_eq, h.unasked⟩

theorem drain (h : Collecting reason s sent) (hstep : s.step .drain = some s') :
    Collecting reason s' sent := by
  simp only [Shutdown.step] at hstep
  split at hstep
  · rename_i task report rest hphase hqueue
    cases hstep
    refine ⟨h.sent.congr ?_ rfl List.prefix_rfl, h.left_eq, h.reason_eq, h.unasked⟩
    simp [hqueue]
  · obtain ⟨-, hstep⟩ := Option.ite_none_right_eq_some.mp hstep
    cases hstep
    exact ⟨h.sent, h.left_eq, h.reason_eq, fun hnone => ⟨(h.unasked hnone).1, .inr (.inl rfl)⟩⟩
  · cases hstep

theorem step (h : Collecting reason s sent) {action : ShutdownAction}
    (hstep : s.step action = some s') : Collecting reason s' (sent ++ s.sends action) := by
  by_cases houtside : ∃ stackAction, action = .outside stackAction
  · obtain ⟨stackAction, rfl⟩ := houtside
    exact h.outside hstep
  have hnone : s.sends action = [] := by
    cases action with
    | outside stackAction => exact absurd ⟨stackAction, rfl⟩ houtside
    | _ => rfl
  rw [hnone, List.append_nil]
  by_cases hdrain : action = .drain
  · subst hdrain
    exact h.drain hstep
  obtain ⟨requests, hstack⟩ := stack_of_step hstep hdrain fun stackAction he =>
    houtside ⟨stackAction, he⟩
  have hsent : s'.stack.Sent sent := by
    rw [hstack]
    exact h.sent.congr rfl rfl List.prefix_rfl
  have hleft : s'.stack.left = some reason := by
    rw [hstack]
    exact h.left_eq
  cases action with
  | drain => exact absurd rfl hdrain
  | outside stackAction => exact absurd ⟨stackAction, rfl⟩ houtside
  | stop =>
    have hsome : reason ≠ none := by
      intro hnone
      simp only [Shutdown.step] at hstep
      rcases (h.unasked hnone).2 with hphase | hphase | ⟨_, hphase⟩ <;> simp [hphase] at hstep
    refine ⟨hsent, hleft, ?_, fun hnone => absurd hnone hsome⟩
    simp only [Shutdown.step] at hstep
    split at hstep <;> cases hstep
    · unfold stopNext
      split
      · exact h.reason_eq
      · dsimp only
        split <;> exact h.reason_eq
    · exact h.reason_eq
  | ended =>
    simp only [Shutdown.step] at hstep
    split at hstep
    · rename_i hphase
      obtain ⟨-, hstep⟩ := Option.ite_none_right_eq_some.mp hstep
      cases hstep
      exact ⟨hsent, hleft, h.reason_eq, fun hnone => absurd hnone (h.ne_none_of_waiting hphase)⟩
    · cases hstep
  | timeout =>
    simp only [Shutdown.step] at hstep
    split at hstep
    · rename_i hphase
      cases hstep
      exact ⟨hsent, hleft, h.reason_eq, fun hnone => absurd hnone (h.ne_none_of_waiting hphase)⟩
    · cases hstep
  | join =>
    simp only [Shutdown.step] at hstep
    split at hstep
    · obtain ⟨-, hstep⟩ := Option.ite_none_right_eq_some.mp hstep
      cases hstep
      exact ⟨hsent, hleft, h.reason_eq, fun hnone => ⟨(h.unasked hnone).1, .inr (.inr ⟨_, rfl⟩)⟩⟩
    · cases hstep
      exact ⟨hsent, hleft, h.reason_eq, fun hnone => ⟨(h.unasked hnone).1, .inl rfl⟩⟩
    · cases hstep

end Collecting

/-- The verdict of a run of `up`. -/
structure Verdict (options : StackOptions) (w : Stack) (s : Shutdown)
    (sent : List (ℕ × ServiceReport)) : Prop where
  /-- The reports are those that were sent, in the order in which they were. -/
  reports_eq : s.outcome.reports = sent.map Prod.snd
  /-- A task sends one report at most, under the name of its service. -/
  nodup : (sent.map Prod.fst).Nodup
  service : ∀ entry ∈ sent, ∃ spawned, s.stack.tasks[entry.1]? = some spawned ∧
    spawned.service.name = entry.2.service
  /-- A task that has sent none was aborted. -/
  reported : ∀ task < s.stack.tasks.length,
    task ∈ sent.map Prod.fst ∨ task ∈ s.aborted.map Prod.fst
  /-- The exit code is zero if and only if the stack was not told to stop and every task that was ever
  spawned has finished. -/
  upExitCode_eq_zero : s.outcome.upExitCode = 0 ↔ s.outcome.shutdown = none ∧
    ∀ task spawned, s.stack.tasks[task]? = some spawned →
      ∃ outcome, (task, ⟨spawned.service.name, .finished outcome⟩) ∈ sent
  /-- If the stack is to be torn down on a failure, the first failure that the loop collects ends
  it. -/
  aborts : options.abortOnFailure → (∃ report ∈ w.reports, report.result.isFailure) →
    s.outcome.shutdown = some .stackFailure

/-- **The verdict of `up`.** Whatever the order in which tasks, watchers, signals and the loop take
their steps: no report is lost or counted twice, be it collected by the loop or by the drain, and the
exit code is zero exactly when the stack has come to its end by itself and nothing has failed. -/
theorem verdict_of_run {options : StackOptions} {config : ValidConfig} {plan : StartPlan config.1}
    {stopped : Finset ServiceName} {actions : List StackAction} {w : Stack}
    {reason : Option ShutdownReason} {endActions : List ShutdownAction} {t s : Shutdown}
    (hup : ∀ config plan ack, .submit (.reload config plan ack) ∉ actions)
    (hw : stackSystem.run (Stack.initial options config plan.1 stopped) actions = some w)
    (hleft : w.left = some reason)
    (ht : shutdownSystem.run (Shutdown.begin w reason) endActions = some t)
    (hdrain : t.step .drain = some s) (hdone : s.phase = .done) :
    Verdict options w s
      (stackSystem.observed Stack.sends (Stack.initial options config plan.1 stopped) actions ++
        shutdownSystem.observed sends (Shutdown.begin w reason) endActions) := by
  have hloop := Stack.collected_of_run hup hw
  have hreach : stackSystem.Reachable AnyStep w :=
    ⟨_, ⟨options, config, plan, stopped, rfl⟩, TransitionSystem.steps_of_run hw⟩
  have hinit : shutdownSystem.Reachable AnyStep (Shutdown.begin w reason) :=
    .initial ⟨w, reason, hreach, hleft, rfl⟩
  have hbegin : Collecting reason (Shutdown.begin w reason)
      (stackSystem.observed Stack.sends (Stack.initial options config plan.1 stopped) actions) := by
    refine ⟨hloop.sent.congr rfl rfl List.prefix_rfl, hleft, rfl, fun hnone => ⟨rfl, ?_⟩⟩
    subst hnone
    exact .inr (.inr ⟨_, rfl⟩)
  have hend := (TransitionSystem.observed_induction (I := Collecting reason)
    (fun _ hI hstep => hI.step hstep) hinit hbegin ht).drain hdrain
  generalize stackSystem.observed Stack.sends _ actions ++
    shutdownSystem.observed sends _ endActions = sent at hend
  -- The last move finds the queue empty, and every task reported or aborted.
  obtain ⟨hqueue, hall⟩ : s.stack.reportQueue = [] ∧ ∀ task < s.stack.tasks.length,
      task ∈ s.stack.finished ∨ task ∈ s.aborted.map Prod.fst := by
    simp only [Shutdown.step] at hdrain
    split at hdrain
    · rename_i hphase _
      cases hdrain
      rw [hphase] at hdone
      cases hdone
    · rename_i hqueue
      obtain ⟨hall, hdrain⟩ := Option.ite_none_right_eq_some.mp hdrain
      cases hdrain
      exact ⟨hqueue, by simpa using hall⟩
    · cases hdrain
  have hreports : s.outcome.reports = sent.map Prod.snd := by
    rw [hend.sent.reports_eq, hqueue, List.map_nil, List.append_nil]
    rfl
  have hnodup : (sent.map Prod.fst).Nodup := hend.sent.finished_eq ▸ hend.sent.nodup
  refine ⟨hreports, hnodup, hend.sent.service, fun task htask => ?_, ?_, fun habort hfailed => ?_⟩
  · rw [hend.sent.finished_eq]
    exact hall task htask
  · rw [StackOutcome.upExitCode_eq_zero, StackOutcome.isSuccess_iff, hreports, and_comm]
    refine and_congr_right fun hnone => ⟨fun hsuccess task spawned htask => ?_, fun hfinished => ?_⟩
    · have hmem : task ∈ sent.map Prod.fst := by
        rw [hend.sent.finished_eq]
        refine (hall task (List.getElem?_eq_some_iff.mp htask).1).resolve_right ?_
        simp [(hend.unasked (hend.reason_eq.symm.trans hnone)).1]
      obtain ⟨⟨_, report⟩, hentry, rfl⟩ := List.mem_map.mp hmem
      obtain ⟨spawned', htask', hname⟩ := hend.sent.service _ hentry
      obtain rfl := Option.some.inj (htask.symm.trans htask')
      obtain ⟨outcome, hresult⟩ := ServiceResult.isFailure_eq_false.mp
        (hsuccess report (List.mem_map_of_mem (f := Prod.snd) hentry))
      refine ⟨outcome, ?_⟩
      rw [hname, ← hresult]
      exact hentry
    · intro report hreport
      obtain ⟨⟨task, _⟩, hentry, rfl⟩ := List.mem_map.mp hreport
      obtain ⟨spawned, htask, -⟩ := hend.sent.service _ hentry
      obtain ⟨outcome, hother⟩ := hfinished task spawned htask
      obtain he := List.inj_on_of_nodup_map hnodup hentry hother rfl
      rw [(Prod.mk.inj he).2]
      rfl
  · have hstackFailure := hloop.aborts (hloop.options_eq ▸ habort) hfailed
    rw [hleft] at hstackFailure
    exact hend.reason_eq.trans (Option.some.inj hstackFailure)

/-- A watcher restarts the second service, and then both come to their end. -/
def restartThenEnd : List StackAction :=
  [.submit (.restart ⟨"web"⟩ 0), .control, .finish 1 (.finished (.stopped .requested)), .report,
    .finish 0 (.finished (.exited (.code 0) 0)), .finish 2 (.finished (.exited (.code 0) 0)),
    .report, .report, .idle]

/-- The options of `up --abort-on-failure`. -/
def upOptions : StackOptions := { sampleOptions with abortOnFailure := true, keepRunning := false }

/-- Three tasks have reported, and the exit code is zero. -/
theorem verdict_restartThenEnd : ∃ w t s sent,
    stackSystem.run (Stack.initial upOptions sampleConfig samplePlan.1 ∅) restartThenEnd = some w ∧
      shutdownSystem.run (Shutdown.begin w none) [.join] = some t ∧ t.step .drain = some s ∧
      Verdict upOptions w s sent ∧ sent.map Prod.fst = [1, 0, 2] ∧ s.outcome.upExitCode = 0 := by
  have hrun : ((stackSystem.run (Stack.initial upOptions sampleConfig samplePlan.1 ∅)
      restartThenEnd).bind fun w => (shutdownSystem.run (Shutdown.begin w none) [.join]).bind fun t =>
      (t.step .drain).map fun s => decide (w.left = some none ∧ s.phase = .done ∧
        (stackSystem.observed Stack.sends (Stack.initial upOptions sampleConfig samplePlan.1 ∅)
          restartThenEnd ++ shutdownSystem.observed sends (Shutdown.begin w none) [.join]).map
            Prod.fst = [1, 0, 2] ∧ s.outcome.upExitCode = 0)) = some true := by
    decide +kernel
  obtain ⟨w, hw, hrun⟩ := Option.bind_eq_some_iff.mp hrun
  obtain ⟨t, ht, hrun⟩ := Option.bind_eq_some_iff.mp hrun
  obtain ⟨s, hs, hfacts⟩ := Option.map_eq_some_iff.mp hrun
  obtain ⟨hleft, hdone, htasks, hcode⟩ := of_decide_eq_true hfacts
  refine ⟨w, t, s, _, hw, ht, hs, verdict_of_run ?_ hw hleft ht hs hdone, htasks, hcode⟩
  intro config plan ack hmem
  simp [restartThenEnd] at hmem

end Shutdown

end Servicrab
