import Mathlib.Data.List.DropRight
import Servicrab.Runner.Verdicts

/-!
# How dependents judge a run that has exited

A service that has exited is there for its dependents, unless its process was stopped because it was
unhealthy. The tracker goes by a flag, which the verdicts of the probes set as well: a process that
was declared unhealthy and then exits on its own leaves it set, and a probe that passes while an
unhealthy process is stopped clears it. So the judgement follows the reason of the exit if no
verdict that speaks against it is the last one, and only then.

## Main definitions

* `ExitJudged`: the judgement follows the reason of the exit.
* `VerdictsStand`: the condition.
* `Run.Recorded`: the invariant.

## Main results

* `Run.exitJudged_iff`.
-/

open TransitionSystem (AnyStep)

namespace Servicrab

/-- What a verdict of the probes says about the health of the process. -/
def EventKind.verdict? (kind : EventKind) : Option Bool :=
  match kind with
  | .healthy => some true
  | .unhealthy _ => some false
  | _ => none

/-- The last verdict, if there is one. -/
def lastVerdict (kinds : List EventKind) : Option Bool :=
  (kinds.filterMap EventKind.verdict?).getLast?

/-- Whether the event says that a process ended without a request to stop the service. -/
def EventKind.isExit (kind : EventKind) : Bool :=
  match kind with
  | .exited _ _ => true
  | _ => false

/-- What follows the last `Starting`. -/
def sinceStarting (kinds : List EventKind) : List EventKind :=
  kinds.rtakeWhile fun kind => !decide (kind = .state .starting)

/-- What follows the end of the last process. -/
def sinceExit (kinds : List EventKind) : List EventKind :=
  kinds.rtakeWhile fun kind => !kind.isExit

/-- No verdict that speaks against the reason of the exit is the last one. -/
structure VerdictsStand (reason : ExitReason) (kinds : List EventKind) : Prop where
  /-- A process that exited on its own was not declared unhealthy last. -/
  own : reason ≠ .unhealthy → lastVerdict (sinceStarting kinds) ≠ some false
  /-- No probe has passed after the end of a process that was stopped as unhealthy. -/
  condemned : reason = .unhealthy → lastVerdict (sinceExit kinds) ≠ some true

/-- Under the conditions that do not ask for success, a service whose last process ended for the
reason will never be there if it was stopped as unhealthy, and is there otherwise. -/
def ExitJudged (reason : ExitReason) (kinds : List EventKind) : Prop :=
  ∀ condition ∈ [DependencyCondition.serviceStarted, .serviceHealthy],
    (kinds.foldl DependencyStatus.observe .new).readiness condition =
      if reason = .unhealthy then .gone else .ready

/-! ### The events of the last process -/

/-- Whether the event begins or ends a process. -/
def EventKind.isMark (kind : EventKind) : Bool := decide (kind = .state .starting) || kind.isExit

/-- The events that begin or end a process. -/
def marks (kinds : List EventKind) : List EventKind := kinds.filter EventKind.isMark

theorem marks_append (kinds kinds' : List EventKind) :
    marks (kinds ++ kinds') = marks kinds ++ marks kinds' := List.filter_append ..

theorem EventKind.isMark_of_isAside {kind : EventKind} (h : kind.isAside) :
    kind.isMark = false := by
  cases kind <;> first | rfl | cases h

theorem marks_of_isAside {kinds : List EventKind} (h : ∀ kind ∈ kinds, kind.isAside) :
    marks kinds = [] :=
  List.filter_eq_nil_iff.mpr fun kind hkind => by simp [EventKind.isMark_of_isAside (h kind hkind)]

/-- A process was begun, and has not ended. -/
def Begun (kinds : List EventKind) : Prop := [.state .starting] <:+ marks kinds

/-- The last process was begun, and has ended for the reason. -/
def Ended (reason : ExitReason) (kinds : List EventKind) : Prop :=
  ∃ uptime, [.state .starting, .exited reason uptime] <:+ marks kinds

theorem Begun.append {kinds kinds' : List EventKind} (h : Begun kinds) (h' : marks kinds' = []) :
    Begun (kinds ++ kinds') := by
  rwa [Begun, marks_append, h', List.append_nil]

/-- The last mark of a list, and what stands around it. -/
theorem exists_of_concat_eq_marks {kinds before : List EventKind} {mark : EventKind}
    (h : before ++ [mark] = marks kinds) :
    ∃ pre post, kinds = pre ++ mark :: post ∧ marks pre = before ∧
      ∀ kind ∈ post, kind.isMark = false := by
  obtain ⟨pre, rest, rfl, hpre, hrest⟩ := List.filter_eq_append_iff.mp h.symm
  obtain ⟨mid, post, rfl, hmid, -, hpost⟩ := List.filter_eq_cons_iff.mp hrest
  refine ⟨pre ++ mid, post, by simp, ?_, fun kind hkind => ?_⟩
  · rw [marks_append, marks, marks, hpre, List.filter_eq_nil_iff.mpr hmid, List.append_nil]
  · simpa using List.filter_eq_nil_iff.mp hpost kind hkind

theorem Begun.exists_split {kinds : List EventKind} (h : Begun kinds) :
    ∃ pre mid, kinds = pre ++ .state .starting :: mid ∧ ∀ kind ∈ mid, kind.isMark = false := by
  obtain ⟨before, h⟩ := h
  obtain ⟨pre, mid, hkinds, -, hmid⟩ := exists_of_concat_eq_marks h
  exact ⟨pre, mid, hkinds, hmid⟩

theorem Ended.exists_split {reason : ExitReason} {kinds : List EventKind} (h : Ended reason kinds) :
    ∃ pre uptime post, kinds = pre ++ .exited reason uptime :: post ∧ Begun pre ∧
      ∀ kind ∈ post, kind.isMark = false := by
  obtain ⟨uptime, before, h⟩ := h
  obtain ⟨pre, post, hkinds, hpre, hpost⟩ :=
    exists_of_concat_eq_marks ((List.append_assoc before [_] [_]).trans h)
  exact ⟨pre, uptime, post, hkinds, ⟨before, hpre.symm⟩, hpost⟩

/-! ### What the flag says -/

theorem lastVerdict_append (kinds kinds' : List EventKind) :
    lastVerdict (kinds ++ kinds') = (lastVerdict kinds').or (lastVerdict kinds) := by
  rw [lastVerdict, List.filterMap_append, List.getLast?_append]
  rfl

/-- Between two marks the flag follows the last verdict. -/
theorem DependencyStatus.foldl_observe_unhealthy (status : DependencyStatus)
    (kinds : List EventKind) (h : ∀ kind ∈ kinds, kind.isMark = false) :
    (kinds.foldl observe status).unhealthy =
      ((lastVerdict kinds).map Bool.not).getD status.unhealthy := by
  induction kinds using List.reverseRecOn with
  | nil => rfl
  | append_singleton kinds kind ih =>
    obtain ⟨hkinds, hkind⟩ := List.forall_mem_append.mp h
    have hmark : kind.isMark = false := hkind kind List.mem_cons_self
    rw [List.foldl_concat, lastVerdict_append]
    cases kind with
    | healthy | unhealthy => rfl
    | exited => cases hmark
    | state state =>
      have hne : state ≠ .starting := by
        rintro rfl
        cases hmark
      simp only [observe, if_neg hne]
      exact ih hkinds
    | _ => exact ih hkinds

theorem rtakeWhile_append_cons {α : Type*} {p : α → Bool} {x : α} {post : List α} (pre : List α)
    (hx : p x = false) (hpost : ∀ y ∈ post, p y) : (pre ++ x :: post).rtakeWhile p = post := by
  induction post using List.reverseRecOn with
  | nil => simp [hx]
  | append_singleton post y ih =>
    obtain ⟨hpost, hy⟩ := List.forall_mem_append.mp hpost
    rw [← List.cons_append, ← List.append_assoc,
      List.rtakeWhile_concat_pos _ _ _ (hy y List.mem_cons_self), ih hpost]

theorem EventKind.not_starting_of_isMark {kind : EventKind} (h : kind.isMark = false) :
    (!decide (kind = .state .starting)) = true := by
  simp only [isMark, Bool.or_eq_false_iff] at h
  rw [h.1]
  rfl

theorem EventKind.not_isExit_of_isMark {kind : EventKind} (h : kind.isMark = false) :
    (!kind.isExit) = true := by
  simp only [isMark, Bool.or_eq_false_iff] at h
  rw [h.2]
  rfl

/-- As long as the process runs, the flag follows the last verdict on it. -/
theorem Begun.unhealthy_iff {kinds : List EventKind} (h : Begun kinds) :
    (kinds.foldl DependencyStatus.observe .new).unhealthy ↔
      lastVerdict (sinceStarting kinds) = some false := by
  obtain ⟨pre, mid, rfl, hmid⟩ := h.exists_split
  have hsince : sinceStarting (pre ++ .state .starting :: mid) = mid :=
    rtakeWhile_append_cons pre rfl fun kind hkind =>
      EventKind.not_starting_of_isMark (hmid kind hkind)
  rw [hsince, List.foldl_append, List.foldl_cons,
    DependencyStatus.foldl_observe_unhealthy _ mid hmid]
  rcases lastVerdict mid with - | - | - <;> simp [DependencyStatus.observe]

/-- Once it has ended, the flag is set if the last verdict was against it, or if it was stopped as
unhealthy and no probe has passed since. -/
theorem Ended.unhealthy_iff {reason : ExitReason} {kinds : List EventKind} (h : Ended reason kinds) :
    (kinds.foldl DependencyStatus.observe .new).unhealthy ↔
      if reason = .unhealthy then lastVerdict (sinceExit kinds) ≠ some true
      else lastVerdict (sinceStarting kinds) = some false := by
  obtain ⟨pre, uptime, post, rfl, hbegun, hpost⟩ := h.exists_split
  have hexit : sinceExit (pre ++ .exited reason uptime :: post) = post :=
    rtakeWhile_append_cons pre rfl fun kind hkind => EventKind.not_isExit_of_isMark (hpost kind hkind)
  have hstart : sinceStarting (pre ++ .exited reason uptime :: post) =
      sinceStarting pre ++ .exited reason uptime :: post := by
    obtain ⟨before, mid, rfl, hmid⟩ := hbegun.exists_split
    have hnot : ∀ kind ∈ mid, (!decide (kind = .state .starting)) = true := fun kind hkind =>
      EventKind.not_starting_of_isMark (hmid kind hkind)
    rw [sinceStarting, sinceStarting, rtakeWhile_append_cons before (by simp) hnot,
      List.append_assoc, List.cons_append]
    refine rtakeWhile_append_cons before (by simp) fun kind hkind => ?_
    rcases List.mem_append.mp hkind with hkind | hkind
    · exact hnot kind hkind
    · rcases List.mem_cons.mp hkind with rfl | hkind
      · simp
      · exact EventKind.not_starting_of_isMark (hpost kind hkind)
  have hflag := hbegun.unhealthy_iff
  rw [hexit, hstart, lastVerdict_append, List.foldl_append, List.foldl_cons,
    DependencyStatus.foldl_observe_unhealthy _ post hpost]
  have hcons : lastVerdict (.exited reason uptime :: post) = lastVerdict post := rfl
  rw [hcons]
  split_ifs with hreason
  · rcases lastVerdict post with - | - | - <;> simp [DependencyStatus.observe, hreason]
  · rcases lastVerdict post with - | - | - <;> simp [DependencyStatus.observe, hreason, hflag]

/-! ### Runs -/

namespace Runner

/-- What is known about the events that were published, by where the runner is in its loop. -/
def Recorded (r : Runner) (kinds : List EventKind) : Prop :=
  match r.phase with
  | .spawning | .running _ | .signalling _ _ | .stopping _ _ | .killed _ _ | .sweeping _ _ _ =>
    Begun kinds
  | .returning (.ok (.exited reason _)) | .returned (.ok (.exited reason _)) =>
    r.state = .exited ∧ Ended reason kinds
  | _ => True

variable {r r' : Runner} {action : RunnerAction} {kinds kinds' : List EventKind}

/-- Only the marks matter. -/
theorem Recorded.of_marks (h : r.Recorded kinds) (hmarks : marks kinds' = marks kinds) :
    r.Recorded kinds' := by
  unfold Recorded Begun Ended at h ⊢
  rwa [hmarks]

/-- What a move publishes keeps the record. -/
theorem Moved.recorded (hmoved : Moved r action r') (hout : r.outbox = [])
    (h : r.Recorded kinds) : r'.Recorded (kinds ++ r'.outbox) := by
  unfold Recorded at h
  cases hmoved with
  | started =>
    refine ⟨marks kinds, ?_⟩
    rw [marks_append, moveTo, hout]
    rfl
  | spawned hphase | exited hphase | interrupted hphase | unhealthy hphase | signalled hphase
  | escalated hphase =>
    rw [hphase] at h
    refine Begun.append h ?_
    simp only [moveTo, hout]
    rfl
  | reaped hphase =>
    have hbegun : Begun kinds := by
      rcases hphase with hphase | hphase <;> rw [hphase] at h <;> exact h
    exact hbegun.append (by rw [hout]; rfl)
  | endedStop hphase =>
    rename_i uptime _ _
    rw [hphase] at h
    obtain ⟨before, h⟩ := h
    refine ⟨rfl, uptime, before, ?_⟩
    rw [marks_append, ← h, moveTo, hout, List.append_assoc]
    rfl
  | returned hphase =>
    rename_i result
    rw [hphase] at h
    simp only [hout, List.append_nil]
    rcases result with error | outcome
    · trivial
    · cases outcome with
      | exited => exact h
      | _ => trivial
  | _ => trivial

end Runner

namespace Run

variable {r : Run}

theorem recorded_of_reachable {C : Run → RunAction → Run → Prop} (h : runSystem.Reachable C r) :
    r.runner.Recorded r.published := by
  refine h.invariant (I := fun r => r.runner.Recorded r.published) ?_
    fun {u action v} hu hR _ hstep => ?_
  · rintro r₀ ⟨service, options, rfl⟩
    trivial
  · rcases step_sends (honest_of_reachable hu) hstep with
      ⟨runnerAction, rfl, hout, hrunner, hsent⟩ | ⟨kind, rest, hout, he, hsent⟩ |
      ⟨he, kinds, hsent, haside⟩
    · have hpublished : u.published = v.sent.map Prod.snd := by
        rw [published, hout, List.append_nil, hsent]
      rw [hpublished] at hR
      exact (Runner.moved_of_step (aligned_of_reachable hu) hrunner).recorded hout hR
    · have hpublished : v.published = u.published := by
        simp [published, he, hsent, hout]
      rw [hpublished, he]
      exact hR
    · rw [he]
      refine hR.of_marks ?_
      simp [published, he, hsent, marks_append, marks_of_isAside haside]

theorem published_of_returned {C : Run → RunAction → Run → Prop} (h : runSystem.Reachable C r)
    {result : Except RuntimeError RunOutcome} (hreturned : r.runner.phase = .returned result) :
    r.published = r.kinds := by
  rw [published, silent_of_reachable h result hreturned, List.append_nil, kinds]

/-- What the tracker makes of the events of a run that has exited. -/
theorem exists_status_of_exited {C : Run → RunAction → Run → Prop} (h : runSystem.Reachable C r)
    {reason : ExitReason} {restarts : ℕ}
    (hreturned : r.runner.phase = .returned (.ok (.exited reason restarts))) :
    ∃ status, r.kinds.foldl DependencyStatus.observe .new = status ∧ status.gone = false ∧
      status.state = .exited ∧ Ended reason r.kinds := by
  have hrecord := recorded_of_reachable h
  rw [Runner.Recorded, hreturned, published_of_returned h hreturned] at hrecord
  obtain ⟨hexited, hended⟩ := hrecord
  refine ⟨_, rfl, ?_, ?_, hended⟩
  · refine List.foldlRecOn (motive := fun status => DependencyStatus.gone status = false) _ _ rfl ?_
    exact fun status hgone kind _ => (status.observe_gone kind).trans hgone
  · obtain ⟨-, hlast⟩ := onPath_of_reachable h
    rw [states, published_of_returned h hreturned, getLast?_announced] at hlast
    rw [DependencyStatus.foldl_observe_state, ← hexited]
    exact Option.some.inj hlast

/-- **The judgement of a run that has exited** follows the reason of the exit if the verdicts stand,
and only then. -/
theorem exitJudged_iff (h : runSystem.Reachable AnyStep r) {reason : ExitReason} {restarts : ℕ}
    (hreturned : r.runner.phase = .returned (.ok (.exited reason restarts))) :
    ExitJudged reason r.kinds ↔ VerdictsStand reason r.kinds := by
  obtain ⟨status, hfold, hgone, hstate, hended⟩ := exists_status_of_exited h hreturned
  have hflag := hended.unhealthy_iff
  rw [hfold] at hflag
  have hjudged : ExitJudged reason r.kinds ↔ (status.unhealthy ↔ reason = .unhealthy) := by
    rw [ExitJudged, hfold]
    by_cases hreason : reason = .unhealthy <;>
      cases hunhealthy : status.unhealthy <;>
      simp [DependencyStatus.readiness, hgone, hstate, hunhealthy, hreason]
  rw [hjudged, hflag]
  by_cases hreason : reason = .unhealthy
  · rw [if_pos hreason]
    exact ⟨fun hiff => ⟨fun hne => absurd hreason hne, fun _ => hiff.mpr hreason⟩,
      fun hstand => ⟨fun _ => hreason, hstand.condemned⟩⟩
  · rw [if_neg hreason]
    exact ⟨fun hiff => ⟨fun _ hlast => hreason (hiff.mp hlast), fun he => absurd he hreason⟩,
      fun hstand => ⟨fun hlast => absurd hlast (hstand.own hreason), fun he => absurd he hreason⟩⟩

/-! ### Runs to follow -/

/-- The process exits with status 0, and the runner returns. -/
def exitProcess : List RunAction :=
  [.runner (.wait (.ok ⟨some 0, none⟩)), .runner (.sweep (.ok ()) 0), .publish, .publish, .publish,
    .runner .return]

/-- The probe fails, and the verdict is published. -/
def failProbe (index : ℕ) : List RunAction :=
  [.monitor index (.probe (.error "refused") false), .monitor index .publish,
    .monitor index .publish, .monitor index .publish]

/-- The service is not restarted. -/
def oneShotOptions : RunOptions where
  noRestart := true
  output := .capture

/-- A process that was declared unhealthy, and healthy again, exits on its own, and its service is
there for its dependents. -/
theorem exitJudged_exitProcess :
    ∃ r, runSystem.run (new probedService oneShotOptions) (startProcess 100 ++ beginProbe 0 ++
        failProbe 0 ++ beginProbe 0 ++ passProbe 0 ++ exitProcess) = some r ∧
      r.kinds.filterMap EventKind.verdict? = [false, true] ∧ ExitJudged (.code 0) r.kinds := by
  have hrun : ((runSystem.run (new probedService oneShotOptions) (startProcess 100 ++ beginProbe 0 ++
      failProbe 0 ++ beginProbe 0 ++ passProbe 0 ++ exitProcess)).map fun r =>
      decide (r.runner.phase = .returned (.ok (.exited (.code 0) 0)) ∧
        r.kinds.filterMap EventKind.verdict? = [false, true] ∧
        lastVerdict (sinceStarting r.kinds) = some true)) = some true := by decide +kernel
  obtain ⟨r, hr, hfacts⟩ := Option.map_eq_some_iff.mp hrun
  obtain ⟨hreturned, hverdicts, hlast⟩ := of_decide_eq_true hfacts
  refine ⟨r, hr, hverdicts, (exitJudged_iff ?_ hreturned).mpr ⟨fun _ => ?_, fun he => nomatch he⟩⟩
  · exact ⟨_, ⟨probedService, oneShotOptions, rfl⟩, TransitionSystem.steps_of_run hr⟩
  · rw [hlast]
    simp

/-- A process that was declared unhealthy, with a health check that leaves it alone, exits on its
own with status 0, and its service is gone for its dependents. -/
theorem unhealthy_exit_is_gone : ¬ ∀ r reason restarts, runSystem.Reachable AnyStep r →
    r.runner.phase = .returned (.ok (.exited reason restarts)) → ExitJudged reason r.kinds := by
  intro hall
  have hrun : ((runSystem.run (new probedService oneShotOptions)
      (startProcess 100 ++ beginProbe 0 ++ failProbe 0 ++ exitProcess)).map fun r =>
      decide (r.runner.phase = .returned (.ok (.exited (.code 0) 0)) ∧
        (r.kinds.foldl DependencyStatus.observe .new).readiness .serviceStarted = .gone)) =
      some true := by decide +kernel
  obtain ⟨r, hr, hfacts⟩ := Option.map_eq_some_iff.mp hrun
  obtain ⟨hreturned, hgone⟩ := of_decide_eq_true hfacts
  have hjudged := hall r _ _
    ⟨_, ⟨probedService, oneShotOptions, rfl⟩, TransitionSystem.steps_of_run hr⟩ hreturned
    .serviceStarted List.mem_cons_self
  rw [hgone] at hjudged
  cases hjudged

end Run

end Servicrab
