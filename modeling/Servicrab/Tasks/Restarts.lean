import Servicrab.Core.Budget
import Servicrab.Core.Status
import Servicrab.Runner.Endings
import Servicrab.Tasks.World

/-!
# Two counts of restarts

A runner counts how often it has gone on to start its process again, and reports the count with its
result. The registry copies the number of the attempt out of the last `Backoff` event, which is the
counter of the restart tracker. A process that has run long enough resets that counter, and an entry
keeps the figure of an earlier run of the service until the first `Backoff`. So the counts agree in
the runs in which no counted restart is forgotten and the entry has nothing to say as they begin.

## Main definitions

* `startsAgain`: how often a process was started again, as the events tell it.
* `RestartsAgree`: what is asked of the figure in the entry.
* `Run.Steady`: the guard.
* `Tally`, `Runner.Counted`: the invariant.

## Main results

* `Run.restartsAgree_of_reachable`.
-/

open TransitionSystem (AnyStep)

namespace Servicrab

/-! ### What is asked -/

/-- How often a process was started again. -/
def startsAgain (kinds : List EventKind) : ℕ := kinds.count (.state .starting) - 1

/-- The events of the run of a service among those that the registry has folded. -/
def heard (events : List (Instant × ServiceEvent)) (name : ServiceName) : List EventKind :=
  ((StatusRegistry.eventsOf events name).map Prod.snd).filter fun kind => !kind.isWatch

/-- The figure in the entry of a service, after some events. -/
def StatusRegistry.figure (registry : StatusRegistry) (name : ServiceName)
    (events : List (Instant × ServiceEvent)) : Option ℕ :=
  (registry.applyAll events).services[name]?.map StatusEntry.restarts

/-- The figure in the entry is the number of restarts so far whenever a process was started, which is
also what the run reports, and it never decreases. -/
structure RestartsAgree (registry : StatusRegistry) (name : ServiceName) (r : Run) : Prop where
  started : ∀ events pre pgid, heard events name = pre ++ [.started pgid] →
    heard events name <+: r.published → registry.figure name events = some (startsAgain pre)
  exited : ∀ reason restarts, r.runner.result = some (.ok (.exited reason restarts)) →
    restarts = startsAgain r.published
  restartLimit : ∀ service attempts,
    r.runner.result = some (.error (.restartLimitExhausted service attempts)) →
      attempts = startsAgain r.published
  grows : ∀ events later figure figure', heard (events ++ later) name <+: r.published →
    registry.figure name events = some figure →
    registry.figure name (events ++ later) = some figure' → figure ≤ figure'

/-! ### The guard -/

namespace Runner

variable (r : Runner)

/-- The end of a process that a step puts to the restart tracker. -/
def putToTracker (action : RunnerAction) : Option ProcessOutcome :=
  match r.phase, action with
  | .spawning, .spawn (.error e) => some ⟨.spawnFailure e.retryable, 0⟩
  | .sweeping _ reason none, .sweep (.ok ()) uptime => some ⟨reason, uptime⟩
  | _, _ => none

/-- The end of a process after which a step decides on a restart. -/
def restartedAfter (action : RunnerAction) : Option ProcessOutcome :=
  (r.putToTracker action).filter fun outcome =>
    ((r.tracker.decide outcome none).1.attempt).isSome

/-- The figure that the run has found in the entry was zero as the first process is started, or at
most one if that fails and is tried again; and no restart that was counted is forgotten: no process
is restarted after it has run long enough to reset a counter above zero, nor when the counter is at
its end. -/
def Steady (figure : ℕ) (action : RunnerAction) : Prop :=
  match action with
  | .spawn (.ok _) => r.restarts = 0 → figure = 0
  | _ => ∀ outcome, r.restartedAfter action = some outcome →
    (r.restarts = 0 → figure ≤ 1) ∧
      (r.tracker.stableAfter ≤ outcome.uptime → r.tracker.attempts = 0) ∧
      r.tracker.attempts < u32Max

end Runner

/-- The guard that the steps of the runner are steady. -/
def Run.Steady (figure : ℕ) (r : Run) (action : RunAction) (_ : Run) : Prop :=
  ∀ runnerAction, action = .runner runnerAction → r.runner.Steady figure runnerAction

/-! ### Tallies -/

/-- What the events say about restarts: how often a process was about to be started, and the figure
in the entry. -/
structure Tally where
  starts : ℕ
  figure : ℕ

namespace Tally

def hear (t : Tally) (kind : EventKind) : Tally :=
  match kind with
  | .state .starting => { t with starts := t.starts + 1 }
  | .backoff _ attempt => { t with figure := attempt }
  | _ => t

/-- An event that may come next: a process is started when the figure is right, and the figure does
not decrease. -/
def Allows (t : Tally) (kind : EventKind) : Prop :=
  match kind with
  | .started _ => t.starts = t.figure + 1
  | .backoff _ attempt => t.figure ≤ attempt
  | _ => True

/-- Each of the events may come next after those before it. -/
def Agrees (t : Tally) : List EventKind → Prop
  | [] => True
  | kind :: kinds => t.Allows kind ∧ (t.hear kind).Agrees kinds

variable {t : Tally} {kind : EventKind} {kinds kinds' : List EventKind}

theorem agrees_append : ∀ {t : Tally},
    t.Agrees (kinds ++ kinds') ↔ t.Agrees kinds ∧ (kinds.foldl hear t).Agrees kinds' := by
  induction kinds with
  | nil => simp [Agrees]
  | cons kind kinds ih =>
    intro t
    rw [List.cons_append, Agrees, Agrees, ih, and_assoc]
    rfl

/-- Monitors, readers and watchers say nothing about restarts. -/
theorem hear_of_aside (h : kind.isAside ∨ kind.isWatch) (t : Tally) : t.hear kind = t := by
  cases kind <;> first | rfl | (rcases h with h | h <;> cases h)

theorem allows_of_aside (h : kind.isAside) (t : Tally) : t.Allows kind := by
  cases kind <;> trivial

theorem foldl_hear_of_aside (h : ∀ kind ∈ kinds, kind.isAside) (t : Tally) :
    kinds.foldl hear t = t := by
  induction kinds with
  | nil => rfl
  | cons kind kinds ih =>
    obtain ⟨hkind, hkinds⟩ := List.forall_mem_cons.mp h
    rw [List.foldl_cons, hear_of_aside (.inl hkind), ih hkinds]

theorem agrees_of_aside (h : ∀ kind ∈ kinds, kind.isAside) (t : Tally) : t.Agrees kinds := by
  induction kinds with
  | nil => trivial
  | cons kind kinds ih =>
    obtain ⟨hkind, hkinds⟩ := List.forall_mem_cons.mp h
    refine ⟨allows_of_aside hkind t, ?_⟩
    rw [hear_of_aside (.inl hkind)]
    exact ih hkinds

theorem starts_foldl : ∀ t : Tally,
    (kinds.foldl hear t).starts = t.starts + kinds.count (.state .starting) := by
  induction kinds with
  | nil => exact fun _ => rfl
  | cons kind kinds ih =>
    intro t
    rw [List.foldl_cons, ih, List.count_cons]
    by_cases hkind : kind = .state .starting
    · subst hkind
      simp only [hear, beq_self_eq_true, if_true]
      omega
    · have hsame : (t.hear kind).starts = t.starts := by
        unfold hear
        split
        · exact absurd rfl hkind
        · rfl
        · rfl
      simp [hsame, hkind]

/-- The figure only grows along events that agree. -/
theorem Agrees.figure_le : ∀ {t : Tally}, t.Agrees kinds → t.figure ≤ (kinds.foldl hear t).figure := by
  induction kinds with
  | nil => exact fun _ => le_rfl
  | cons kind kinds ih =>
    rintro t ⟨hkind, hkinds⟩
    have hfirst : t.figure ≤ (t.hear kind).figure := by
      unfold hear
      split
      · exact le_rfl
      · exact hkind
      · exact le_rfl
    exact hfirst.trans (ih hkinds)

/-! ### The entry -/

/-- An entry follows the figure of the tally. -/
theorem restarts_applyAll (events : List (Instant × EventKind)) :
    ∀ (entry : StatusEntry) (t : Tally), t.figure = entry.restarts →
      (entry.applyAll events).restarts = ((events.map Prod.snd).foldl hear t).figure := by
  induction events with
  | nil => exact fun _ _ h => h.symm
  | cons event events ih =>
    intro entry t h
    refine ih (entry.apply event.1 event.2) (t.hear event.2) ?_
    obtain ⟨now, kind⟩ := event
    cases kind with
    | state state =>
      have hsame : (entry.apply now (.state state)).restarts = entry.restarts := by
        simp only [StatusEntry.apply]
        split_ifs <;> rfl
      rw [hsame, ← h]
      cases state <;> rfl
    | backoff => rfl
    | _ => exact h

/-- The events of the watcher leave the tally alone. -/
theorem foldl_hear_filter (kinds : List EventKind) (t : Tally) :
    (kinds.filter fun kind => !kind.isWatch).foldl hear t = kinds.foldl hear t := by
  rw [List.foldl_filter]
  congr 1
  funext t kind
  cases hwatch : kind.isWatch with
  | true => exact (hear_of_aside (.inr hwatch) t).symm
  | false => rfl

end Tally

/-- The figure in an entry is that of the events of the run. -/
theorem StatusRegistry.figure_eq {registry : StatusRegistry} {name : ServiceName}
    {entry : StatusEntry} (hentry : registry.services[name]? = some entry)
    (events : List (Instant × ServiceEvent)) :
    registry.figure name events =
      some ((heard events name).foldl Tally.hear ⟨0, entry.restarts⟩).figure := by
  rw [figure, getElem?_applyAll, hentry, Option.map_some, Option.map_some,
    Tally.restarts_applyAll _ entry ⟨0, entry.restarts⟩ rfl, heard, Tally.foldl_hear_filter]

/-! ### The runner -/

/-- A restart that is not forgotten gets the next number. -/
theorem RestartTracker.decide_of_counted {t tracker : RestartTracker} {outcome : ProcessOutcome}
    {delay : Duration} {attempt : ℕ}
    (hdecide : t.decide outcome none = (.restart delay attempt, tracker))
    (hreset : t.stableAfter ≤ outcome.uptime → t.attempts = 0) (hlt : t.attempts < u32Max) :
    attempt = t.attempts + 1 ∧ tracker.attempts = t.attempts + 1 := by
  have hcalm : t.attempts = 0 ∨ t.stable (outcome, none) = false := by
    rcases le_or_gt t.stableAfter outcome.uptime with hle | hgt
    · exact .inl (hreset hle)
    · exact .inr (by simp [stable, hgt])
  obtain ⟨hanswer, hnext⟩ := decide_of_calm hcalm
  rw [answer, hdecide] at hanswer
  rw [next, hdecide] at hnext
  have hnumber : min (t.attempts + 1) u32Max = t.attempts + 1 := min_eq_left hlt
  split_ifs at hanswer with hworthy hbudget
  · rw [if_pos ⟨hworthy, hbudget⟩] at hnext
    rw [hnumber] at hanswer hnext
    exact ⟨(RestartDecision.restart.inj hanswer).2, congrArg attempts hnext⟩

namespace Runner

variable {r r' : Runner} {action : RunnerAction} {figure : ℕ} {t : Tally}

/-- What the tally has to say, by where the runner is in its loop. The figure is the one the run has
found in the entry until the first restart. -/
def Counted (figure : ℕ) (r : Runner) (t : Tally) : Prop :=
  match r.phase with
  | .head => t.starts = r.restarts ∧ r.tracker.attempts = r.restarts ∧
    t.figure = if r.restarts = 0 then figure else r.restarts
  | .spawning => t.starts = r.restarts + 1 ∧ r.tracker.attempts = r.restarts ∧
    t.figure = if r.restarts = 0 then figure else r.restarts
  | .running _ | .signalling _ _ | .stopping _ _ | .killed _ _ | .sweeping _ _ _ =>
    t.starts = r.restarts + 1 ∧ r.tracker.attempts = r.restarts ∧ t.figure = r.restarts
  | .backoff _ => t.starts = r.restarts + 1 ∧ r.tracker.attempts = r.restarts + 1 ∧
    t.figure = r.restarts + 1
  | .returning (.ok (.exited _ restarts)) | .returned (.ok (.exited _ restarts)) =>
    t.starts = restarts + 1
  | .returning (.error (.restartLimitExhausted _ attempts))
  | .returned (.error (.restartLimitExhausted _ attempts)) => t.starts = attempts + 1
  | _ => True

theorem restartedAfter_eq {outcome : ProcessOutcome} {delay : Duration} {attempt : ℕ}
    {tracker : RestartTracker} (hput : r.putToTracker action = some outcome)
    (hdecide : r.tracker.decide outcome none = (.restart delay attempt, tracker)) :
    r.restartedAfter action = some outcome := by
  rw [restartedAfter, hput, Option.filter_some, hdecide]
  rfl

/-- In a run that keeps to the guard, the next restart has the next number. -/
theorem Steady.restart {outcome : ProcessOutcome} {delay : Duration} {attempt : ℕ}
    {tracker : RestartTracker} (hsteady : r.Steady figure action)
    (hput : r.putToTracker action = some outcome)
    (hdecide : r.tracker.decide outcome none = (.restart delay attempt, tracker)) :
    (r.restarts = 0 → figure ≤ 1) ∧ attempt = r.tracker.attempts + 1 ∧
      tracker.attempts = r.tracker.attempts + 1 := by
  unfold Steady at hsteady
  split at hsteady
  · unfold putToTracker at hput
    split at hput <;> simp_all
  · obtain ⟨hfirst, hreset, hlt⟩ := hsteady outcome (restartedAfter_eq hput hdecide)
    exact ⟨hfirst, RestartTracker.decide_of_counted hdecide hreset hlt⟩

/-- What a step publishes agrees with the tally, in a run that keeps to the guard. -/
theorem Counted.step (h : r.Counted figure t) (hA : r.Aligned) (hout : r.outbox = [])
    (hsteady : r.Steady figure action) (hstep : r.step action = some r') :
    t.Agrees r'.outbox ∧ r'.Counted figure (r'.outbox.foldl Tally.hear t) := by
  have hmoved := moved_of_step hA hstep
  unfold Counted at h
  cases hmoved with
  | started hphase =>
    rw [hphase] at h
    simp only [moveTo, hout, List.nil_append]
    exact ⟨⟨trivial, trivial⟩, by rw [← h.1]; rfl, h.2⟩
  | spawned hphase =>
    rw [hphase] at h
    obtain ⟨hstarts, hattempts, hfigure⟩ := h
    have hright : t.figure = r.restarts := by
      rw [hfigure]
      split_ifs with hzero
      · rw [hzero]
        exact hsteady hzero
      · rfl
    simp only [moveTo, hout, List.nil_append]
    refine ⟨⟨trivial, ?_, trivial⟩, hstarts, hattempts, hright⟩
    change t.starts = t.figure + 1
    rw [hstarts, hright]
  | spawnRetried hphase hdecide =>
    rename_i e delay attempt tracker
    have hput : r.putToTracker (.spawn (.error e)) =
        some ⟨.spawnFailure e.retryable, 0⟩ := by
      simp only [putToTracker, hphase]
    obtain ⟨hfirst, hattempt, htracker⟩ := hsteady.restart hput hdecide
    rw [hphase] at h
    obtain ⟨hstarts, hattempts, hfigure⟩ := h
    simp only [moveTo, hout, List.nil_append]
    refine ⟨⟨trivial, ?_, trivial⟩, hstarts, ?_, ?_⟩
    · change t.figure ≤ attempt
      rw [hattempt, hattempts, hfigure]
      split_ifs with hzero
      · rw [hzero]
        exact hfirst hzero
      · exact Nat.le_succ _
    · rw [htracker, hattempts]
    · change attempt = _
      rw [hattempt, hattempts]
  | endedRestart hphase hdecide =>
    rename_i reason uptime delay attempt tracker
    have hput : r.putToTracker (.sweep (.ok ()) uptime) = some ⟨reason, uptime⟩ := by
      simp only [putToTracker, hphase]
    obtain ⟨-, hattempt, htracker⟩ := hsteady.restart hput hdecide
    rw [hphase] at h
    obtain ⟨hstarts, hattempts, hfigure⟩ := h
    simp only [moveTo, hout, List.nil_append]
    refine ⟨⟨trivial, trivial, ?_, trivial⟩, hstarts, ?_, ?_⟩
    · change t.figure ≤ attempt
      rw [hattempt, hattempts, hfigure]
      exact Nat.le_succ _
    · rw [htracker, hattempts]
    · change attempt = _
      rw [hattempt, hattempts]
  | exited hphase | signalled hphase | escalated hphase =>
    rw [hphase] at h
    simp only [hout]
    exact ⟨trivial, h⟩
  | interrupted hphase | unhealthy hphase =>
    rw [hphase] at h
    simp only [moveTo, hout, List.nil_append]
    exact ⟨⟨trivial, trivial, trivial⟩, h⟩
  | reaped hphase =>
    simp only [hout]
    rcases hphase with hphase | hphase <;> rw [hphase] at h <;> exact ⟨trivial, h⟩
  | endedStop hphase | endedFail hphase =>
    rw [hphase] at h
    simp only [moveTo, hout, List.nil_append]
    exact ⟨⟨trivial, trivial, trivial, trivial⟩, h.1⟩
  | slept hphase =>
    rw [hphase] at h
    simp only [hout]
    exact ⟨trivial, h.1, h.2.1, h.2.2⟩
  | returned hphase =>
    rename_i result
    rw [hphase] at h
    simp only [hout]
    refine ⟨trivial, ?_⟩
    rcases result with error | outcome
    · cases error <;> exact h
    · cases outcome <;> exact h
  | @spawnFailed e =>
    simp only [moveTo, hout, List.nil_append]
    refine ⟨⟨trivial, trivial, trivial⟩, ?_⟩
    cases e <;> trivial
  | stoppedAtHead | endedStopped =>
    simp only [moveTo, hout, List.nil_append]
    exact ⟨by simp [Tally.Agrees, Tally.Allows], trivial⟩
  | stoppedInBackoff =>
    rename_i afterExit why _
    simp only [moveTo, hout, List.nil_append]
    exact ⟨by cases afterExit <;> simp [Tally.Agrees, Tally.Allows], trivial⟩
  | waitBroke | signalBroke | escalateBroke | sweepBroke =>
    simp only [fail, hout]
    exact ⟨trivial, trivial⟩

/-- The number that a result reports is that of the processes after the first. -/
theorem Counted.starts_eq (h : r.Counted figure t) {n : ℕ}
    (hresult : (∃ reason, r.result = some (.ok (.exited reason n))) ∨
      ∃ service, r.result = some (.error (.restartLimitExhausted service n))) :
    t.starts = n + 1 := by
  unfold Counted at h
  rcases hresult with ⟨reason, hresult⟩ | ⟨service, hresult⟩
  all_goals
    unfold result at hresult
    split at hresult <;> cases hresult <;> rename_i hphase
    all_goals
      rw [hphase] at h
      exact h

end Runner

/-! ### Runs -/

namespace Run

variable {r : Run} {figure : ℕ}

/-- What a run has published agrees with a tally that starts from the figure. -/
structure Accounted (figure : ℕ) (r : Run) : Prop where
  agrees : Tally.Agrees ⟨0, figure⟩ r.published
  counted : r.runner.Counted figure (r.published.foldl Tally.hear ⟨0, figure⟩)

theorem accounted_of_reachable (h : runSystem.Reachable (Steady figure) r) : r.Accounted figure := by
  refine h.invariant (I := Accounted figure) ?_ fun {u action v} hu hA hsteady hstep => ?_
  · rintro r₀ ⟨service, options, rfl⟩
    exact ⟨trivial, rfl, rfl, rfl⟩
  · rcases step_sends (honest_of_reachable hu) hstep with
      ⟨runnerAction, rfl, hout, hrunner, hsent⟩ | ⟨kind, rest, hout, he, hsent⟩ |
      ⟨he, kinds, hsent, haside⟩
    · have hbefore : u.published = v.sent.map Prod.snd := by
        rw [published, hout, List.append_nil, hsent]
      obtain ⟨hagrees, hcounted⟩ := hA.counted.step (aligned_of_reachable hu) hout
        (hsteady runnerAction rfl) hrunner
      rw [hbefore] at hagrees hcounted
      constructor <;> rw [published]
      · exact Tally.agrees_append.mpr ⟨hbefore ▸ hA.agrees, hagrees⟩
      · rw [List.foldl_append]
        exact hcounted
    · have hsame : v.published = u.published := by simp [published, he, hsent, hout]
      refine ⟨hsame ▸ hA.agrees, ?_⟩
      rw [hsame, he]
      exact hA.counted
    · have hsplit : v.published = u.sent.map Prod.snd ++ kinds ++ u.runner.outbox := by
        rw [published, hsent, he]
      obtain ⟨hagrees, hcounted⟩ := hA
      rw [published, Tally.agrees_append] at hagrees
      rw [published, List.foldl_append] at hcounted
      constructor <;> rw [hsplit]
      · rw [List.append_assoc, Tally.agrees_append, Tally.agrees_append,
          Tally.foldl_hear_of_aside haside]
        exact ⟨hagrees.1, Tally.agrees_of_aside haside _, hagrees.2⟩
      · rw [List.foldl_append, List.foldl_append, Tally.foldl_hear_of_aside haside, he]
        exact hcounted

/-- **The counts of restarts agree** in every run that finds nothing in the entry and in which no
restart that was counted is forgotten, whatever the entry has been through before. -/
theorem restartsAgree_of_reachable {registry : StatusRegistry} {name : ServiceName}
    {entry : StatusEntry} (hentry : registry.services[name]? = some entry)
    (h : runSystem.Reachable (Steady entry.restarts) r) : RestartsAgree registry name r := by
  obtain ⟨hagrees, hcounted⟩ := accounted_of_reachable h
  have hreported : ∀ {n : ℕ}, (∃ reason, r.runner.result = some (.ok (.exited reason n))) ∨
      (∃ service, r.runner.result = some (.error (.restartLimitExhausted service n))) →
        n = startsAgain r.published := by
    intro n hresult
    have hstarts := hcounted.starts_eq hresult
    rw [Tally.starts_foldl, Nat.zero_add] at hstarts
    rw [startsAgain, hstarts, Nat.add_sub_cancel]
  constructor
  case started =>
    intro events pre pgid hheard hprefix
    rw [StatusRegistry.figure_eq hentry, Option.some.injEq]
    obtain ⟨post, hpublished⟩ := hprefix
    rw [← hpublished, Tally.agrees_append, hheard, Tally.agrees_append] at hagrees
    have hright : (pre.foldl Tally.hear ⟨0, entry.restarts⟩).starts =
        (pre.foldl Tally.hear ⟨0, entry.restarts⟩).figure + 1 := hagrees.1.2.1
    rw [Tally.starts_foldl, Nat.zero_add] at hright
    rw [hheard, List.foldl_concat, startsAgain, hright]
    rfl
  case exited => exact fun reason restarts hresult => hreported (.inl ⟨reason, hresult⟩)
  case restartLimit => exact fun service attempts hresult => hreported (.inr ⟨service, hresult⟩)
  case grows =>
    intro events later before after hprefix hbefore hafter
    rw [StatusRegistry.figure_eq hentry, Option.some.injEq] at hbefore hafter
    obtain ⟨post, hpublished⟩ := hprefix
    have happend : heard (events ++ later) name = heard events name ++ heard later name := by
      simp only [heard, StatusRegistry.eventsOf_append, List.map_append, List.filter_append]
    rw [← hpublished, happend, Tally.agrees_append, Tally.agrees_append] at hagrees
    rw [← hbefore, ← hafter, happend, List.foldl_append]
    exact hagrees.1.2.figure_le

/-! ### Runs to follow -/

/-- Steps that are steady for an entry with a figure. -/
def steadyStep (figure : ℕ) (r : Run) (action : RunAction) : Bool :=
  match action with
  | .runner (.spawn (.ok _)) => r.runner.restarts ≠ 0 ∨ figure = 0
  | .runner action => (r.runner.restartedAfter action).all fun outcome =>
      (r.runner.restarts ≠ 0 ∨ figure ≤ 1) ∧
        (outcome.uptime < r.runner.tracker.stableAfter ∨ r.runner.tracker.attempts = 0) ∧
        r.runner.tracker.attempts < u32Max
  | _ => true

theorem steady_of_steadyStep (r : Run) (action : RunAction) (r' : Run)
    (h : steadyStep figure r action) (_ : runSystem.step r action = some r') :
    Steady figure r action r' := by
  rintro runnerAction rfl
  unfold Runner.Steady
  split
  · simpa only [steadyStep, decide_eq_true_eq, ne_eq, ← Decidable.imp_iff_not_or] using h
  · rename_i hspawn
    intro outcome houtcome
    simpa only [steadyStep, houtcome, Option.all_some, decide_eq_true_eq, ne_eq,
      or_iff_not_imp_left, not_not, not_lt] using h

/-- A service that crashes once, and runs again. -/
theorem restartsAgree_oneCrash :
    ∃ r, runSystem.checkedRun (steadyStep 0) (new probedService probedOptions)
        (startProcess 100 ++ endProcess ++ startProcess 200) = some r ∧
      startsAgain r.published = 1 ∧ RestartsAgree (.new [(⟨"db"⟩, true)]) ⟨"db"⟩ r := by
  have hrun : ((runSystem.checkedRun (steadyStep 0) (new probedService probedOptions)
      (startProcess 100 ++ endProcess ++ startProcess 200)).map fun r =>
      decide (startsAgain r.published = 1)) = some true := by decide +kernel
  obtain ⟨r, hr, hagain⟩ := Option.map_eq_some_iff.mp hrun
  have hentry : (StatusRegistry.new [(⟨"db"⟩, true)]).services[(⟨"db"⟩ : ServiceName)]? =
      some (.new true) := by decide +kernel
  refine ⟨r, hr, of_decide_eq_true hagain, restartsAgree_of_reachable hentry ?_⟩
  exact ⟨_, ⟨probedService, probedOptions, rfl⟩,
    TransitionSystem.steps_of_checkedRun steady_of_steadyStep hr⟩

/-- A service that crashes twice, each time after a run that was long enough: the third process is
its second restart, and the entry counts one. -/
theorem second_restart_counts_one : ¬ ∀ registry name entry r,
    registry.services[name]? = some entry → runSystem.Reachable AnyStep r →
      RestartsAgree registry name r := by
  intro hall
  have hrun : ((runSystem.run (new probedService probedOptions)
      (startProcess 100 ++ endProcess ++ startProcess 200 ++ endProcess ++ startProcess 300)).map
      fun r =>
        decide (heard (r.published.map fun kind => (0, ⟨⟨"db"⟩, kind⟩)) ⟨"db"⟩ = r.published ∧
          r.published = r.published.dropLast ++ [.started 300] ∧
          StatusRegistry.figure (.new [(⟨"db"⟩, true)]) ⟨"db"⟩
            (r.published.map fun kind => (0, ⟨⟨"db"⟩, kind⟩)) = some 1 ∧
          startsAgain r.published.dropLast = 2)) = some true := by decide +kernel
  obtain ⟨r, hr, hfacts⟩ := Option.map_eq_some_iff.mp hrun
  obtain ⟨hheard, hlast, hfigure, hagain⟩ := of_decide_eq_true hfacts
  have hentry : (StatusRegistry.new [(⟨"db"⟩, true)]).services[(⟨"db"⟩ : ServiceName)]? =
      some (.new true) := by decide +kernel
  have hagree := hall _ _ _ r hentry
    ⟨_, ⟨probedService, probedOptions, rfl⟩, TransitionSystem.steps_of_run hr⟩
  have hstarted := hagree.started _ _ 300 (hheard.trans hlast) (by rw [hheard])
  rw [hfigure, hagain] at hstarted
  cases hstarted

end Run

end Servicrab
