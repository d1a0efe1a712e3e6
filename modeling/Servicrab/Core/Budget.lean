import Servicrab.Core.Lifecycle
import Mathlib.Data.List.Induction

/-!
# The restart budget over a run

A restart tracker answers one end of a process after another. The ends between two that reach the
stability window are a stretch, which begins with the first of the two. Within a stretch the
restarts are numbered from one on, the budget bounds how many there are, and what is worth a restart
once they are used up makes the service fail. An end for which the user is to blame is answered as
if it were not there.

## Main definitions

* `RestartTracker.answers`, `RestartTracker.after`.
* `RestartTracker.IsStretch`, `RestartTracker.StretchLaw`.

## Main results

* `RestartTracker.Budgeted.concat`: what one more end does to the counter.
* `RestartTracker.restart_budget`: the law of every stretch.
-/

namespace Servicrab

/-- How a process ended, and why its service was being shut down, if it was. -/
abbrev RunEnd := ProcessOutcome × Option ShutdownReason

/-- Whether the user asked for the end. -/
def RunEnd.asked (e : RunEnd) : Bool := e.2.any ShutdownReason.isUserRequested

/-- The number of a restart. -/
def RestartDecision.attempt : RestartDecision → Option ℕ
  | .restart _ attempt => some attempt
  | _ => none

namespace RestartTracker

variable (t : RestartTracker)

/-- What the tracker answers. -/
def answer (e : RunEnd) : RestartDecision := (t.decide e.1 e.2).1

def next (e : RunEnd) : RestartTracker := (t.decide e.1 e.2).2

/-- What the tracker answers to one end after another. -/
def answers (t : RestartTracker) : List RunEnd → List RestartDecision
  | [] => []
  | e :: l => t.answer e :: (t.next e).answers l

def after (l : List RunEnd) : RestartTracker := l.foldl next t

/-- The numbers of the restarts it answers. -/
def attemptNumbers (l : List RunEnd) : List ℕ := (t.answers l).filterMap RestartDecision.attempt

/-- The run reached the stability window. -/
def stable (e : RunEnd) : Bool := !e.asked && t.stableAfter ≤ e.1.uptime

/-- The policy restarts the service after the end. -/
def worthy (e : RunEnd) : Bool := !e.asked && t.shouldRestart e.1.reason

/-- The ends from one that reaches the stability window, or from the start, up to the next that
does. -/
structure IsStretch (before stretch : List RunEnd) : Prop where
  head : before = [] ∨ ∃ e l, stretch = e :: l ∧ t.stable e
  tail : ∀ e ∈ stretch.tail, t.stable e = false

/-- What the tracker answers to the ends of a stretch. -/
structure StretchLaw (before stretch : List RunEnd) : Prop where
  /-- The restarts are numbered from one on. -/
  numbered : (t.after before).attemptNumbers stretch =
    (List.range' 1 ((t.after before).attemptNumbers stretch).length).map (min · u32Max)
  /-- There are no more of them than the budget allows. -/
  bounded : 0 < t.maxRestarts →
    ((t.after before).attemptNumbers stretch).length ≤ t.maxRestarts
  /-- The service fails where a restart is due and the budget is used up. -/
  fail_iff : ∀ pre e post, stretch = pre ++ e :: post →
    ((∃ reason, (t.after (before ++ pre)).answer e = .fail reason) ↔
      t.worthy e ∧ 0 < t.maxRestarts ∧
        ((t.after before).attemptNumbers pre).length = t.maxRestarts)
  /-- It is stopped where no restart is due. -/
  stop_iff : ∀ pre e post, stretch = pre ++ e :: post →
    ((t.after (before ++ pre)).answer e = .stop ↔ t.worthy e = false)

variable {t} {e : RunEnd} {l l' before stretch : List RunEnd}

/-! ### One end -/

/-- An end that the user asked for is answered with a stop, and nothing else happens. -/
theorem decide_of_asked (h : e.asked) : t.answer e = .stop ∧ t.next e = t := by
  have hdecide : t.decide e.1 e.2 = (.stop, t) := if_pos h
  exact ⟨congrArg Prod.fst hdecide, congrArg Prod.snd hdecide⟩

/-- A stable run gives a fresh budget. -/
theorem decide_of_stable (h : t.stable e) :
    t.answer e = { t with attempts := 0 }.answer e ∧ t.next e = { t with attempts := 0 }.next e := by
  obtain ⟨hasked, hstable⟩ : e.2.any ShutdownReason.isUserRequested = false ∧
      t.stableAfter ≤ e.1.uptime := by simpa [stable, RunEnd.asked] using h
  simp [answer, next, decide, hasked, hstable]

/-- Without a reset, or with nothing to reset, the answer depends on the counter and on whether a
restart is due. -/
theorem decide_of_calm (h : t.attempts = 0 ∨ t.stable e = false) :
    t.answer e = (if t.worthy e then
      if t.budgetLeft then .restart (t.backoffForAttempt t.attempts) (min (t.attempts + 1) u32Max)
      else .fail .restartLimit
    else .stop) ∧
    t.next e =
      if t.worthy e ∧ t.budgetLeft then { t with attempts := min (t.attempts + 1) u32Max }
      else t := by
  by_cases hasked : e.asked
  · obtain ⟨hanswer, hnext⟩ := t.decide_of_asked hasked
    simp [hanswer, hnext, worthy, hasked]
  · have hany : ¬ e.2.any ShutdownReason.isUserRequested := hasked
    have hreset : (if t.stableAfter ≤ e.1.uptime then { t with attempts := 0 } else t) = t := by
      rcases h with hzero | hstable
      · split_ifs
        · rw [← hzero]
        · rfl
      · refine if_neg fun hle => ?_
        simp [stable, hasked, hle] at hstable
    have hworthy : t.worthy e = t.shouldRestart e.1.reason := by simp [worthy, hasked]
    rw [hworthy, answer, next, decide, if_neg hany, hreset]
    by_cases hrestart : t.shouldRestart e.1.reason <;> by_cases hbudget : t.budgetLeft <;>
      simp [hrestart, hbudget]

/-- Only the counter changes. -/
theorem next_eq (t : RestartTracker) (e : RunEnd) :
    t.next e = { t with attempts := (t.next e).attempts } := by
  by_cases hstable : t.stable e
  · rw [(decide_of_stable hstable).2, (decide_of_calm (Or.inl rfl)).2]
    split_ifs <;> rfl
  · rw [(decide_of_calm (Or.inr (Bool.not_eq_true _ ▸ hstable))).2]
    split_ifs <;> rfl

/-! ### One end after another -/

theorem answers_append (t : RestartTracker) (l l' : List RunEnd) :
    t.answers (l ++ l') = t.answers l ++ (t.after l).answers l' := by
  induction l generalizing t with
  | nil => rfl
  | cons e l ih => exact congrArg (t.answer e :: ·) (ih (t.next e))

theorem after_append (t : RestartTracker) (l l' : List RunEnd) :
    t.after (l ++ l') = (t.after l).after l' := List.foldl_append

theorem after_concat (t : RestartTracker) (l : List RunEnd) (e : RunEnd) :
    t.after (l ++ [e]) = (t.after l).next e := t.after_append l [e]

theorem attemptNumbers_concat (t : RestartTracker) (l : List RunEnd) (e : RunEnd) :
    t.attemptNumbers (l ++ [e]) =
      t.attemptNumbers l ++ ((t.after l).answer e).attempt.toList := by
  rw [attemptNumbers, answers_append, List.filterMap_append]
  rcases hattempt : ((t.after l).answer e).attempt with _ | attempt <;>
    simp [attemptNumbers, answers, hattempt]

theorem after_eq (t : RestartTracker) (l : List RunEnd) :
    t.after l = { t with attempts := (t.after l).attempts } := by
  induction l using List.reverseRecOn with
  | nil => rfl
  | append_singleton l e ih =>
    rw [after_concat, next_eq, ih]

theorem worthy_after (t : RestartTracker) (l : List RunEnd) (e : RunEnd) :
    (t.after l).worthy e = t.worthy e := by
  rw [after_eq]
  rfl

theorem stable_after (t : RestartTracker) (l : List RunEnd) (e : RunEnd) :
    (t.after l).stable e = t.stable e := by
  rw [after_eq]
  rfl

/-- An end that the user asked for leaves the later answers as if it were not there. -/
theorem answers_of_asked (h : e.asked) :
    t.answers (l ++ e :: l') = t.answers l ++ .stop :: (t.after l).answers l' ∧
      t.answers (l ++ l') = t.answers l ++ (t.after l).answers l' := by
  refine ⟨?_, t.answers_append l l'⟩
  obtain ⟨hanswer, hnext⟩ := (t.after l).decide_of_asked h
  rw [answers_append, answers, hanswer, hnext]

/-! ### A stretch -/

/-- The counter says how many restarts there were in the stretch, and they are numbered and
bounded. -/
structure Budgeted (t : RestartTracker) (l : List RunEnd) : Prop where
  attempts : (t.after l).attempts = min (t.attemptNumbers l).length u32Max
  numbered : t.attemptNumbers l =
    (List.range' 1 (t.attemptNumbers l).length).map (min · u32Max)
  bounded : 0 < t.maxRestarts → (t.attemptNumbers l).length ≤ t.maxRestarts

theorem budgeted_nil (h : t.attempts = 0) : t.Budgeted [] :=
  ⟨by simp [after, attemptNumbers, answers, h], rfl, fun _ => Nat.zero_le _⟩

/-- There is budget left while there were fewer restarts than it allows. -/
theorem Budgeted.budgetLeft_iff (h : t.Budgeted l) (hmax : t.maxRestarts ≤ u32Max) :
    (t.after l).budgetLeft ↔ t.maxRestarts = 0 ∨ (t.attemptNumbers l).length < t.maxRestarts := by
  have hattempts := h.attempts
  rw [after_eq t l]
  simp only [budgetLeft, Bool.or_eq_true, beq_iff_eq, decide_eq_true_eq, hattempts]
  omega

/-- What is answered to one more end. -/
theorem Budgeted.answer (h : t.Budgeted l) (hmax : t.maxRestarts ≤ u32Max)
    (hcalm : (t.after l).attempts = 0 ∨ t.stable e = false) :
    (t.after l).answer e = if t.worthy e then
      if t.maxRestarts = 0 ∨ (t.attemptNumbers l).length < t.maxRestarts then
        .restart ((t.after l).backoffForAttempt (t.after l).attempts)
          (min ((t.attemptNumbers l).length + 1) u32Max)
      else .fail .restartLimit
    else .stop := by
  have hnumber : min ((t.after l).attempts + 1) u32Max =
      min ((t.attemptNumbers l).length + 1) u32Max := by
    rw [h.attempts]
    omega
  rw [(decide_of_calm (by rwa [stable_after])).1, worthy_after, hnumber]
  simp only [h.budgetLeft_iff hmax]

/-- One more end is numbered and counted. -/
theorem Budgeted.concat (h : t.Budgeted l) (hmax : t.maxRestarts ≤ u32Max)
    (hcalm : (t.after l).attempts = 0 ∨ t.stable e = false) : t.Budgeted (l ++ [e]) := by
  have hanswer := h.answer hmax hcalm
  have hnext : (t.after (l ++ [e])).attempts = if t.worthy e ∧ (t.after l).budgetLeft then
      min ((t.after l).attempts + 1) u32Max else (t.after l).attempts := by
    rw [after_concat, (decide_of_calm (by rwa [stable_after])).2, worthy_after]
    split_ifs <;> rfl
  by_cases hdue : t.worthy e ∧
      (t.maxRestarts = 0 ∨ (t.attemptNumbers l).length < t.maxRestarts)
  · -- A restart, with the next number.
    obtain ⟨hworthy, hleft⟩ := hdue
    rw [if_pos hworthy, if_pos hleft] at hanswer
    have hnumbers : t.attemptNumbers (l ++ [e]) =
        t.attemptNumbers l ++ [min ((t.attemptNumbers l).length + 1) u32Max] := by
      rw [attemptNumbers_concat, hanswer]
      rfl
    rw [if_pos ⟨hworthy, (h.budgetLeft_iff hmax).mpr hleft⟩, h.attempts] at hnext
    refine ⟨?_, ?_, fun hpos => ?_⟩
    · rw [hnext, hnumbers, List.length_append, List.length_singleton]
      omega
    · rw [hnumbers, List.length_append, List.length_singleton, List.range'_concat, List.map_append,
        ← h.numbered]
      simp [Nat.add_comm]
    · rw [hnumbers, List.length_append, List.length_singleton]
      omega
  · -- No restart, and no budget is used.
    have hnone : ((t.after l).answer e).attempt = none := by
      rw [hanswer]
      split_ifs with hworthy hleft
      · exact absurd ⟨hworthy, hleft⟩ hdue
      · rfl
      · rfl
    have hnumbers : t.attemptNumbers (l ++ [e]) = t.attemptNumbers l := by
      rw [attemptNumbers_concat, hnone, Option.toList_none, List.append_nil]
    rw [if_neg (fun hc => hdue ⟨hc.1, (h.budgetLeft_iff hmax).mp hc.2⟩)] at hnext
    exact ⟨by rw [hnext, hnumbers, h.attempts], hnumbers ▸ h.numbered, hnumbers ▸ h.bounded⟩

/-- From a fresh budget on, with no reset but at the first end. -/
theorem budgeted (hattempts : t.attempts = 0) (hmax : t.maxRestarts ≤ u32Max)
    (h : ∀ e ∈ l.tail, t.stable e = false) : t.Budgeted l := by
  induction l using List.reverseRecOn with
  | nil => exact budgeted_nil hattempts
  | append_singleton l e ih =>
    by_cases hnil : l = []
    · subst hnil
      exact (budgeted_nil hattempts).concat hmax (Or.inl hattempts)
    · rw [List.tail_append_of_ne_nil hnil] at h
      have hl : t.Budgeted l := ih fun e' he' => h e' (List.mem_append_left _ he')
      exact hl.concat hmax (Or.inr (h e (List.mem_append_right _ List.mem_cons_self)))

/-- A stretch begins with a fresh budget, whatever was used before it. -/
theorem IsStretch.fresh (h : t.IsStretch before stretch) (hattempts : t.attempts = 0)
    (hstretch : stretch = l ++ l') :
    (t.after before).attemptNumbers l = t.attemptNumbers l ∧
      ∀ e ∈ l'.head?, ((t.after before).after l).answer e = (t.after l).answer e := by
  rcases h.head with rfl | ⟨e₀, rest, rfl, hstable⟩
  · exact ⟨rfl, fun e _ => rfl⟩
  · have hreset : { t.after before with attempts := 0 } = t := by
      rw [after_eq, ← hattempts]
    have hfirst := decide_of_stable (t := t.after before) (e := e₀) (by rwa [stable_after])
    rw [hreset] at hfirst
    cases l with
    | nil =>
      obtain rfl : e₀ :: rest = l' := hstretch
      refine ⟨rfl, fun e he => ?_⟩
      obtain rfl : e₀ = e := Option.some.inj he
      exact hfirst.1
    | cons e₁ l =>
      obtain ⟨rfl, rfl⟩ := List.cons.inj hstretch
      refine ⟨?_, fun e _ => ?_⟩
      · rw [attemptNumbers, answers, hfirst.1, hfirst.2]
        rfl
      · rw [after, List.foldl_cons, hfirst.2]
        rfl

/-- The law holds of every stretch, whatever came before it. -/
theorem stretchLaw (hattempts : t.attempts = 0) (hmax : t.maxRestarts ≤ u32Max)
    (h : t.IsStretch before stretch) : t.StretchLaw before stretch := by
  have hwhole := (h.fresh hattempts (List.append_nil stretch).symm).1
  have hbudgeted : t.Budgeted stretch := budgeted hattempts hmax h.tail
  -- What comes before an end of the stretch has a fresh budget as well.
  have hanswer : ∀ pre e post, stretch = pre ++ e :: post →
      t.Budgeted pre ∧ (t.after before).attemptNumbers pre = t.attemptNumbers pre ∧
        (t.after (before ++ pre)).answer e = (t.after pre).answer e ∧
        ((t.after pre).attempts = 0 ∨ t.stable e = false) := by
    intro pre e post hsplit
    obtain ⟨hnumbers, hsame⟩ := h.fresh hattempts hsplit
    have htail := h.tail
    refine ⟨?_, hnumbers, by rw [after_append]; exact hsame e rfl, ?_⟩
    · refine budgeted hattempts hmax fun e' he' => htail e' ?_
      rw [hsplit, List.tail_append_of_ne_nil (List.ne_nil_of_mem (List.mem_of_mem_tail he'))]
      exact List.mem_append_left _ he'
    · rcases eq_or_ne pre [] with rfl | hne
      · exact Or.inl hattempts
      · refine Or.inr (htail e ?_)
        rw [hsplit, List.tail_append_of_ne_nil hne]
        exact List.mem_append_right _ List.mem_cons_self
  refine ⟨hwhole ▸ hbudgeted.numbered, hwhole ▸ hbudgeted.bounded, ?_, ?_⟩
  · intro pre e post hsplit
    obtain ⟨hpre, hnumbers, hsame, hcalm⟩ := hanswer pre e post hsplit
    have hbounded := hpre.bounded
    rw [hsame, hpre.answer hmax hcalm, hnumbers]
    split_ifs with hworthy hleft
    · simp only [exists_false, hworthy, true_and, false_iff]
      omega
    · simp only [RestartDecision.fail.injEq, exists_eq', hworthy, true_and, true_iff]
      omega
    · simp [hworthy]
  · intro pre e post hsplit
    obtain ⟨hpre, hnumbers, hsame, hcalm⟩ := hanswer pre e post hsplit
    rw [hsame, hpre.answer hmax hcalm]
    split_ifs with hworthy hleft <;> simp [hworthy]

/-- **The restart budget.** In every stretch the restarts are numbered from one on and bounded by
the budget, and the service fails exactly where a restart is due after they are used up. An end that
the user asked for is answered with a stop, and the other answers are those without it. -/
theorem restart_budget (hattempts : t.attempts = 0) (hmax : t.maxRestarts ≤ u32Max) :
    (∀ before stretch, t.IsStretch before stretch → t.StretchLaw before stretch) ∧
      ∀ l e l', RunEnd.asked e →
        t.answers (l ++ e :: l') = t.answers l ++ .stop :: (t.after l).answers l' ∧
          t.answers (l ++ l') = t.answers l ++ (t.after l).answers l' :=
  ⟨fun _ _ h => stretchLaw hattempts hmax h, fun _ _ _ h => answers_of_asked h⟩

/-- Two restarts are allowed: a process that keeps crashing is started twice more, a stop that the
user asks for in between changes nothing, and after a stable run the counting begins anew. -/
theorem restart_budget_two : ∃ t : RestartTracker, ∃ crash longRun asked : RunEnd,
    t.answers [crash, asked, crash, crash, longRun] = [.restart 5 1, .stop, .restart 10 2,
      .fail .restartLimit, .restart 5 1] ∧
      t.StretchLaw [] [crash, asked, crash, crash] ∧
        t.StretchLaw [crash, asked, crash, crash] [longRun] := by
  let t : RestartTracker :=
    { policy := .onFailure, restartDelay := 5, restartMaxDelay := 60, maxRestarts := 2
      stableAfter := 100, attempts := 0 }
  let crash : RunEnd := (⟨.code 1, 7⟩, none)
  let longRun : RunEnd := (⟨.signal 9, 100⟩, none)
  let asked : RunEnd := (⟨.signal 15, 200⟩, some .requested)
  have hlaw := (restart_budget (t := t) rfl (by decide)).1
  exact ⟨t, crash, longRun, asked, by decide, hlaw _ _ ⟨Or.inl rfl, by decide⟩,
    hlaw _ _ ⟨Or.inr ⟨longRun, [], rfl, by decide⟩, by decide⟩⟩

end RestartTracker

end Servicrab
