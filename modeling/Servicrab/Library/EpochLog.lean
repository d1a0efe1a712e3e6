import Mathlib.Data.List.Induction
import Mathlib.Data.Nat.Basic
import Mathlib.Order.Basic

/-!
# Logs of events tagged with epochs

A log of events in which some events open an epoch. Each event carries the epoch that caused it;
an event that arrives after a later epoch was opened is stale. A log is *fresh* for a class of
events when none of them is stale, and *rising* when every epoch it opens is at least the one in
force.

Under freshness, a flag that is lowered whenever an epoch opens, and raised by events of the class
only, is owed to an event of the epoch in force.

## Main definitions

* `EpochLog.current`, `EpochLog.Fresh`, `EpochLog.Rising`.

## Main results

* `EpochLog.fresh_concat`, `EpochLog.rising_concat`: one more event.
* `EpochLog.Fresh.exists_of_flag`: what raised a flag.
* `EpochLog.Rising.not_stale`: a fresh event comes after no opening of a later epoch.
-/

namespace EpochLog

variable {ε σ : Type*} (opens bound : ε → Prop) [DecidablePred opens]

/-- The epoch in force after a log. -/
def current (log : List (ℕ × ε)) : ℕ :=
  log.foldl (fun epoch event => if opens event.2 then event.1 else epoch) 0

/-- Every event of the class was caused by the epoch in force when it arrived. -/
def Fresh (log : List (ℕ × ε)) : Prop :=
  ∀ pre event post, log = pre ++ event :: post → bound event.2 → event.1 = current opens pre

/-- Every epoch that is opened is at least the one in force. -/
def Rising (log : List (ℕ × ε)) : Prop :=
  ∀ pre event post, log = pre ++ event :: post → opens event.2 → current opens pre ≤ event.1

variable {opens bound} {log log' : List (ℕ × ε)} {event : ℕ × ε}

@[simp] theorem current_nil : current opens ([] : List (ℕ × ε)) = 0 := rfl

theorem current_concat (log : List (ℕ × ε)) (event : ℕ × ε) :
    current opens (log ++ [event]) = if opens event.2 then event.1 else current opens log := by
  simp [current]

theorem current_concat_of_not (h : ¬ opens event.2) :
    current opens (log ++ [event]) = current opens log := by
  rw [current_concat, if_neg h]

/-- A split of a longer log is a split of the log, or is at its last event. -/
private theorem split_concat {pre post : List (ℕ × ε)} {event' : ℕ × ε}
    (h : log ++ [event] = pre ++ event' :: post) :
    (∃ post', log = pre ++ event' :: post') ∨ pre = log ∧ event' = event := by
  rcases List.eq_nil_or_concat post with rfl | ⟨post', last, rfl⟩
  · right
    obtain ⟨hpre, hlast⟩ := List.append_inj' h rfl
    exact ⟨hpre.symm, (List.cons.inj hlast).1.symm⟩
  · left
    rw [List.concat_eq_append, ← List.cons_append, ← List.append_assoc] at h
    exact ⟨post', (List.append_inj' h rfl).1⟩

theorem fresh_nil : Fresh opens bound ([] : List (ℕ × ε)) := by
  intro pre event post h
  simp at h

theorem rising_nil : Rising opens ([] : List (ℕ × ε)) := by
  intro pre event post h
  simp at h

theorem Fresh.of_append (h : Fresh opens bound (log ++ log')) : Fresh opens bound log := by
  intro pre event post hsplit
  exact h pre event (post ++ log') (by rw [hsplit, List.append_assoc, List.cons_append])

theorem Rising.of_append (h : Rising opens (log ++ log')) : Rising opens log := by
  intro pre event post hsplit
  exact h pre event (post ++ log') (by rw [hsplit, List.append_assoc, List.cons_append])

/-- What holds of all splits of a longer log holds of those of the log, and of its last event. -/
private theorem forall_split_concat {P : List (ℕ × ε) → ℕ × ε → Prop} :
    (∀ pre event' post, log ++ [event] = pre ++ event' :: post → P pre event') ↔
      (∀ pre event' post, log = pre ++ event' :: post → P pre event') ∧ P log event := by
  constructor
  · intro h
    refine ⟨fun pre event' post hsplit => h pre event' (post ++ [event]) ?_, h log event [] rfl⟩
    rw [hsplit, List.append_assoc, List.cons_append]
  · rintro ⟨h, hlast⟩ pre event' post hsplit
    rcases split_concat hsplit with ⟨post', hlog⟩ | ⟨rfl, rfl⟩
    · exact h pre event' post' hlog
    · exact hlast

theorem fresh_concat :
    Fresh opens bound (log ++ [event]) ↔
      Fresh opens bound log ∧ (bound event.2 → event.1 = current opens log) :=
  forall_split_concat

theorem rising_concat :
    Rising opens (log ++ [event]) ↔
      Rising opens log ∧ (opens event.2 → current opens log ≤ event.1) :=
  forall_split_concat

/-- The epoch in force never falls. -/
theorem Rising.current_le (h : Rising opens (log ++ log')) :
    current opens log ≤ current opens (log ++ log') := by
  induction log' using List.reverseRecOn with
  | nil => simp
  | append_singleton log' event ih =>
    rw [← List.append_assoc] at h ⊢
    obtain ⟨hrest, hlast⟩ := rising_concat.mp h
    refine (ih hrest).trans ?_
    rw [current_concat]
    split_ifs with hopens
    · exact hlast hopens
    · exact le_rfl

/-- In a fresh log, no event of the class comes after the opening of a later epoch. -/
theorem Rising.not_stale (h : Rising opens log) (hfresh : Fresh opens bound log)
    {pre mid post : List (ℕ × ε)} {opening : ℕ × ε} (hopening : opens opening.2)
    (hbound : bound event.2) (hsplit : log = pre ++ opening :: mid ++ event :: post) :
    opening.1 ≤ event.1 := by
  have hcurrent : current opens (pre ++ [opening]) = opening.1 := by
    rw [current_concat, if_pos hopening]
  have hmid : pre ++ opening :: mid = pre ++ [opening] ++ mid := by simp
  rw [hfresh _ event post hsplit hbound, ← hcurrent, hmid]
  refine Rising.current_le ?_
  rw [← hmid]
  exact Rising.of_append (hsplit ▸ h)

/-- A flag that an opening lowers, and that events of the class alone raise, is owed to one of the
epoch in force. -/
theorem Fresh.exists_of_flag {step : σ → ε → σ} (flag : σ → Prop) (raises : ε → Prop)
    (hbound : ∀ e, raises e → bound e) (hopens : ∀ s e, opens e → ¬ flag (step s e))
    (hkeeps : ∀ s e, ¬ raises e → flag (step s e) → flag s) {start : σ} (hstart : ¬ flag start)
    (h : Fresh opens bound log) (hflag : flag ((log.map Prod.snd).foldl step start)) :
    ∃ event ∈ log, raises event.2 ∧ event.1 = current opens log := by
  induction log using List.reverseRecOn with
  | nil => exact absurd hflag hstart
  | append_singleton log last ih =>
    obtain ⟨hfresh, hlast⟩ := fresh_concat.mp h
    rw [List.map_append, List.foldl_append] at hflag
    have hnot : ¬ opens last.2 := fun hop => hopens _ _ hop hflag
    rw [current_concat_of_not hnot]
    by_cases hraise : raises last.2
    · exact ⟨last, by simp, hraise, hlast (hbound _ hraise)⟩
    · obtain ⟨event, hmem, hrest⟩ := ih hfresh (hkeeps _ _ hraise hflag)
      exact ⟨event, List.mem_append_left _ hmem, hrest⟩

end EpochLog
