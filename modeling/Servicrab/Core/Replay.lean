import Servicrab.Core.Status
import Servicrab.Library.Overwriting

/-!
# Folding events again

Every event sets what it sets in the entry of its service, and never counts on what was there before.
So the registry does not change when a stretch of events is folded a second time.

## Main results

* `StatusRegistry.applyAll_absorb`: events that are all folded again need not have been folded before.
-/

namespace Servicrab

/-! ### One entry -/

namespace StatusEntry

/-- What an event makes of the health. -/
def healthAfter (health : Health) : EventKind → Health
  | .state .starting => if health = .none then .none else .starting
  | .healthy => .healthy
  | .unhealthy _ => .unhealthy
  | _ => health

/-- What an event sets the message to, if it does. -/
def newMessage (kind : EventKind) : Option (Option String) :=
  match kind with
  | .state .starting => some none
  | .skipped _ | .unhealthy _ | .healthProbeFailed .. | .failed _ | .finished _ | .watchTriggered .. |
    .watchFailed _ | .watchTruncated _ | .logLinesDropped _ =>
    some ((new false).apply 0 kind).message
  | _ => none

/-- What an event sets the process to, if it does. -/
def newProcess (now : Instant) (kind : EventKind) : Option (Option ℤ × Option Instant) :=
  match kind with
  | .state state => if state = .running then none else some (none, none)
  | .started pgid => some (some pgid, some now)
  | _ => none

def newState (kind : EventKind) : Option ServiceState :=
  match kind with
  | .state state => some state
  | _ => none

def newRestarts (kind : EventKind) : Option ℕ :=
  match kind with
  | .backoff _ attempt => some attempt
  | _ => none

/-- An event sets some of the fields. -/
theorem apply_eq (entry : StatusEntry) (now : Instant) (kind : EventKind) :
    entry.apply now kind =
      { state := (newState kind).getD entry.state
        pid := ((newProcess now kind).getD (entry.pid, entry.startedAt)).1
        startedAt := ((newProcess now kind).getD (entry.pid, entry.startedAt)).2
        restarts := (newRestarts kind).getD entry.restarts
        health := healthAfter entry.health kind
        message := (newMessage kind).getD entry.message } := by
  obtain ⟨state, pid, startedAt, restarts, health, message⟩ := entry
  cases kind with
  | state next => cases next <;> rfl
  | _ => rfl

theorem healthAfter_again (health : Health) (kind : EventKind) :
    healthAfter (healthAfter health kind) kind = healthAfter health kind := by
  cases kind with
  | state next => cases next <;> cases health <;> rfl
  | _ => rfl

theorem healthAfter_between (health : Health) (kind other : EventKind) :
    healthAfter (healthAfter (healthAfter health kind) other) kind =
      healthAfter (healthAfter health other) kind := by
  cases kind with
  | state next =>
    cases next with
    | starting =>
      -- Whether there is a health check is not changed by a start.
      cases other with
      | state next' => cases next' <;> cases health <;> rfl
      | _ => cases health <;> rfl
    | _ => rfl
  | _ => rfl

theorem getD_again {α : Type} (value : Option α) (a : α) :
    value.getD (value.getD a) = value.getD a := by
  cases value <;> rfl

theorem getD_between {α : Type} (value other : Option α) (a : α) :
    value.getD (other.getD (value.getD a)) = value.getD (other.getD a) := by
  cases value <;> cases other <;> rfl

theorem overwriting_apply :
    Overwriting fun (entry : StatusEntry) (event : Instant × EventKind) =>
      entry.apply event.1 event.2 where
  again entry event := by
    simp only [apply_eq, healthAfter_again, getD_again, Prod.mk.eta]
  between entry event other := by
    simp only [apply_eq, healthAfter_between, getD_between, Prod.mk.eta]

end StatusEntry

/-! ### The registry -/

namespace StatusRegistry

variable {registry : StatusRegistry}

theorem overwriting_apply :
    Overwriting fun (registry : StatusRegistry) (event : Instant × ServiceEvent) =>
      registry.apply event.1 event.2 where
  again registry event := by
    refine StatusRegistry.ext (Std.ExtTreeMap.ext_getElem? fun name => ?_) (by simp)
    simp only [getElem?_apply]
    split_ifs
    · rw [Option.map_map]
      exact congrArg (fun f => Option.map f _) (funext fun entry =>
        StatusEntry.overwriting_apply.again entry (event.1, event.2.kind))
    · rfl
  between registry event other := by
    refine StatusRegistry.ext (Std.ExtTreeMap.ext_getElem? fun name => ?_) (by simp)
    simp only [getElem?_apply]
    split_ifs
    · simp only [Option.map_map]
      exact congrArg (fun f => Option.map f _) (funext fun entry =>
        StatusEntry.overwriting_apply.between entry (event.1, event.2.kind) (other.1, other.2.kind))
    · rw [Option.map_map]
      exact congrArg (fun f => Option.map f _) (funext fun entry =>
        StatusEntry.overwriting_apply.again entry (event.1, event.2.kind))
    · rfl
    · rfl

/-- **Events may be folded again.** Events that are all folded once more need not have been folded
before, in whichever order they are. -/
theorem applyAll_absorb {events later : List (Instant × ServiceEvent)}
    (h : ∀ event ∈ events, event ∈ later) :
    (registry.applyAll events).applyAll later = registry.applyAll later :=
  overwriting_apply.foldl_absorb h

/-- The last events may be folded a second time. -/
theorem applyAll_again (before events : List (Instant × ServiceEvent)) :
    (registry.applyAll (before ++ events)).applyAll events =
      registry.applyAll (before ++ events) := by
  rw [applyAll_append]
  exact applyAll_absorb fun _ hevent => hevent

end StatusRegistry

end Servicrab
