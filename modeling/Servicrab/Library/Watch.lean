import Mathlib.Data.Nat.Notation
import Mathlib.Data.Option.Basic

/-!
# Watch channels

A watch channel keeps the last value that was sent, and counts the sends. Nothing is kept of a value
that is sent while nobody receives. A receiver remembers the count it has seen and can wait until
there is another one.

A waiter looks at the value, and waits and looks again until it finds what it wants there.

## Main definitions

* `Watch`, `Watch.send`, `Watch.subscribe`, `Watch.unsubscribe`.
* `Watch.Waiter`, `Watch.Waiter.look`, `Watch.Waiter.wake`.

## Main results

* `Watch.Waiter.Awake`: a waiter has missed nothing, which it and the senders keep.
* `Watch.Waiter.Awake.eq_of_stuck`: a waiter that cannot go on has what it wants, or it is not there.
-/

variable {α β : Type*}

/-- A watch channel: its value, how many were sent, and how many receivers there are. -/
structure Watch (α : Type*) where
  value : α
  version : ℕ
  receivers : ℕ

namespace Watch

/-- A channel with one receiver. -/
def new (value : α) : Watch α := ⟨value, 0, 1⟩

/-- Send a value. It fails when nobody receives. -/
def send (channel : Watch α) (value : α) : Option (Watch α) :=
  if channel.receivers = 0 then none
  else some { channel with value := value, version := channel.version + 1 }

def subscribe (channel : Watch α) : Watch α := { channel with receivers := channel.receivers + 1 }

/-- A receiver is dropped. -/
def unsubscribe (channel : Watch α) : Watch α := { channel with receivers := channel.receivers - 1 }

/-- Where a loop is that waits for a value. -/
inductive Waiter (β : Type*)
  | looking
  /-- It waits for the count to change from what it has seen. -/
  | waiting (seen : ℕ)
  | got (found : β)

namespace Waiter

variable (want : α → Option β)

/-- Look at the value, and mark it as seen. -/
def look (channel : Watch α) : Waiter β → Option (Waiter β)
  | looking => some ((want channel.value).elim (waiting channel.version) got)
  | _ => none

/-- The count has changed. -/
def wake (channel : Watch α) : Waiter β → Option (Waiter β)
  | waiting seen => if seen = channel.version then none else some looking
  | _ => none

/-- A waiter that waits for the count that there is has not found what it wants. -/
def Awake (channel : Watch α) : Waiter β → Prop
  | waiting seen => seen ≤ channel.version ∧ (seen = channel.version → want channel.value = none)
  | _ => True

variable {want} {channel channel' : Watch α} {waiter waiter' : Waiter β}

theorem Awake.send (h : waiter.Awake want channel) {value : α}
    (hsend : channel.send value = some channel') : waiter.Awake want channel' := by
  rw [Watch.send] at hsend
  split at hsend <;> cases hsend
  cases waiter with
  | waiting seen =>
    have hle : seen ≤ channel.version := h.1
    exact ⟨Nat.le_succ_of_le hle, fun heq => absurd hle (heq ▸ Nat.not_succ_le_self _)⟩
  | _ => trivial

theorem awake_look (h : waiter.look want channel = some waiter') : waiter'.Awake want channel := by
  cases waiter with
  | looking =>
    obtain rfl := Option.some.inj h
    cases hwant : want channel.value with
    | none => exact ⟨Nat.le_refl _, fun _ => hwant⟩
    | some found => trivial
  | _ => cases h

/-- **No wake-up is lost.** -/
theorem Awake.eq_of_stuck (h : waiter.Awake want channel) (hlook : waiter.look want channel = none)
    (hwake : waiter.wake channel = none) :
    (∃ found, waiter = got found) ∨ want channel.value = none := by
  cases waiter with
  | looking => cases hlook
  | waiting seen =>
    refine Or.inr (h.2 ?_)
    by_contra hne
    rw [wake, if_neg hne] at hwake
    cases hwake
  | got found => exact Or.inl ⟨found, rfl⟩

end Waiter

end Watch
