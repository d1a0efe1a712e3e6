import Mathlib.Algebra.GroupWithZero.Nat
import Mathlib.Data.List.Basic
import Mathlib.Data.List.Infix

/-!
# Bounded broadcast channels

A broadcast channel hands every value to every receiver, but keeps only the last few: its capacity
is the number of values it retains. A receiver is a position in the sequence of all values. When the
value there is gone, the receiver is told how many it has missed, and goes on with the oldest one
that is retained.

## Main definitions

* `Broadcast`, `Broadcast.send`, `Broadcast.recv`.
* `Broadcast.Holds`: which part of all values is retained.
* `Broadcast.Accounts`: what a receiver was given accounts for a list of values.

## Main results

* `Broadcast.Holds.recv_cases`: what a receiver is given, in terms of all values.
* `Broadcast.Accounts.span_sum`, `Broadcast.Accounts.values_eq`: what it means to account for a list
  of values.
* `Broadcast.GapsBehind.concat`: gaps are only announced to a receiver that is behind.
-/

variable {α β : Type*}

/-- A broadcast channel: the position of the next value, and the values before it that are
retained, the oldest first. -/
structure Broadcast (α : Type*) where
  tail : ℕ
  retained : List α

/-- What a receiver is given. -/
inductive Broadcast.Receipt (α : Type*)
  | value (value : α)
  /-- So many values were missed. -/
  | lagged (missed : ℕ)
  deriving DecidableEq

namespace Broadcast

def new : Broadcast α := ⟨0, []⟩

/-- Send a value; the oldest one is let go of when there are too many. -/
def send (capacity : ℕ) (channel : Broadcast α) (value : α) : Broadcast α where
  tail := channel.tail + 1
  retained := (channel.retained ++ [value]).drop (channel.retained.length + 1 - capacity)

/-- The position of the oldest value that is retained. -/
def oldest (channel : Broadcast α) : ℕ := channel.tail - channel.retained.length

/-- What the receiver at a position is given, and where it goes on. There is nothing for it when it
is at the end. -/
def recv (channel : Broadcast α) (next : ℕ) : Option (Receipt α × ℕ) :=
  if next < channel.oldest then some (.lagged (channel.oldest - next), channel.oldest)
  else channel.retained[next - channel.oldest]?.map fun value => (.value value, next + 1)

/-! ### The channel and all its values -/

/-- These are all values that were sent. -/
structure Holds (capacity : ℕ) (channel : Broadcast α) (all : List α) : Prop where
  tail : channel.tail = all.length
  retained : channel.retained = all.drop (all.length - capacity)

variable {capacity : ℕ} {channel : Broadcast α} {all : List α}

theorem holds_new (capacity : ℕ) : Holds capacity (new : Broadcast α) [] :=
  ⟨rfl, List.drop_nil.symm⟩

theorem Holds.length_retained (h : Holds capacity channel all) :
    channel.retained.length = min all.length capacity := by
  rw [h.retained, List.length_drop]
  omega

theorem Holds.oldest_eq (h : Holds capacity channel all) :
    channel.oldest = all.length - capacity := by
  rw [oldest, h.length_retained, h.tail]
  omega

theorem Holds.send (h : Holds capacity channel all) (value : α) :
    Holds capacity (channel.send capacity value) (all ++ [value]) := by
  refine ⟨by simp [Broadcast.send, h.tail], ?_⟩
  rw [Broadcast.send, h.length_retained, h.retained, List.length_append, List.length_singleton]
  rcases Nat.lt_or_ge all.length capacity with hlt | hle
  · rw [Nat.sub_eq_zero_of_le hlt.le, List.drop_zero, Nat.sub_eq_zero_of_le (by omega),
      Nat.sub_eq_zero_of_le (by omega)]
  · rw [← List.drop_append_of_le_length (Nat.sub_le _ _), List.drop_drop]
    exact congrArg (List.drop · _) (by omega)

/-- What a receiver is given is the next value, unless that is gone: then it is told how many values
there are up to the oldest one that is retained. -/
theorem Holds.recv_cases (h : Holds capacity channel all) {next next' : ℕ} {receipt : Receipt α}
    (hrecv : channel.recv next = some (receipt, next')) :
    (∃ missed, receipt = .lagged missed ∧ next' = next + missed ∧ 0 < missed ∧
      next' + capacity = all.length) ∨
    ∃ value, receipt = .value value ∧ next' = next + 1 ∧ all[next]? = some value ∧
      all.length ≤ next + capacity := by
  rw [recv, h.oldest_eq] at hrecv
  split_ifs at hrecv with hnext
  · obtain ⟨rfl, rfl⟩ := Prod.ext_iff.mp (Option.some.inj hrecv)
    exact .inl ⟨_, rfl, by dsimp only; omega, by omega, by dsimp only; omega⟩
  · obtain ⟨value, hvalue, heq⟩ := Option.map_eq_some_iff.mp hrecv
    obtain ⟨rfl, rfl⟩ := Prod.ext_iff.mp heq
    rw [h.retained, List.getElem?_drop] at hvalue
    have hindex : all.length - capacity + (next - (all.length - capacity)) = next := by omega
    rw [hindex] at hvalue
    exact .inr ⟨value, rfl, rfl, hvalue, by omega⟩

/-! ### What a receiver was given -/

/-- How many values a receipt stands for. -/
def Receipt.span : Receipt α → ℕ
  | .value _ => 1
  | .lagged missed => missed

/-- The receipts stand for the values of a list, in their order: each of them was given, or lies in a
stretch of which it was told how long it is. -/
inductive Accounts : List α → List (Receipt α) → Prop
  | nil : Accounts [] []
  | value {values : List α} {receipts : List (Receipt α)} (h : Accounts values receipts)
      (value : α) : Accounts (values ++ [value]) (receipts ++ [.value value])
  | lagged {values : List α} {receipts : List (Receipt α)} (h : Accounts values receipts)
      {missed : List α} (hne : missed ≠ []) :
      Accounts (values ++ missed) (receipts ++ [.lagged missed.length])

variable {values : List α} {receipts : List (Receipt α)}

/-- No value is left out, and none is counted twice. -/
theorem Accounts.span_sum (h : Accounts values receipts) :
    (receipts.map Receipt.span).sum = values.length := by
  induction h with
  | nil => rfl
  | value _ value ih => simp [ih, Receipt.span]
  | lagged _ hne ih => simp [ih, Receipt.span]

/-- Without a gap, all values were given. -/
theorem Accounts.values_eq (h : Accounts values receipts)
    (hgap : ∀ missed, Receipt.lagged missed ∉ receipts) : receipts = values.map .value := by
  induction h with
  | nil => rfl
  | value _ value ih =>
    rw [ih fun missed hmem => hgap missed (List.mem_append_left _ hmem), List.map_append]
    rfl
  | lagged _ hne ih => exact absurd (List.mem_append_right _ (List.mem_singleton_self _)) (hgap _)

/-- A gap was only announced while more values were to come than the channel retains, when so many
values have been sent to the receiver by now. -/
def GapsBehind (capacity count : ℕ) (receipts : List (Receipt α)) : Prop :=
  ∀ before missed after, receipts = before ++ .lagged missed :: after →
    0 < missed ∧ (before.map Receipt.span).sum + missed + capacity ≤ count

theorem gapsBehind_nil {count : ℕ} : GapsBehind capacity count ([] : List (Receipt α)) :=
  fun before _ _ h => absurd (congrArg List.length h) (by simp)

theorem GapsBehind.mono {count count' : ℕ} (h : GapsBehind capacity count receipts)
    (hle : count ≤ count') : GapsBehind capacity count' receipts := by
  intro before missed after heq
  obtain ⟨hpos, hbehind⟩ := h before missed after heq
  exact ⟨hpos, hbehind.trans hle⟩

/-- One more receipt is fine when it is no gap, or announced behind enough values. -/
theorem GapsBehind.concat {count : ℕ} (h : GapsBehind capacity count receipts) {receipt : Receipt α}
    (hlast : ∀ missed, receipt = .lagged missed →
      0 < missed ∧ (receipts.map Receipt.span).sum + missed + capacity ≤ count) :
    GapsBehind capacity count (receipts ++ [receipt]) := by
  intro before missed after heq
  rcases List.eq_nil_or_concat after with rfl | ⟨after, last, rfl⟩
  · obtain ⟨rfl, hreceipt⟩ := List.append_inj' heq rfl
    exact hlast missed (List.singleton_inj.mp hreceipt)
  · have hsplit : receipts ++ [receipt] = (before ++ .lagged missed :: after) ++ [last] := by
      rw [heq]
      simp
    exact h before missed after (List.append_inj' hsplit rfl).1

end Broadcast
