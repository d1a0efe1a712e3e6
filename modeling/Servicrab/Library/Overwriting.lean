import Mathlib.Data.List.Basic

/-!
# Events that overwrite

A state is folded over events. When an event sets what it sets whatever was there before, what it
did earlier is not seen once it happens again. Then a stretch of events can be folded a second time,
and nothing is changed by it.

## Main results

* `Overwriting.foldl_absorb`: events that all happen again need not have happened before.
-/

variable {σ ε : Type*}

/-- What an event did before is not seen once it happens again. -/
structure Overwriting (f : σ → ε → σ) : Prop where
  again : ∀ s a, f (f s a) a = f s a
  between : ∀ s a b, f (f (f s a) b) a = f (f s b) a

namespace Overwriting

variable {f : σ → ε → σ}

/-- The same when any events come between. -/
theorem foldl_between (h : Overwriting f) (a : ε) (events : List ε) : ∀ s : σ,
    f (events.foldl f (f s a)) a = f (events.foldl f s) a := by
  induction events with
  | nil => exact fun s => h.again s a
  | cons b events ih =>
    intro s
    calc f (events.foldl f (f (f s a) b)) a
        = f (events.foldl f (f (f (f s a) b) a)) a := (ih _).symm
      _ = f (events.foldl f (f (f s b) a)) a := by rw [h.between]
      _ = f (events.foldl f (f s b)) a := ih _

/-- **Events are absorbed by their repetition.** Events that all happen again need not have happened
before, in whichever order they do. -/
theorem foldl_absorb (h : Overwriting f) {events later : List ε} : ∀ {s : σ},
    (∀ a ∈ events, a ∈ later) → later.foldl f (events.foldl f s) = later.foldl f s := by
  induction events with
  | nil => exact fun _ => rfl
  | cons a events ih =>
    intro s hmem
    obtain ⟨before, after, rfl⟩ := List.append_of_mem (hmem a List.mem_cons_self)
    rw [List.foldl_cons, ih fun b hb => hmem b (List.mem_cons_of_mem a hb)]
    simp only [List.foldl_append, List.foldl_cons, h.foldl_between]

end Overwriting
