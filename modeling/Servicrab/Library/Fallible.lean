import Mathlib.Data.Option.Basic

/-!
# Computations that may fail

Loops whose body may come to nothing, and results that carry an error. A loop that has a result has
it however much the body is extended, so that a loop that is given a bound of some kind, and does not
run into it, can be read as one without.

## Main results

* `Fallible.foldlM_eq_some_of_imp`: a loop keeps its result when its body is extended.
* `Fallible.foldl_eq_of_foldlM`: it is the loop of the body that the result comes from.
-/

namespace Fallible

variable {α β ε : Type*}

theorem eq_ok_of_toOption {result : Except ε α} {a : α} (h : result.toOption = some a) :
    result = .ok a := by
  cases result with
  | error problem => cases h
  | ok b => exact congrArg Except.ok (Option.some.inj h)

/-- A loop that has a result has it with every body that extends its own. -/
theorem foldlM_eq_some_of_imp {f g : β → α → Option β} (h : ∀ b a c, f b a = some c → g b a = some c)
    (l : List α) : ∀ {b c : β}, l.foldlM f b = some c → l.foldlM g b = some c := by
  induction l with
  | nil => exact id
  | cons a l ih =>
    intro b c hfold
    rw [List.foldlM_cons] at hfold ⊢
    obtain ⟨next, hnext, hrest⟩ := Option.bind_eq_some_iff.mp hfold
    exact Option.bind_eq_some_iff.mpr ⟨next, h b a next hnext, ih hrest⟩

/-- A loop that has a result comes to what it comes to without the failures. -/
theorem foldl_eq_of_foldlM {f : β → α → Option β} {g : β → α → β}
    (h : ∀ b a c, f b a = some c → g b a = c) {l : List α} {b c : β}
    (hfold : l.foldlM f b = some c) : l.foldl g b = c := by
  have hpure : l.foldlM (fun b a => pure (g b a)) b = some c :=
    foldlM_eq_some_of_imp (fun b a c hf => congrArg some (h b a c hf)) l hfold
  rw [List.foldlM_pure] at hpure
  exact Option.some.inj hpure

end Fallible
