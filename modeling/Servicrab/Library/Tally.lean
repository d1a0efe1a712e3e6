import Mathlib.Algebra.BigOperators.Group.Finset.Piecewise
import Mathlib.Algebra.BigOperators.Group.List.Basic
import Mathlib.Algebra.GroupWithZero.Nat

/-!
# Tallies of lists

The total weight of the elements of a list, for weights in the natural numbers, and what becomes of
it when one element is replaced.

## Main definitions

* `tally`.

## Main results

* `tally_set`: one element is replaced.
* `tally_eq_sum_range`, `sum_tally_filter`: by positions, and by the values of a key.
-/

variable {α : Type*}

/-- The total weight of the elements of a list. -/
def tally (f : α → ℕ) (l : List α) : ℕ := (l.map f).sum

variable {f g : α → ℕ} {l : List α}

@[simp] theorem tally_nil : tally f [] = 0 := rfl

@[simp] theorem tally_cons (a : α) (l : List α) : tally f (a :: l) = f a + tally f l := by
  simp [tally]

@[simp] theorem tally_append (l l' : List α) : tally f (l ++ l') = tally f l + tally f l' := by
  simp [tally]

/-- The weight of one element is set apart. -/
theorem tally_eq_add {i : ℕ} {a : α} (h : l[i]? = some a) :
    tally f l = f a + tally f (l.eraseIdx i) := by
  induction l generalizing i with
  | nil => simp at h
  | cons c l ih =>
    cases i with
    | zero =>
      obtain rfl : c = a := by simpa using h
      simp
    | succ i =>
      have hrest := ih (i := i) (by simpa using h)
      simp only [tally_cons, List.eraseIdx_cons_succ]
      omega

/-- One element is replaced. -/
theorem tally_set {i : ℕ} {a : α} (h : l[i]? = some a) (b : α) :
    tally f (l.set i b) = f b + tally f (l.eraseIdx i) := by
  obtain ⟨hi, -⟩ := List.getElem?_eq_some_iff.mp h
  have hb : (l.set i b)[i]? = some b := List.getElem?_set_self hi
  rw [tally_eq_add hb, List.eraseIdx_set_eq]

theorem tally_congr (h : ∀ a ∈ l, f a = g a) : tally f l = tally g l :=
  congrArg List.sum (List.map_congr_left h)

theorem tally_eq_zero (h : ∀ a ∈ l, f a = 0) : tally f l = 0 := by
  rw [tally_congr (g := fun _ => 0) h]
  simp [tally]

/-- With every weight one, the tally is the length. -/
theorem tally_one (l : List α) : tally (fun _ => 1) l = l.length := by
  simp [tally]

theorem tally_perm {l' : List α} (h : l.Perm l') : tally f l = tally f l' :=
  (h.map f).sum_eq

theorem tally_map {β : Type*} (k : β → α) (l : List β) : tally f (l.map k) = tally (f ∘ k) l := by
  simp [tally]

/-- With the weights of a predicate, the tally is the number of elements that have it. -/
theorem tally_ite (p : α → Prop) [DecidablePred p] (l : List α) :
    tally (fun a => if p a then 1 else 0) l = l.countP (p ·) := by
  induction l with
  | nil => rfl
  | cons a l ih =>
    rw [tally_cons, ih, List.countP_cons]
    split_ifs <;> simp_all [Nat.add_comm]

/-- A tally, position by position. -/
theorem tally_eq_sum_range (l : List α) :
    tally f l = ∑ i ∈ Finset.range l.length, (l[i]?.elim 0 f) := by
  induction l with
  | nil => rfl
  | cons a l ih =>
    rw [List.length_cons, Finset.sum_range_succ', tally_cons, ih, Nat.add_comm]
    rfl

/-- A tally, by the values of a key. -/
theorem sum_tally_filter {key : α → ℕ} {n : ℕ} (h : ∀ a ∈ l, key a < n) :
    ∑ i ∈ Finset.range n, tally f (l.filter (key · = i)) = tally f l := by
  induction l with
  | nil => simp
  | cons a l ih =>
    have hcons (i : ℕ) : tally f ((a :: l).filter (key · = i)) =
        (if key a = i then f a else 0) + tally f (l.filter (key · = i)) := by
      by_cases hi : key a = i <;> simp [hi]
    rw [Finset.sum_congr rfl fun i _ => hcons i, Finset.sum_add_distrib,
      ih fun b hb => h b (List.mem_cons_of_mem a hb), Finset.sum_ite_eq, tally_cons,
      if_pos (Finset.mem_range.mpr (h a List.mem_cons_self))]
