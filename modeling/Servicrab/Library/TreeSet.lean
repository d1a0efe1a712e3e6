import Mathlib.Data.List.Sort
import Mathlib.Order.Compare
import Std.Data.ExtTreeSet

/-!
# Ordered sets over a linear order

An `ExtTreeSet` over a linear order as the ascending list of its elements, and its smallest
elements.

## Main definitions

* `TreeSet.popLast`, `TreeSet.smallest`.

## Main results

* `TreeSet.toList_popLast`: the greatest element is the last of the list.
* `TreeSet.smallest_eq_self`: a set that is small enough is kept whole.
-/

open Std (ExtTreeSet)

namespace TreeSet

variable {κ : Type*} [LinearOrder κ] {s : ExtTreeSet κ} {l : List κ} {n : ℕ}

/-- The set without its greatest element. -/
def popLast (s : ExtTreeSet κ) : ExtTreeSet κ :=
  match s.max? with
  | some last => s.erase last
  | none => s

/-- The smallest elements, as many as there may be. -/
def smallest (n : ℕ) (s : ExtTreeSet κ) : ExtTreeSet κ := .ofList (s.toList.take n)

/-- The elements are listed in ascending order. -/
theorem sortedLT_toList (s : ExtTreeSet κ) : s.toList.SortedLT := by
  have h := ExtTreeSet.ordered_toList (t := s)
  simp only [compare_lt_iff_lt] at h
  exact h.sortedLT

/-- A set is the list it was made of, when that is ascending. -/
theorem toList_ofList (h : l.SortedLT) : (ExtTreeSet.ofList l).toList = l := by
  refine (sortedLT_toList _).eq_of_mem_iff h fun a => ?_
  rw [ExtTreeSet.mem_toList, ExtTreeSet.mem_ofList, List.contains_iff_mem]

theorem ofList_toList (s : ExtTreeSet κ) : ExtTreeSet.ofList s.toList = s :=
  ExtTreeSet.toList_inj.mp (toList_ofList (sortedLT_toList s))

theorem toList_smallest (n : ℕ) (s : ExtTreeSet κ) : (smallest n s).toList = s.toList.take n :=
  toList_ofList ((sortedLT_toList s).pairwise.sublist (List.take_sublist n _)).sortedLT

/-- A set that is small enough is kept whole. -/
theorem smallest_eq_self (h : s.size ≤ n) : smallest n s = s := by
  rw [← ExtTreeSet.toList_inj, toList_smallest, List.take_of_length_le]
  rwa [ExtTreeSet.length_toList]

/-- The greatest element is the last of the list. -/
theorem toList_popLast (s : ExtTreeSet κ) : (popLast s).toList = s.toList.dropLast := by
  rw [popLast, ExtTreeSet.max?_eq_getLast?_toList]
  rcases hlast : s.toList.getLast? with _ | last
  · rw [List.getLast?_eq_none_iff.mp hlast]
    rfl
  · obtain ⟨init, hinit⟩ := List.getLast?_eq_some_iff.mp hlast
    have hsorted := (sortedLT_toList s).pairwise
    rw [hinit] at hsorted
    obtain ⟨hsorted, -, hlt⟩ := List.pairwise_append.mp hsorted
    rw [hinit, List.dropLast_concat]
    refine (sortedLT_toList _).eq_of_mem_iff hsorted.sortedLT fun a => ?_
    rw [ExtTreeSet.mem_toList, ExtTreeSet.mem_erase, ← ExtTreeSet.mem_toList, hinit,
      List.mem_append, List.mem_singleton, Ne, compare_eq_iff_eq]
    constructor
    · rintro ⟨hne, ha | rfl⟩
      · exact ha
      · exact absurd rfl hne
    · intro ha
      exact ⟨(hlt a ha last (List.mem_singleton_self last)).ne', .inl ha⟩

end TreeSet
