import Mathlib.Data.Finset.Basic
import Mathlib.Data.List.Chain

/-!
# Depth-first search for a cycle

A search that goes from one element to those it depends on, among finitely many elements, and keeps
the path it is on and the elements it is finished with. What is reached a second time on one path
closes a cycle; from what a search is finished with no infinite path starts. So where each element
depends on another one, the search is never finished with any.

## Main definitions

* `IsCycle`: a sequence that ends where it starts and repeats nothing else.
* `DepthFirst.Consistent`: what the search keeps true.

## Main results

* `DepthFirst.Consistent.push`, `DepthFirst.Consistent.pop`: an element is entered and left.
* `DepthFirst.Consistent.isCycle`: the path closes a cycle.
* `DepthFirst.Consistent.notMem_finished`: where each element depends on another one.
-/

variable {α : Type*}

/-- Each element depends on the next, the first is the last, and no other is repeated. -/
structure IsCycle (R : α → α → Prop) (cycle : List α) : Prop where
  two_le : 2 ≤ cycle.length
  chain : cycle.IsChain R
  closed : cycle.head? = cycle.getLast?
  nodup : cycle.dropLast.Nodup

namespace DepthFirst

variable [DecidableEq α] {R : α → α → Prop} {within path : List α} {onPath finished : Finset α}
  {a : α}

/-- What a search keeps true that goes through the elements of `within`. -/
structure Consistent (R : α → α → Prop) (within path : List α) (onPath finished : Finset α) :
    Prop where
  mem_onPath : ∀ a, a ∈ onPath ↔ a ∈ path
  nodup : path.Nodup
  chain : path.IsChain R
  subset : path ⊆ within
  /-- No infinite path starts at an element that the search is finished with. -/
  acc : ∀ a ∈ finished, Acc (fun b a => R a b ∧ b ∈ within) a

omit [DecidableEq α] in
theorem Consistent.start (R : α → α → Prop) (within : List α) :
    Consistent R within [] ∅ ∅ where
  mem_onPath a := by simp
  nodup := .nil
  chain := .nil
  subset := List.nil_subset within
  acc a ha := absurd ha (Finset.notMem_empty a)

omit [DecidableEq α] in
/-- A path is no longer than there are elements. -/
theorem Consistent.length_le (h : Consistent R within path onPath finished) :
    path.length ≤ within.length :=
  (h.nodup.subperm h.subset).length_le

/-- The end of the path, from where it was before, is a cycle. -/
theorem Consistent.isCycle (h : Consistent R within path onPath finished) (ha : a ∈ onPath)
    (hlast : ∀ b ∈ path.getLast?, R b a) : IsCycle R (path.drop (path.idxOf a) ++ [a]) := by
  have hlt : path.idxOf a < path.length := List.idxOf_lt_length_iff.mpr ((h.mem_onPath a).mp ha)
  have hdrop : path.drop (path.idxOf a) = a :: path.drop (path.idxOf a + 1) := by
    rw [List.drop_eq_getElem_cons hlt, List.getElem_idxOf hlt]
  have hend : (path.drop (path.idxOf a)).getLast? = path.getLast? := by
    rw [List.getLast?_drop, if_neg (not_le.mpr hlt)]
  constructor
  case two_le =>
    rw [hdrop]
    simp
  case chain =>
    refine (h.chain.drop _).append (.singleton a) fun b hb c hc => ?_
    obtain rfl : a = c := by simpa using hc
    exact hlast b (hend ▸ hb)
  case closed =>
    rw [List.getLast?_concat, hdrop]
    rfl
  case nodup =>
    rw [List.dropLast_concat]
    exact h.nodup.sublist (List.drop_sublist _ _)

/-- An element is entered that is not on the path. -/
theorem Consistent.push (h : Consistent R within path onPath finished) (ha : a ∉ onPath)
    (hwithin : a ∈ within) (hlast : ∀ b ∈ path.getLast?, R b a) :
    Consistent R within (path ++ [a]) (insert a onPath) finished where
  mem_onPath b := by
    rw [Finset.mem_insert, h.mem_onPath, List.mem_append, List.mem_singleton]
    exact or_comm
  nodup := by
    refine List.nodup_append.mpr ⟨h.nodup, List.nodup_singleton a, fun b hb c hc => ?_⟩
    obtain rfl := List.mem_singleton.mp hc
    rintro rfl
    exact ha ((h.mem_onPath b).mpr hb)
  chain := by
    refine h.chain.append (.singleton a) fun b hb c hc => ?_
    obtain rfl : a = c := by simpa using hc
    exact hlast b hb
  subset := List.append_subset.mpr ⟨h.subset, List.cons_subset.mpr ⟨hwithin, List.nil_subset within⟩⟩
  acc := h.acc

/-- An element is left when the search is finished with all that it depends on. -/
theorem Consistent.pop (h : Consistent R within (path ++ [a]) onPath finished)
    (hdone : ∀ b, R a b → b ∈ within → b ∈ finished) :
    Consistent R within path (onPath.erase a) (insert a finished) where
  mem_onPath b := by
    have hnot : a ∉ path := fun hmem =>
      (List.nodup_append.mp h.nodup).2.2 a hmem a (List.mem_singleton_self a) rfl
    rw [Finset.mem_erase, h.mem_onPath, List.mem_append, List.mem_singleton]
    constructor
    · rintro ⟨hne, hmem⟩
      exact hmem.resolve_right hne
    · intro hmem
      exact ⟨fun heq => hnot (heq ▸ hmem), Or.inl hmem⟩
  nodup := h.nodup.sublist (List.sublist_append_left path [a])
  chain := h.chain.left_of_append
  subset := (List.append_subset.mp h.subset).1
  acc b hb := by
    rcases Finset.mem_insert.mp hb with rfl | hb
    · exact Acc.intro b fun c ⟨hdep, hc⟩ => h.acc c (hdone c hdep hc)
    · exact h.acc b hb

omit [DecidableEq α] in
/-- The search is finished with no element, if each depends on another of them. -/
theorem Consistent.notMem_finished (h : Consistent R within path onPath finished)
    (hmore : ∀ a ∈ within, ∃ b ∈ within, R a b) (ha : a ∈ within) : a ∉ finished := by
  have hnone : ∀ a, Acc (fun b a => R a b ∧ b ∈ within) a → a ∉ within := by
    intro a hacc
    induction hacc with
    | intro a _ ih =>
      intro ha
      obtain ⟨b, hb, hdep⟩ := hmore a ha
      exact ih b ⟨hdep, hb⟩ hb
  exact fun hfinished => hnone a (h.acc a hfinished) ha

end DepthFirst
