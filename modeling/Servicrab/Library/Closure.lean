import Mathlib.Data.Finset.Basic
import Mathlib.Logic.Relation
import Mathlib.Order.Bounds.Basic
import Servicrab.Library.Kahn

/-!
# What can be reached from some elements

The least set that contains some elements and, with each element, all that it leads to; and how it
is collected by a recursion that skips what it has collected already. While the recursion is under
way, an element may be in the set before what it leads to is. So the invariant is about the elements
that a call has added: what these lead to is in the set when the call returns.

What depends on some elements, in an order that serves dependencies first, is found in one pass over
the order.

## Main definitions

* `Closure.closedSets`, `Closure.reached`.
* `Closure.Collected`: what has been collected from some elements, on top of a set.

## Main results

* `Closure.isLeast_reached`.
* `Closure.Collected.enter`, `Closure.Collected.foldl`: the rules of the recursion.
* `Closure.Collected.isLeast`: what is collected from nothing is the least closed set.
* `Closure.mem_foldl_dependents`: one pass over an order finds all dependents.
-/

namespace Closure

variable {α : Type*} {R : α → α → Prop}

/-- The sets that contain some elements and, with each element, all that it leads to. -/
def closedSets (R : α → α → Prop) (roots : Set α) : Set (Set α) :=
  {s | roots ⊆ s ∧ ∀ a ∈ s, ∀ b, R a b → b ∈ s}

/-- What can be reached from some elements. -/
def reached (R : α → α → Prop) (roots : Set α) : Set α :=
  {b | ∃ a ∈ roots, Relation.ReflTransGen R a b}

theorem reached_subset {roots s : Set α} (h : s ∈ closedSets R roots) : reached R roots ⊆ s := by
  rintro b ⟨a, ha, hreach⟩
  induction hreach with
  | refl => exact h.1 ha
  | tail _ hbc ih => exact h.2 _ ih _ hbc

theorem isLeast_reached (R : α → α → Prop) (roots : Set α) :
    IsLeast (closedSets R roots) (reached R roots) := by
  refine ⟨⟨fun a ha => ⟨a, ha, .refl⟩, ?_⟩, fun s hs => reached_subset hs⟩
  rintro a ⟨root, hroot, hreach⟩ b hab
  exact ⟨root, hroot, hreach.tail hab⟩

/-- What was collected from the elements `nodes`, on top of a set. -/
structure Collected (R : α → α → Prop) (selected : Finset α) (nodes : List α)
    (result : Finset α) : Prop where
  mono : selected ⊆ result
  mem : ∀ a ∈ nodes, a ∈ result
  sound : ∀ a ∈ result, a ∈ selected ∨ ∃ node ∈ nodes, Relation.ReflTransGen R node a
  /-- What an element leads to that was added is there. -/
  closed : ∀ a ∈ result, a ∉ selected → ∀ b, R a b → b ∈ result

variable {selected result : Finset α} {nodes : List α} {a : α}

theorem Collected.nil (R : α → α → Prop) (selected : Finset α) :
    Collected R selected [] selected where
  mono := Finset.Subset.refl selected
  mem _ ha := absurd ha List.not_mem_nil
  sound _ ha := Or.inl ha
  closed _ ha hnot := absurd ha hnot

/-- What was collected already is skipped. -/
theorem Collected.skip (R : α → α → Prop) (ha : a ∈ selected) :
    Collected R selected [a] selected where
  mono := Finset.Subset.refl selected
  mem _ hb := List.mem_singleton.mp hb ▸ ha
  sound _ hb := Or.inl hb
  closed _ hb hnot := absurd hb hnot

/-- One collection goes on where another one has ended. -/
theorem Collected.append {nodes' : List α} {between : Finset α}
    (h : Collected R selected nodes between) (h' : Collected R between nodes' result) :
    Collected R selected (nodes ++ nodes') result where
  mono := h.mono.trans h'.mono
  mem a ha := by
    rcases List.mem_append.mp ha with ha | ha
    · exact h'.mono (h.mem a ha)
    · exact h'.mem a ha
  sound a ha := by
    rcases h'.sound a ha with hbetween | ⟨node, hnode, hreach⟩
    · rcases h.sound a hbetween with hselected | ⟨node, hnode, hreach⟩
      · exact Or.inl hselected
      · exact Or.inr ⟨node, List.mem_append_left _ hnode, hreach⟩
    · exact Or.inr ⟨node, List.mem_append_right _ hnode, hreach⟩
  closed a ha hnot b hab := by
    by_cases hbetween : a ∈ between
    · exact h'.mono (h.closed a hbetween hnot b hab)
    · exact h'.closed a ha hbetween b hab

/-- An element is collected together with what is collected from those it leads to. -/
theorem Collected.enter [DecidableEq α] (hnodes : ∀ b, b ∈ nodes ↔ R a b)
    (h : Collected R (insert a selected) nodes result) : Collected R selected [a] result where
  mono := (Finset.subset_insert a selected).trans h.mono
  mem b hb := by
    rw [List.mem_singleton.mp hb]
    exact h.mono (Finset.mem_insert_self a selected)
  sound b hb := by
    rcases h.sound b hb with hinsert | ⟨node, hnode, hreach⟩
    · rcases Finset.mem_insert.mp hinsert with rfl | hselected
      · exact Or.inr ⟨b, List.mem_singleton_self b, .refl⟩
      · exact Or.inl hselected
    · exact Or.inr ⟨a, List.mem_singleton_self a, .head ((hnodes node).mp hnode) hreach⟩
  closed b hb hnot c hbc := by
    rcases eq_or_ne b a with rfl | hne
    · exact h.mem c ((hnodes c).mpr hbc)
    · exact h.closed b hb (fun hinsert => hnot (Finset.mem_of_mem_insert_of_ne hinsert hne)) c hbc

/-- A loop that collects from one element after another. -/
theorem Collected.foldl {collect : Finset α → α → Finset α}
    (hcollect : ∀ a ∈ nodes, ∀ s, selected ⊆ s → Collected R s [a] (collect s a)) :
    Collected R selected nodes (nodes.foldl collect selected) := by
  induction nodes generalizing selected with
  | nil => exact .nil R selected
  | cons a nodes ih =>
    have hhead : Collected R selected [a] (collect selected a) :=
      hcollect a List.mem_cons_self selected (Finset.Subset.refl selected)
    refine hhead.append (ih fun b hb s hs => ?_)
    exact hcollect b (List.mem_cons_of_mem a hb) s (hhead.mono.trans hs)

/-- **What is collected** from some elements on top of nothing is the least closed set. -/
theorem Collected.isLeast (h : Collected R ∅ nodes result) :
    IsLeast (closedSets R {a | a ∈ nodes}) (result : Set α) := by
  constructor
  · exact ⟨fun a ha => h.mem a ha, fun a ha b hab => h.closed a ha (Finset.notMem_empty a) b hab⟩
  · intro s hs a ha
    rcases h.sound a ha with hempty | hreached
    · exact absurd hempty (Finset.notMem_empty a)
    · exact reached_subset hs hreached

/-! ### Dependents -/

/-- What is reached is there at the start, or reached in one step from what is reached. -/
theorem mem_reached_iff {roots : Set α} :
    a ∈ reached R roots ↔ a ∈ roots ∨ ∃ b ∈ reached R roots, R b a := by
  constructor
  · rintro ⟨root, hroot, hreach⟩
    rcases Relation.ReflTransGen.cases_tail hreach with rfl | ⟨b, hb, hba⟩
    · exact Or.inl hroot
    · exact Or.inr ⟨b, ⟨root, hroot, hb⟩, hba⟩
  · rintro (hroot | ⟨b, ⟨root, hroot, hreach⟩, hba⟩)
    · exact ⟨a, hroot, .refl⟩
    · exact ⟨root, hroot, hreach.tail hba⟩

/-- **One pass** over an order that serves dependencies first finds everything that depends on some
elements, since each element is visited after all that it depends on. -/
theorem mem_foldl_dependents {order : List α} (horder : DependencyOrder R order)
    {visit : Finset α → α → Finset α} {seeds : Finset α}
    (hvisit : ∀ held, ∀ a ∈ order, ∀ c, c ∈ visit held a ↔ c ∈ held ∨ c = a ∧ ∃ b ∈ held, R a b)
    (a : α) : a ∈ order.foldl visit seeds ↔
      a ∈ reached (fun b a => a ∈ order ∧ R a b) (seeds : Set α) := by
  let found : Set α := reached (fun b a => a ∈ order ∧ R a b) (seeds : Set α)
  have hpass : ∀ (post pre : List α) (held : Finset α), order = pre ++ post →
      (∀ c, c ∈ held ↔ c ∈ seeds ∨ c ∈ pre ∧ c ∈ found) →
        ∀ c, c ∈ post.foldl visit held ↔ c ∈ seeds ∨ c ∈ order ∧ c ∈ found := by
    intro post
    induction post with
    | nil =>
      intro pre held hsplit hheld
      rw [hsplit, List.append_nil]
      exact hheld
    | cons next post ih =>
      intro pre held hsplit hheld
      have hnext : next ∈ order := hsplit ▸ List.mem_append_right pre List.mem_cons_self
      refine ih (pre ++ [next]) (visit held next) (by rw [hsplit, List.append_assoc]; rfl) ?_
      -- What the next element depends on comes before it, and has been decided.
      have hdecided : (∃ b ∈ held, R next b) ↔ ∃ b ∈ found, R next b := by
        constructor
        · rintro ⟨b, hb, hdep⟩
          refine ⟨b, ?_, hdep⟩
          rcases (hheld b).mp hb with hseed | ⟨-, hfound⟩
          · exact ⟨b, hseed, .refl⟩
          · exact hfound
        · rintro ⟨b, hb, hdep⟩
          exact ⟨b, (hheld b).mpr (Or.inr ⟨horder pre next post hsplit b hdep, hb⟩), hdep⟩
      have hfound : next ∈ found ↔ next ∈ seeds ∨ ∃ b ∈ found, R next b := by
        rw [show next ∈ found ↔ _ from mem_reached_iff]
        simp [hnext, found]
      intro c
      rw [hvisit held next hnext, hdecided, hheld, List.mem_append, List.mem_singleton]
      by_cases hc : c = next
      · subst hc
        simp only [true_and, or_true]
        generalize (∃ b ∈ found, R c b) = more at hfound
        tauto
      · simp [hc]
  rw [hpass order [] seeds rfl (by simp)]
  constructor
  · rintro (hseed | ⟨-, hfound⟩)
    · exact ⟨a, hseed, .refl⟩
    · exact hfound
  · intro hfound
    rcases mem_reached_iff.mp hfound with hseed | ⟨b, -, horder, -⟩
    · exact Or.inl hseed
    · exact Or.inr ⟨horder, hfound⟩

end Closure
