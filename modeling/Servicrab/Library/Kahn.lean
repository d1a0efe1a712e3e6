import Mathlib.Data.Fintype.Card
import Mathlib.Data.List.Basic
import Mathlib.Data.List.Count
import Mathlib.Data.List.Sort
import Mathlib.Logic.Function.Basic
import Mathlib.Logic.Relation
import Mathlib.Order.WellFounded

/-!
# Orders that serve dependencies first, and how Kahn's algorithm finds one

A list is in dependency order when each of its elements comes after everything it depends on. Then
it also comes after everything it depends on indirectly, and what is left of the list by a filter
is still in order.

Kahn's algorithm counts for each element the dependencies that were not served yet. `Kahn.Counts`
is what it keeps true, in terms of the list of all edges, while it takes an element off the queue
and goes through those that depend on it. Nothing is said about the data structures it uses.

When the queue is sorted, the least of the elements that may come next always does, and the order is
the least there is. `Kahn.Frontier` is what such an algorithm keeps true.

## Main definitions

* `DependencyOrder`, `LeastFirst`.
* `Kahn.unmet`, `Kahn.Counts`, `Kahn.Frontier`.

## Main results

* `DependencyOrder.transGen`, `DependencyOrder.filter`, `DependencyOrder.reverse`.
* `DependencyOrder.acyclic`, `exists_transGen_self`: what may be ordered has no cycle, and what is
  left over has one.
* `LeastFirst.eq_or_lex`: the order that puts the least first is the least.
* `Kahn.Counts.pop`, `Kahn.Counts.release`.
* `Kahn.Frontier.pop`, `Kahn.Frontier.release`.
-/

variable {α : Type*}

/-- Each element comes after everything it depends on: `R a b` says that `a` depends on `b`. -/
def DependencyOrder (R : α → α → Prop) (order : List α) : Prop :=
  ∀ pre a post, order = pre ++ a :: post → ∀ b, R a b → b ∈ pre

namespace DependencyOrder

variable {R : α → α → Prop} {order : List α} {a b : α}

theorem nil : DependencyOrder R [] := by
  intro pre a post h
  simp at h

/-- An element may come next once everything it depends on has come. -/
theorem concat (h : DependencyOrder R order) (ha : ∀ b, R a b → b ∈ order) :
    DependencyOrder R (order ++ [a]) := by
  intro pre c post hsplit b hb
  rcases List.eq_nil_or_concat post with rfl | ⟨post, last, rfl⟩
  · obtain ⟨rfl, hlast⟩ := List.append_inj' hsplit rfl
    obtain rfl : a = c := by simpa using hlast
    exact ha b hb
  · rw [List.concat_eq_append, ← List.cons_append, ← List.append_assoc] at hsplit
    obtain ⟨hsplit, -⟩ := List.append_inj' hsplit rfl
    exact h pre c post hsplit b hb

/-- An element also comes after what it depends on indirectly. -/
theorem transGen (h : DependencyOrder R order) :
    DependencyOrder (Relation.TransGen R) order := by
  intro pre a post hsplit b hab
  induction hab using Relation.TransGen.head_induction_on generalizing pre post with
  | single hab => exact h pre _ post hsplit b hab
  | head hac _ ih =>
    obtain ⟨pre', post', rfl⟩ := List.append_of_mem (h pre _ post hsplit _ hac)
    rw [List.append_assoc, List.cons_append] at hsplit
    exact List.mem_append_left _ (ih pre' _ hsplit)

/-- A filter keeps the order of what it keeps. -/
theorem filter (h : DependencyOrder R order) (p : α → Bool) :
    DependencyOrder (fun a b => R a b ∧ p b) (order.filter p) := by
  rintro pre a post hsplit b ⟨hab, hb⟩
  obtain ⟨l₁, l₂, rfl, rfl, hl₂⟩ := List.filter_eq_append_iff.mp hsplit
  obtain ⟨l₃, l₄, rfl, hl₃, -, -⟩ := List.filter_eq_cons_iff.mp hl₂
  rcases List.mem_append.mp (h (l₁ ++ l₃) a l₄ (by simp) b hab) with hmem | hmem
  · exact List.mem_filter.mpr ⟨hmem, hb⟩
  · exact absurd hb (hl₃ b hmem)

/-- Backwards, each element comes after everything that depends on it. -/
theorem reverse (h : DependencyOrder R order) (hnodup : order.Nodup) :
    DependencyOrder (fun b a => R a b ∧ a ∈ order) order.reverse := by
  rintro pre b post hsplit a ⟨hab, ha⟩
  have horder : order = post.reverse ++ b :: pre.reverse := by
    rw [← List.reverse_reverse order, hsplit]
    simp
  have hb : b ∉ post.reverse := by
    rw [horder] at hnodup
    exact fun hmem => (List.nodup_append.mp hnodup).2.2 b hmem b List.mem_cons_self rfl
  rw [horder] at ha
  rcases List.mem_append.mp ha with hmem | hmem
  · obtain ⟨l₁, l₂, hl⟩ := List.append_of_mem hmem
    refine absurd ?_ hb
    rw [hl]
    exact List.mem_append_left _ (h l₁ a (l₂ ++ b :: pre.reverse) (by simp [horder, hl]) b hab)
  · rcases List.mem_cons.mp hmem with rfl | hmem
    · exact absurd (h _ _ _ horder _ hab) hb
    · exact List.mem_reverse.mp hmem

/-- Elements that depend on nothing may come first. -/
theorem append_left {front : List α} (hfront : ∀ a ∈ front, ∀ b, ¬ R a b)
    (h : DependencyOrder R order) : DependencyOrder R (front ++ order) := by
  intro pre a post hsplit b hab
  rcases List.append_eq_append_iff.mp hsplit with ⟨l, rfl, hl⟩ | ⟨l, rfl, hl⟩
  · exact List.mem_append_right _ (h l a post hl b hab)
  · cases l with
    | nil => cases h [] a post hl.symm b hab
    | cons head l =>
      cases hl
      exact absurd hab (hfront a (by simp) b)

/-- Mapping the relation to a weaker one. -/
theorem mono {R' : α → α → Prop} (hR : ∀ a b, R' a b → R a b) (h : DependencyOrder R order) :
    DependencyOrder R' order :=
  fun pre a post hsplit b hab => h pre a post hsplit b (hR a b hab)

/-- What is in order has no cycle. -/
theorem acyclic (h : DependencyOrder R order) (hmem : ∀ a b, R a b → a ∈ order) (a : α) :
    ¬ Relation.TransGen R a a := by
  intro hcycle
  have ha : a ∈ order := by
    obtain ⟨b, hab, -⟩ := Relation.TransGen.head'_iff.mp hcycle
    exact hmem a b hab
  obtain ⟨pre, post, hsplit, hnot⟩ := List.eq_append_cons_of_mem ha
  exact hnot (h.transGen pre a post hsplit a hcycle)

end DependencyOrder

/-- Among finitely many elements that each depend on another one of them there is a cycle. -/
theorem exists_transGen_self {R : α → α → Prop} {rest : Set α} (hfinite : rest.Finite)
    (hnonempty : rest.Nonempty) (h : ∀ a ∈ rest, ∃ b ∈ rest, R a b) :
    ∃ a, Relation.TransGen R a a := by
  by_contra hacyclic
  have hnone : ∀ a, ¬ Relation.TransGen R a a := not_exists.mp hacyclic
  -- Without a cycle the relation is well founded on the elements, and one of them depends on none.
  have : Finite rest := hfinite
  let S : rest → rest → Prop := fun b a => Relation.TransGen R a.1 b.1
  have : IsTrans rest S := ⟨fun _ _ _ hab hbc => hbc.trans hab⟩
  have : Std.Irrefl S := ⟨fun a => hnone a.1⟩
  have hwf : WellFounded S := Finite.wellFounded_of_trans_of_irrefl S
  obtain ⟨a, ha⟩ := hnonempty
  obtain ⟨least, -, hleast⟩ := hwf.has_min Set.univ ⟨⟨a, ha⟩, trivial⟩
  obtain ⟨b, hb, hab⟩ := h least.1 least.2
  exact hleast ⟨b, hb⟩ trivial (Relation.TransGen.single hab)

/-! ### The least order -/

section LeastFirst

variable [LinearOrder α]

/-- Each element is the least of those that may come at its place. -/
def LeastFirst (R : α → α → Prop) (elements order : List α) : Prop :=
  ∀ pre a post, order = pre ++ a :: post →
    ∀ b ∈ elements, b ∉ pre → (∀ c, R b c → c ∈ pre) → a ≤ b

variable {R : α → α → Prop} {elements order : List α} {a : α}

theorem LeastFirst.nil : LeastFirst R elements [] := by
  intro pre a post h
  simp at h

theorem LeastFirst.concat (h : LeastFirst R elements order)
    (ha : ∀ b ∈ elements, b ∉ order → (∀ c, R b c → c ∈ order) → a ≤ b) :
    LeastFirst R elements (order ++ [a]) := by
  intro pre c post hsplit
  rcases List.eq_nil_or_concat post with rfl | ⟨post, last, rfl⟩
  · obtain ⟨rfl, hlast⟩ := List.append_inj' hsplit rfl
    obtain rfl : a = c := by simpa using hlast
    exact ha
  · rw [List.concat_eq_append, ← List.cons_append, ← List.append_assoc] at hsplit
    obtain ⟨hsplit, -⟩ := List.append_inj' hsplit rfl
    exact h pre c post hsplit

/-- Where two orders part, the one that puts the least first has the lesser element. -/
theorem LeastFirst.eq_or_lex_of_append {l : List α} : ∀ {l' pre : List α},
    LeastFirst R elements (pre ++ l) → DependencyOrder R (pre ++ l') → (pre ++ l').Nodup →
    l' ⊆ elements → l.length = l'.length → l = l' ∨ List.Lex (· < ·) l l' := by
  induction l with
  | nil =>
    intro l' pre _ _ _ _ hlength
    exact Or.inl (List.eq_nil_of_length_eq_zero hlength.symm).symm
  | cons a l ih =>
    intro l' pre hleast horder hnodup hsub hlength
    obtain ⟨b, l', rfl⟩ := List.exists_cons_of_length_eq_add_one hlength.symm
    rcases eq_or_ne a b with rfl | hne
    · have hnext : l = l' ∨ List.Lex (· < ·) l l' := by
        refine @ih l' (pre ++ [a]) ?_ ?_ ?_ ?_ (Nat.succ_inj.mp hlength)
        · simpa using hleast
        · simpa using horder
        · simpa using hnodup
        · exact fun c hc => hsub (List.mem_cons_of_mem a hc)
      rcases hnext with rfl | hlex
      · exact Or.inl rfl
      · exact Or.inr (.cons hlex)
    · have hnot : b ∉ pre := fun hmem =>
        (List.nodup_append.mp hnodup).2.2 b hmem b List.mem_cons_self rfl
      have hle : a ≤ b := hleast pre a l rfl b (hsub List.mem_cons_self) hnot
        (horder pre b l' rfl)
      exact Or.inr (.rel (lt_of_le_of_ne hle hne))

/-- The order that puts the least first is the least of all orders of its elements. -/
theorem LeastFirst.eq_or_lex (h : LeastFirst R elements order) {other : List α}
    (hother : DependencyOrder R other) (hnodup : other.Nodup) (hsub : other ⊆ elements)
    (hlength : order.length = other.length) : order = other ∨ List.Lex (· < ·) order other :=
  LeastFirst.eq_or_lex_of_append (List.nil_append order ▸ h) (List.nil_append other ▸ hother)
    (List.nil_append other ▸ hnodup) hsub hlength

end LeastFirst

namespace Kahn

variable [DecidableEq α]

/-- How many of the edges of an element lead to something that is not in the order yet. -/
def unmet (edges : List (α × α)) (order : List α) (a : α) : ℕ :=
  edges.countP fun edge => edge.1 = a ∧ edge.2 ∉ order

/-- What the algorithm keeps true. Of the elements that depend on the last one of the order, those
in `todo` were not told so yet. -/
structure Counts (edges : List (α × α)) (degree : α → ℕ) (queue order todo : List α) : Prop where
  degree_eq : ∀ a, degree a = unmet edges order a + todo.count a
  ready : ∀ a ∈ queue ++ order, degree a = 0
  nodup : (queue ++ order).Nodup
  served : DependencyOrder (fun a b => (a, b) ∈ edges) order

variable {edges : List (α × α)} {degree degree' : α → ℕ} {queue queue' order todo : List α} {a : α}

/-- Nothing is left to be served of an element that has no unmet edge. -/
theorem mem_of_unmet_eq_zero (h : unmet edges order a = 0) {b : α} (hb : (a, b) ∈ edges) :
    b ∈ order := by
  by_contra hnot
  have hall := List.countP_eq_zero.mp h (a, b) hb
  simp [hnot] at hall

/-- An element that comes next meets the edges that lead to it. -/
theorem unmet_concat (ha : a ∉ order) (b : α) :
    unmet edges order b = unmet edges (order ++ [a]) b + edges.count (b, a) := by
  induction edges with
  | nil => rfl
  | cons edge edges ih =>
    obtain ⟨c, d⟩ := edge
    have hhead : (if decide (c = b ∧ d ∉ order) then 1 else 0) =
        (if decide (c = b ∧ d ∉ order ++ [a]) then 1 else 0) +
          if (c, d) == (b, a) then 1 else 0 := by
      by_cases hc : c = b <;> by_cases hd : d = a <;> simp [hc, hd, ha]
    simp only [unmet, List.countP_cons, List.count_cons] at ih ⊢
    rw [ih, hhead]
    omega

/-- The algorithm starts with the elements that have no edge in its queue. -/
theorem counts_nil (hdegree : ∀ a, degree a = edges.countP fun edge => edge.1 = a)
    (hready : ∀ a ∈ queue, degree a = 0) (hnodup : queue.Nodup) :
    Counts edges degree queue [] [] where
  degree_eq a := by simp [hdegree, unmet]
  ready := by simpa using hready
  nodup := by simpa using hnodup
  served := .nil

/-- The next element is taken off the queue. -/
theorem Counts.pop (h : Counts edges degree (a :: queue) order [])
    (htodo : ∀ b, todo.count b = edges.count (b, a)) :
    Counts edges degree queue (order ++ [a]) todo := by
  have hperm : (queue ++ (order ++ [a])).Perm (a :: queue ++ order) := by
    rw [← List.append_assoc]
    exact List.perm_append_singleton a (queue ++ order)
  have ha : a ∉ order := fun hmem => by
    have hnodup := h.nodup
    simp [hmem] at hnodup
  constructor
  case degree_eq =>
    intro b
    rw [h.degree_eq, unmet_concat ha, htodo, List.count_nil, Nat.add_zero]
  case ready => exact fun b hb => h.ready b (hperm.mem_iff.mp hb)
  case nodup => exact hperm.nodup_iff.mpr h.nodup
  case served =>
    refine h.served.concat fun b hb => mem_of_unmet_eq_zero ?_ hb
    have hdegree := h.degree_eq a
    rw [h.ready a (by simp), List.count_nil, Nat.add_zero] at hdegree
    exact hdegree.symm

/-- One of the elements that depend on the last one of the order is told so, and is queued if it
waits for nothing else. -/
theorem Counts.release (h : Counts edges degree queue order (a :: todo))
    (hdegree : ∀ b, degree' b = if b = a then degree a - 1 else degree b)
    (hqueue : queue'.Perm (if degree a - 1 = 0 then a :: queue else queue)) :
    Counts edges degree' queue' order todo := by
  have hpos : degree a = unmet edges order a + (todo.count a + 1) := by
    rw [h.degree_eq, List.count_cons_self]
  have hnot : a ∉ queue ++ order := fun hmem => by
    have hzero := h.ready a hmem
    omega
  have hperm : (queue' ++ order).Perm
      (if degree a - 1 = 0 then a :: (queue ++ order) else queue ++ order) := by
    refine (hqueue.append_right order).trans ?_
    split_ifs <;> exact List.Perm.refl _
  constructor
  case degree_eq =>
    intro b
    rw [hdegree]
    split_ifs with hb
    · subst hb
      omega
    · rw [h.degree_eq, List.count_cons_of_ne (Ne.symm hb)]
  case ready =>
    intro b hb
    rw [hdegree]
    have hmem := hperm.mem_iff.mp hb
    split_ifs at hmem ⊢ with hba hzero hzero
    · exact hzero
    · exact absurd (hba ▸ hmem) hnot
    · exact h.ready b ((List.mem_cons.mp hmem).resolve_left hba)
    · exact h.ready b hmem
  case nodup =>
    rw [hperm.nodup_iff]
    split_ifs
    · exact List.nodup_cons.mpr ⟨hnot, h.nodup⟩
    · exact h.nodup
  case served => exact h.served

/-! ### A sorted queue -/

section Frontier

variable {α : Type*} [LinearOrder α] [DecidableEq α] {edges : List (α × α)}
  {degree degree' : α → ℕ}
  {elements queue queue' order todo : List α} {a : α}

/-- What the algorithm keeps true when its queue is sorted: the queue holds all elements that may
come next. -/
structure Frontier (edges : List (α × α)) (elements : List α) (degree : α → ℕ)
    (queue order : List α) : Prop where
  complete : ∀ a ∈ elements, degree a = 0 → a ∈ queue ++ order
  subset : queue ++ order ⊆ elements
  sorted : queue.Pairwise (· ≤ ·)
  least : LeastFirst (fun a b => (a, b) ∈ edges) elements order

omit [LinearOrder α] in
/-- An element whose edges all lead into the order has no unmet edge. -/
theorem unmet_eq_zero (h : ∀ b, (a, b) ∈ edges → b ∈ order) : unmet edges order a = 0 := by
  refine List.countP_eq_zero.mpr fun edge hedge => ?_
  simp only [decide_eq_true_eq, not_and, not_not]
  rintro rfl
  exact h edge.2 hedge

/-- The head of the queue is the least element that may come next. -/
theorem Frontier.pop (h : Frontier edges elements degree (a :: queue) order)
    (hcounts : Counts edges degree (a :: queue) order []) :
    Frontier edges elements degree queue (order ++ [a]) where
  complete b hb hdegree := by
    have hmem : b ∈ a :: queue ++ order := h.complete b hb hdegree
    simp only [List.cons_append, List.mem_cons, List.mem_append, List.not_mem_nil] at hmem ⊢
    tauto
  subset b hb := by
    refine h.subset ?_
    simp only [List.cons_append, List.mem_cons, List.mem_append, List.not_mem_nil] at hb ⊢
    tauto
  sorted := (List.pairwise_cons.mp h.sorted).2
  least := by
    refine h.least.concat fun b hb hnot hserved => ?_
    have hdegree : degree b = 0 := by
      rw [hcounts.degree_eq, unmet_eq_zero hserved, List.count_nil]
    rcases List.mem_append.mp (h.complete b hb hdegree) with hqueue | horder
    · rcases List.mem_cons.mp hqueue with rfl | hqueue
      · exact le_rfl
      · exact (List.pairwise_cons.mp h.sorted).1 b hqueue
    · exact absurd horder hnot

/-- An element that waits for nothing else any more is put at its place. -/
theorem Frontier.release (h : Frontier edges elements degree queue order) (ha : a ∈ elements)
    (hpos : 0 < degree a) (hdegree : ∀ b, degree' b = if b = a then degree a - 1 else degree b)
    (hqueue : queue' = if degree a - 1 = 0 then queue.orderedInsert (· ≤ ·) a else queue) :
    Frontier edges elements degree' queue' order where
  complete b hb hzero := by
    rw [hdegree] at hzero
    split_ifs at hzero with hba
    · rw [hqueue, if_pos hzero, hba]
      simp
    · have hmem : b ∈ queue ++ order := h.complete b hb hzero
      rw [hqueue]
      split_ifs
      · simp only [List.mem_append, List.mem_orderedInsert] at hmem ⊢
        tauto
      · exact hmem
  subset := by
    rw [hqueue]
    split_ifs
    · intro b hb
      simp only [List.mem_append, List.mem_orderedInsert] at hb
      rcases hb with (rfl | hb) | hb
      · exact ha
      · exact h.subset (List.mem_append_left _ hb)
      · exact h.subset (List.mem_append_right _ hb)
    · exact h.subset
  sorted := by
    rw [hqueue]
    split_ifs
    · exact h.sorted.orderedInsert a queue
    · exact h.sorted
  least := h.least

/-- With an empty queue, what is not in the order depends on something that is not either. -/
theorem Frontier.exists_edge (h : Frontier edges elements degree [] order)
    (hcounts : Counts edges degree [] order []) (ha : a ∈ elements) (hnot : a ∉ order) :
    ∃ b, b ∉ order ∧ (a, b) ∈ edges := by
  by_contra hnone
  have hserved : ∀ b, (a, b) ∈ edges → b ∈ order := by
    intro b hb
    by_contra hb'
    exact hnone ⟨b, hb', hb⟩
  have hdegree : degree a = 0 := by
    rw [hcounts.degree_eq, unmet_eq_zero hserved, List.count_nil]
  exact hnot (h.complete a ha hdegree)

end Frontier

end Kahn
