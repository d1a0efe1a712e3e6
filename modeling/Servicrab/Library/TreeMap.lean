import Mathlib.Order.Compare
import Std.Data.ExtTreeMap

/-!
# Ordered maps over a linear order

Lookup in an `ExtTreeMap` whose keys are linearly ordered, with the comparison of keys written as
an equation, and what becomes of one entry while a list of keys is folded over a state.

## Main results

* `TreeMap.getElem?_insert`, `TreeMap.getElem?_erase`.
* `KeyedFold.view_foldl_of_mem`, `KeyedFold.view_foldl_of_notMem`: a fold that updates one key at a
  time, seen through one key.
* `KeyedFold.invariant_foldl`, `KeyedFold.exists_visit`: invariants of such a fold, and the state in
  which it visits a key.
-/

open Std (ExtTreeMap)

namespace TreeMap

variable {κ β : Type*} [LinearOrder κ] {m : ExtTreeMap κ β}

theorem getElem?_insert (k a : κ) (v : β) :
    (m.insert k v)[a]? = if a = k then some v else m[a]? := by
  rw [ExtTreeMap.getElem?_insert]
  simp only [compare_eq_iff_eq, eq_comm (a := k)]

theorem getElem?_erase (k a : κ) : (m.erase k)[a]? = if a = k then none else m[a]? := by
  rw [ExtTreeMap.getElem?_erase]
  simp only [compare_eq_iff_eq, eq_comm (a := k)]

theorem getElem?_insert_of_ne {k a : κ} (h : a ≠ k) (v : β) : (m.insert k v)[a]? = m[a]? := by
  rw [getElem?_insert, if_neg h]

theorem getElem?_erase_of_ne {k a : κ} (h : a ≠ k) : (m.erase k)[a]? = m[a]? := by
  rw [getElem?_erase, if_neg h]

variable [Std.LawfulEqOrd κ]

@[simp] theorem insert_insert (k : κ) (v v' : β) : (m.insert k v).insert k v' = m.insert k v' := by
  ext1 a
  simp only [getElem?_insert]
  split_ifs <;> rfl

@[simp] theorem erase_insert (k : κ) (v : β) : (m.insert k v).erase k = m.erase k := by
  ext1 a
  simp only [getElem?_erase, getElem?_insert]
  split_ifs <;> rfl

/-- A key is in the key list exactly when the lookup finds something. -/
theorem mem_keys_iff_exists {a : κ} : a ∈ m.keys ↔ ∃ v, m[a]? = some v := by
  rw [ExtTreeMap.mem_keys, ExtTreeMap.mem_iff_isSome_getElem?, Option.isSome_iff_exists]

/-- A search through the entries finds nothing exactly when no entry passes. -/
theorem find?_toList_eq_none {p : κ × β → Bool} :
    m.toList.find? p = none ↔ ∀ k v, m[k]? = some v → p (k, v) = false := by
  rw [List.find?_eq_none]
  constructor
  · intro h k v hv
    simpa using h (k, v) (ExtTreeMap.mem_toList_iff_getElem?_eq_some.mpr hv)
  · rintro h ⟨k, v⟩ hmem
    simpa using h k v (ExtTreeMap.mem_toList_iff_getElem?_eq_some.mp hmem)

/-- A search for the entry of a key is a lookup. -/
theorem find?_key_toList (m : ExtTreeMap κ β) (k : κ) :
    m.toList.find? (fun entry => entry.1 = k) = m[k]?.map fun v => (k, v) := by
  cases hv : m[k]? with
  | none =>
    rw [Option.map_none, find?_toList_eq_none]
    rintro k' v' hv'
    rw [decide_eq_false_iff_not]
    rintro rfl
    rw [hv] at hv'
    cases hv'
  | some v =>
    cases hfind : m.toList.find? (fun entry => entry.1 = k) with
    | none =>
      have hne := find?_toList_eq_none.mp hfind k v hv
      simp at hne
    | some entry =>
      obtain ⟨k', v'⟩ := entry
      obtain rfl : k' = k := by simpa using List.find?_some hfind
      have hv' := ExtTreeMap.mem_toList_iff_getElem?_eq_some.mp (List.mem_of_find?_eq_some hfind)
      rw [hv] at hv'
      rw [Option.some.inj hv']
      rfl

end TreeMap

namespace KeyedFold

variable {σ κ β : Type*} {f : σ → κ → σ} {v : κ → σ → β}

/-- A fold leaves a key alone that it does not visit. -/
theorem view_foldl_of_notMem (other : ∀ s j k, j ≠ k → v k (f s j) = v k s) {k : κ} :
    ∀ {l : List κ} {s : σ}, k ∉ l → v k (l.foldl f s) = v k s
  | [], _, _ => rfl
  | j :: l, s, h => by
    rw [List.mem_cons, not_or] at h
    rw [List.foldl_cons, view_foldl_of_notMem other h.2, other s j k (Ne.symm h.1)]

/-- A fold over distinct keys updates each key it visits once. -/
theorem view_foldl_of_mem {g : κ → β → β} (self : ∀ s k, v k (f s k) = g k (v k s))
    (other : ∀ s j k, j ≠ k → v k (f s j) = v k s) {k : κ} :
    ∀ {l : List κ} {s : σ}, l.Nodup → k ∈ l → v k (l.foldl f s) = g k (v k s)
  | j :: l, s, hl, h => by
    rw [List.nodup_cons] at hl
    rw [List.foldl_cons]
    by_cases hj : j = k
    · subst hj
      rw [view_foldl_of_notMem other hl.1, self]
    · have hk : k ∈ l := (List.mem_cons.mp h).resolve_left fun e => hj e.symm
      rw [view_foldl_of_mem self other hl.2 hk, other s j k hj]

/-- An invariant of a fold over distinct keys, where the step on a key needs something of that
key's view, which the steps on other keys leave alone. -/
theorem invariant_foldl {I : σ → Prop} {P : κ → β → Prop}
    (other : ∀ s j k, j ≠ k → v k (f s j) = v k s) :
    ∀ {l : List κ} {s : σ}, l.Nodup → (∀ s, ∀ k ∈ l, I s → P k (v k s) → I (f s k)) → I s →
      (∀ k ∈ l, P k (v k s)) → I (l.foldl f s)
  | [], _, _, _, hI, _ => hI
  | j :: l, s, hl, step, hI, hP => by
    rw [List.nodup_cons] at hl
    rw [List.foldl_cons]
    refine invariant_foldl other hl.2 (fun s k hk => step s k (List.mem_cons_of_mem j hk))
      (step s j List.mem_cons_self hI (hP j List.mem_cons_self)) fun k hk => ?_
    have hne : j ≠ k := fun e => hl.1 (e ▸ hk)
    rw [other s j k hne]
    exact hP k (List.mem_cons_of_mem j hk)

/-- A fold leaves a key's view alone when no visit changes that view. -/
theorem view_foldl_eq (other : ∀ s j k, j ≠ k → v k (f s j) = v k s) {k : κ} {l : List κ}
    {s : σ} (self : ∀ t, v k t = v k s → k ∈ l → v k (f t k) = v k s) :
    v k (l.foldl f s) = v k s :=
  List.foldlRecOn (motive := fun t => v k t = v k s) l f rfl fun t ht j hj => by
    by_cases he : j = k
    · subst he
      exact self t ht hj
    · exact (other t j k he).trans ht

/-- A fold over distinct keys visits each of them in some state in between, in which that key's
view is what it was at the start, and after which it stays as the visit left it. -/
theorem exists_visit {R : σ → σ → Prop} (hrefl : ∀ s, R s s)
    (htrans : ∀ {s t u}, R s t → R t u → R s u) (hstep : ∀ s k, R s (f s k))
    (other : ∀ s j k, j ≠ k → v k (f s j) = v k s) {k : κ} :
    ∀ {l : List κ} {s : σ}, l.Nodup → k ∈ l → ∃ t, R s t ∧ v k t = v k s ∧
      R (f t k) (l.foldl f s) ∧ v k (l.foldl f s) = v k (f t k)
  | j :: l, s, hl, h => by
    rw [List.nodup_cons] at hl
    rw [List.foldl_cons]
    by_cases hj : j = k
    · subst hj
      have hrun : ∀ (l : List κ) (t : σ), R t (l.foldl f t) := fun l t =>
        List.foldlRecOn (motive := R t) l f (hrefl t) fun u hu i _ => htrans hu (hstep u i)
      exact ⟨s, hrefl s, rfl, hrun l _, view_foldl_of_notMem other hl.1⟩
    · have hk : k ∈ l := (List.mem_cons.mp h).resolve_left fun e => hj e.symm
      obtain ⟨t, hst, hview, hR, hlast⟩ := exists_visit hrefl htrans hstep other hl.2 hk (s := f s j)
      exact ⟨t, htrans (hstep s j) hst, hview.trans (other s j k hj), hR, hlast⟩

end KeyedFold
