import Mathlib.Data.Fintype.EquivFin
import Mathlib.Data.List.Nodup
import Mathlib.Data.List.Pairwise
import Mathlib.Logic.Relation

/-!
# Unfolding what elements lead to

Each element leads to a list of elements. Below some elements there is a forest of all that they
lead to, which is infinite when an element leads back to itself. Where it is finite, it is listed with
each element before what is below it. Elements are told apart by keys. The forest below an element
repeats no key exactly when everything in it is led to once and nothing leads back to what is above
it.

## Main definitions

* `Unfolding.Lists`: the list of a finite forest.
* `Unfolding.Tree`: each element is led to once, and none leads back.

## Main results

* `Unfolding.Lists.mem_iff`: the list has what can be reached.
* `Unfolding.tree_iff`: with finitely many keys, a tree has a list that repeats no key.
-/

open Relation (ReflTransGen TransGen)

namespace Unfolding

variable {α κ : Type*} {next : α → List α}

/-- An element leads to another one. -/
def Leads (next : α → List α) (a b : α) : Prop := b ∈ next a

/-- The list of the forest below some elements, each element before what is below it. -/
inductive Lists (next : α → List α) : List α → List α → Prop
  | nil : Lists next [] []
  | cons {a : α} {as below after : List α} (hbelow : Lists next (next a) below)
      (hafter : Lists next as after) : Lists next (a :: as) (a :: (below ++ after))

/-- Each element is led to once, and none leads back to one that it is below. -/
structure Tree (next : α → List α) (key : α → κ) (root : α) : Prop where
  once : ∀ {a b}, ReflTransGen (Leads next) root a → ReflTransGen (Leads next) root b →
    ∀ {i j : ℕ} {x y}, (next a)[i]? = some x → (next b)[j]? = some y → key x = key y → a = b ∧ i = j
  acyclic : ∀ {a b}, ReflTransGen (Leads next) root a → TransGen (Leads next) a b → key b ≠ key a

variable {key : α → κ} {root a b x y p : α} {as l l' : List α}

/-! ### The list of a forest -/

namespace Lists

/-- Everything is listed as one of the first elements, or as what a listed element leads to. -/
theorem perm (h : Lists next as l) : l.Perm (as ++ l.flatMap next) := by
  induction h with
  | nil => exact .refl _
  | @cons a as below after _ _ ihbelow ihafter =>
    rw [List.flatMap_cons, List.flatMap_append, List.cons_append]
    refine .cons a ((ihbelow.append ihafter).trans ?_)
    rw [← List.append_assoc (next a)]
    exact List.perm_append_comm_assoc _ _ _

/-- The list has what can be reached. -/
theorem mem_iff (h : Lists next as l) : x ∈ l ↔ ∃ a ∈ as, ReflTransGen (Leads next) a x := by
  constructor
  · intro hx
    induction h with
    | nil => exact absurd hx List.not_mem_nil
    | @cons a as below after _ _ ihbelow ihafter =>
      rcases List.mem_cons.mp hx with rfl | hx
      · exact ⟨x, List.mem_cons_self, .refl⟩
      · rcases List.mem_append.mp hx with hx | hx
        · obtain ⟨b, hb, hreach⟩ := ihbelow hx
          exact ⟨a, List.mem_cons_self, .head hb hreach⟩
        · obtain ⟨b, hb, hreach⟩ := ihafter hx
          exact ⟨b, List.mem_cons_of_mem a hb, hreach⟩
  · rintro ⟨a, ha, hreach⟩
    induction hreach with
    | refl => exact h.perm.mem_iff.mpr (List.mem_append_left _ ha)
    | @tail b c _ hbc ih =>
      exact h.perm.mem_iff.mpr (List.mem_append_right _ (List.mem_flatMap.mpr ⟨b, ih, hbc⟩))

theorem mem_iff_transGen (h : Lists next (next a) l) : x ∈ l ↔ TransGen (Leads next) a x := by
  rw [h.mem_iff, Relation.TransGen.head'_iff]
  rfl

theorem mem_cons_iff (h : Lists next (next a) l) : x ∈ a :: l ↔ ReflTransGen (Leads next) a x := by
  rw [List.mem_cons, h.mem_iff_transGen, Relation.reflTransGen_iff_eq_or_transGen]

theorem unique (h : Lists next as l) (h' : Lists next as l') : l = l' := by
  induction h generalizing l' with
  | nil =>
    cases h'
    rfl
  | cons _ _ ihbelow ihafter =>
    cases h' with
    | cons hbelow hafter => rw [ihbelow hbelow, ihafter hafter]

/-- What is below a listed element has a shorter list. -/
theorem exists_below (h : Lists next as l) (hx : x ∈ l) :
    ∃ below, Lists next (next x) below ∧ below.length < l.length := by
  induction h with
  | nil => exact absurd hx List.not_mem_nil
  | @cons a as below after hbelow _ ihbelow ihafter =>
    simp only [List.length_cons, List.length_append]
    rcases List.mem_cons.mp hx with rfl | hx
    · exact ⟨below, hbelow, by omega⟩
    · rcases List.mem_append.mp hx with hx | hx
      · obtain ⟨below', hbelow', hlt⟩ := ihbelow hx
        exact ⟨below', hbelow', by omega⟩
      · obtain ⟨below', hbelow', hlt⟩ := ihafter hx
        exact ⟨below', hbelow', by omega⟩

/-- Nothing is below itself in a finite forest. -/
theorem notMem_below (h : Lists next (next a) l) : a ∉ l := by
  intro ha
  obtain ⟨below, hbelow, hlt⟩ := h.exists_below ha
  rw [h.unique hbelow] at hlt
  exact lt_irrefl _ hlt

/-- A forest below an element that repeats no key is a tree. -/
theorem tree (h : Lists next (next root) l) (hnodup : ((root :: l).map key).Nodup) :
    Tree next key root := by
  have hreached : ∀ {a}, ReflTransGen (Leads next) root a → a ∈ root :: l := h.mem_cons_iff.mpr
  have hled : (((root :: l).flatMap next).map key).Nodup :=
    ((h.perm.map key).nodup_iff).mp hnodup.of_cons
  rw [List.map_flatMap, List.nodup_flatMap] at hled
  obtain ⟨hchildren, hdisjoint⟩ := hled
  constructor
  case once =>
    intro a b ha hb i j x y hx hy hkey
    have hsame : a = b := by
      by_contra hne
      have : Std.Symm (Function.onFun List.Disjoint fun a => (next a).map key) :=
        ⟨fun _ _ hdis => hdis.symm⟩
      have hab := hdisjoint.forall (hreached ha) (hreached hb) hne
      exact hab (List.mem_map_of_mem (List.mem_of_getElem? hx))
        (hkey ▸ List.mem_map_of_mem (List.mem_of_getElem? hy))
    subst hsame
    refine ⟨rfl, ?_⟩
    have hi : ((next a).map key)[i]? = some (key x) := by rw [List.getElem?_map, hx, Option.map_some]
    have hj : ((next a).map key)[j]? = some (key x) := by
      rw [List.getElem?_map, hy, Option.map_some, hkey]
    obtain ⟨hlt, -⟩ := List.getElem?_eq_some_iff.mp hi
    exact (List.getElem?_inj hlt (hchildren a (hreached ha))).mp (hi.trans hj.symm)
  case acyclic =>
    intro a b ha hab hkey
    have hb : b = a := List.inj_on_of_nodup_map hnodup
      (hreached (ha.trans hab.to_reflTransGen)) (hreached ha) hkey
    subst hb
    rcases List.mem_cons.mp (hreached ha) with rfl | hmem
    · exact h.notMem_below (h.mem_iff_transGen.mpr hab)
    · obtain ⟨below, hbelow, -⟩ := h.exists_below hmem
      exact hbelow.notMem_below (hbelow.mem_iff_transGen.mpr hab)

end Lists

/-! ### The forest of a tree -/

/-- The lists below some elements make up the list of their forest. -/
theorem exists_lists (h : ∀ a ∈ as, ∃ l, Lists next (next a) l) : ∃ l, Lists next as l := by
  induction as with
  | nil => exact ⟨[], .nil⟩
  | cons a as ih =>
    obtain ⟨ha, has⟩ := List.forall_mem_cons.mp h
    obtain ⟨below, hbelow⟩ := ha
    obtain ⟨after, hafter⟩ := ih has
    exact ⟨_, .cons hbelow hafter⟩

namespace Tree

variable (h : Tree next key root)

include h

/-- What can be reached is told apart by its key. -/
theorem eq_of_key (ha : ReflTransGen (Leads next) root a) (hb : ReflTransGen (Leads next) root b)
    (hkey : key a = key b) : a = b := by
  rcases ha.cases_tail with rfl | ⟨a', ha', haa'⟩
  · rcases Relation.reflTransGen_iff_eq_or_transGen.mp hb with rfl | hb
    · rfl
    · exact absurd hkey.symm (h.acyclic .refl hb)
  · rcases hb.cases_tail with rfl | ⟨b', hb', hbb'⟩
    · exact absurd hkey (h.acyclic .refl (.tail' ha' haa'))
    · obtain ⟨i, hi⟩ := List.mem_iff_getElem?.mp haa'
      obtain ⟨j, hj⟩ := List.mem_iff_getElem?.mp hbb'
      obtain ⟨rfl, rfl⟩ := h.once ha' hb' hi hj hkey
      exact Option.some.inj (hi.symm.trans hj)

/-- With finitely many keys, there is a list of what is below everything that can be reached. -/
theorem exists_lists_below [Finite κ] (ha : ReflTransGen (Leads next) root a) :
    ∃ l, Lists next (next a) l := by
  let R : {a // ReflTransGen (Leads next) root a} → {a // ReflTransGen (Leads next) root a} → Prop :=
    fun b a => TransGen (Leads next) a b
  have : Finite {a // ReflTransGen (Leads next) root a} :=
    .of_injective (fun a => key a.1) fun a b hkey => Subtype.ext (h.eq_of_key a.2 b.2 hkey)
  have : IsTrans _ R := ⟨fun _ _ _ hba hcb => TransGen.trans hcb hba⟩
  have : Std.Irrefl R := ⟨fun a haa => h.acyclic a.2 haa rfl⟩
  have hwf : WellFounded R := Finite.wellFounded_of_trans_of_irrefl R
  refine hwf.induction (C := fun a => ∃ l, Lists next (next a.1) l) ⟨a, ha⟩ fun a ih => ?_
  exact exists_lists fun b hb => ih ⟨b, a.2.tail hb⟩ (.single hb)

/-- What is below different elements that an element leads to has different keys. -/
theorem key_ne (hp : ReflTransGen (Leads next) root p) {i j : ℕ} (ha : (next p)[i]? = some a)
    (hb : (next p)[j]? = some b) (hij : i ≠ j) (hx : ReflTransGen (Leads next) a x)
    (hy : ReflTransGen (Leads next) b y) : key x ≠ key y := by
  have hpa : Leads next p a := List.mem_of_getElem? ha
  have hpb : Leads next p b := List.mem_of_getElem? hb
  have hback : ∀ {c}, Leads next p c → ¬ReflTransGen (Leads next) c p := fun hpc hcp =>
    h.acyclic hp (.head' hpc hcp) rfl
  induction hx generalizing y with
  | refl =>
    rcases hy.cases_tail with rfl | ⟨y', hy', hyy'⟩
    · exact fun hkey => hij (h.once hp hp ha hb hkey).2
    · intro hkey
      obtain ⟨k, hk⟩ := List.mem_iff_getElem?.mp hyy'
      obtain ⟨rfl, -⟩ := h.once hp ((hp.tail hpb).trans hy') ha hk hkey
      exact hback hpb hy'
  | @tail x' x hx' hxx' ih =>
    obtain ⟨k, hk⟩ := List.mem_iff_getElem?.mp hxx'
    intro hkey
    rcases hy.cases_tail with rfl | ⟨y', hy', hyy'⟩
    · obtain ⟨rfl, -⟩ := h.once ((hp.tail hpa).trans hx') hp hk hb hkey
      exact hback hpa hx'
    · obtain ⟨k', hk'⟩ := List.mem_iff_getElem?.mp hyy'
      obtain ⟨rfl, -⟩ := h.once ((hp.tail hpa).trans hx') ((hp.tail hpb).trans hy') hk hk' hkey
      exact ih hy' rfl

/-- The list of what an element leads to, from some position on, repeats no key. -/
theorem nodup_of_lists (hlists : Lists next as l) (hp : ReflTransGen (Leads next) root p)
    (hsuffix : as <:+ next p) : (l.map key).Nodup := by
  induction hlists generalizing p with
  | nil => exact .nil
  | @cons a as below after hbelow hafter ihbelow ihafter =>
    have hrest : as <:+ next p := (List.suffix_cons a as).trans hsuffix
    obtain ⟨before, hbefore⟩ := hsuffix
    have hpa : (next p)[before.length]? = some a := by simp [← hbefore]
    have ha : ReflTransGen (Leads next) root a := hp.tail (List.mem_of_getElem? hpa)
    have hother : ∀ {x y}, ReflTransGen (Leads next) a x → y ∈ after → key x ≠ key y := by
      intro x y hx hy
      obtain ⟨b, hb, hby⟩ := hafter.mem_iff.mp hy
      obtain ⟨k, hk⟩ := List.mem_iff_getElem?.mp hb
      have hpb : (next p)[before.length + (k + 1)]? = some b := by
        rw [← hbefore, List.getElem?_append_right (Nat.le_add_right _ _), Nat.add_sub_cancel_left,
          List.getElem?_cons_succ, hk]
      exact h.key_ne hp hpa hpb (by omega) hx hby
    rw [List.map_cons, List.map_append, List.nodup_cons, List.nodup_append]
    refine ⟨?_, ihbelow ha List.suffix_rfl, ihafter hp hrest, ?_⟩
    · rw [List.mem_append, List.mem_map, List.mem_map]
      rintro (⟨x, hx, hkey⟩ | ⟨x, hx, hkey⟩)
      · exact h.acyclic ha (hbelow.mem_iff_transGen.mp hx) hkey
      · exact hother .refl hx hkey.symm
    · intro k hk k' hk'
      obtain ⟨x, hx, rfl⟩ := List.mem_map.mp hk
      obtain ⟨y, hy, rfl⟩ := List.mem_map.mp hk'
      exact hother (hbelow.mem_iff_transGen.mp hx).to_reflTransGen hy

end Tree

/-- **A tree has a list that repeats no key**, and only a tree has, if there are finitely many keys. -/
theorem tree_iff [Finite κ] : Tree next key root ↔
    ∃ l, Lists next (next root) l ∧ ((root :: l).map key).Nodup := by
  constructor
  · intro h
    obtain ⟨l, hl⟩ := h.exists_lists_below (a := root) .refl
    refine ⟨l, hl, ?_⟩
    rw [List.map_cons, List.nodup_cons]
    refine ⟨?_, h.nodup_of_lists hl .refl List.suffix_rfl⟩
    rw [List.mem_map]
    rintro ⟨x, hx, hkey⟩
    exact h.acyclic .refl (hl.mem_iff_transGen.mp hx) hkey
  · rintro ⟨l, hl, hnodup⟩
    exact hl.tree hnodup

end Unfolding
