import Mathlib.Data.List.Basic

/-!
# Checks that go on after an error

A check collects what is wrong with its input instead of stopping at the first error. Its value is
then one that was made up, or that was left out, so it promises something of the value only when it
is *clean*: when no error was collected. Warnings do not count.

## Main definitions

* `Checked`: a value, with the errors and the warnings on the way to it.
* `Checked.Clean`.
* `Checked.report`, `Checked.reject`, `Checked.skip`, `Checked.warn`, `Checked.warnIf`.

## Main results

* `Checked.clean_bind`, `Checked.clean_forM`: a check is clean if all of its parts are.
* `Checked.foldlM_induction`: the invariant of a clean loop.
* `Checked.foldlM_eq_foldl`: a clean loop in which every item is checked and added.
-/

universe u

/-- A value, with the errors and the warnings that were collected on the way to it. -/
structure Checked (ε ω α : Type u) where
  value : α
  errors : List ε
  warnings : List ω

namespace Checked

variable {ε ω α β : Type u}

instance : Monad (Checked ε ω) where
  pure a := ⟨a, [], []⟩
  bind x f :=
    let y := f x.value
    ⟨y.value, x.errors ++ y.errors, x.warnings ++ y.warnings⟩

/-- No error was collected. -/
def Clean (x : Checked ε ω α) : Prop := x.errors = []

/-- Collect an error. -/
def report (e : ε) : Checked ε ω PUnit := ⟨⟨⟩, [e], []⟩

/-- Collect a warning. -/
def warn (w : ω) : Checked ε ω PUnit := ⟨⟨⟩, [], [w]⟩

/-- Collect a warning if something is the case. -/
def warnIf (c : Prop) [Decidable c] (w : ω) : Checked ε ω PUnit :=
  if c then warn w else pure ⟨⟩

/-- Collect an error if something is the case. -/
def reject (c : Prop) [Decidable c] (e : ε) : Checked ε ω PUnit :=
  if c then report e else pure ⟨⟩

/-- Leave out the value, with an error. -/
def skip (e : ε) : Checked ε ω (Option α) := ⟨none, [e], []⟩

variable {x : Checked ε ω α} {f : α → Checked ε ω β} {l : List α}

@[simp] theorem clean_pure (a : α) : (pure a : Checked ε ω α).Clean := rfl

@[simp] theorem not_clean_report (e : ε) : ¬ (report e : Checked ε ω PUnit).Clean := nofun

@[simp] theorem clean_warn (w : ω) : (warn w : Checked ε ω PUnit).Clean := rfl

@[simp] theorem not_clean_skip (e : ε) : ¬ (skip e : Checked ε ω (Option α)).Clean := nofun

@[simp] theorem clean_reject {c : Prop} [Decidable c] {e : ε} :
    (reject c e : Checked ε ω PUnit).Clean ↔ ¬ c := by
  rw [reject]
  split_ifs with hc <;> simp [hc]

@[simp] theorem clean_warnIf {c : Prop} [Decidable c] {w : ω} :
    (warnIf c w : Checked ε ω PUnit).Clean := by
  rw [warnIf]
  split_ifs <;> simp

instance [DecidableEq ε] : Decidable x.Clean := inferInstanceAs (Decidable (x.errors = []))

@[simp] theorem value_pure (a : α) : (pure a : Checked ε ω α).value = a := rfl

@[simp] theorem value_bind : (x >>= f).value = (f x.value).value := rfl

/-- A check is clean if both of its parts are. -/
@[simp] theorem clean_bind : (x >>= f).Clean ↔ x.Clean ∧ (f x.value).Clean :=
  List.append_eq_nil_iff

theorem not_clean_report_bind {e : ε} {f : PUnit → Checked ε ω β} :
    ¬ (report e >>= f).Clean := fun h => not_clean_report e (clean_bind.mp h).1

@[simp] theorem value_map (g : α → β) : (g <$> x).value = g x.value := rfl

@[simp] theorem clean_map (g : α → β) : (g <$> x).Clean ↔ x.Clean :=
  clean_bind.trans (and_iff_left (clean_pure _))

/-- A loop is clean if every round of it is. -/
theorem clean_forM {f : α → Checked ε ω PUnit} : (forM l f).Clean ↔ ∀ a ∈ l, (f a).Clean := by
  induction l with
  | nil => simp
  | cons a l ih =>
    rw [List.forM_cons, clean_bind, ih, List.forall_mem_cons]

/-- The invariant of a clean loop, of the items that were gone through and the value so far. -/
theorem foldlM_induction {step : β → α → Checked ε ω β} {b : β} (I : List α → β → Prop)
    (hnil : I [] b)
    (hstep : ∀ done a b, done ++ [a] <+: l → I done b → (step b a).Clean →
      I (done ++ [a]) (step b a).value)
    (h : (l.foldlM step b).Clean) : I l (l.foldlM step b).value := by
  induction l generalizing b I with
  | nil => exact hnil
  | cons a l ih =>
    rw [List.foldlM_cons, clean_bind] at h
    rw [List.foldlM_cons, value_bind]
    have hfirst : I [a] (step b a).value := hstep [] a b (List.prefix_append [a] l) hnil h.1
    refine ih (fun done => I (a :: done)) hfirst (fun done a' b' hprefix => ?_) h.2
    exact hstep (a :: done) a' b' (List.cons_prefix_cons.mpr ⟨rfl, hprefix⟩)

/-- A loop that adds every item that passes its check adds all of them when it is clean. -/
theorem foldlM_eq_foldl {step : β → α → Checked ε ω β} {b : β} (add : β → α → β) (good : α → Prop)
    (hstep : ∀ b a, (step b a).Clean → good a ∧ (step b a).value = add b a)
    (h : (l.foldlM step b).Clean) :
    (∀ a ∈ l, good a) ∧ (l.foldlM step b).value = l.foldl add b := by
  refine foldlM_induction (fun done value => (∀ a ∈ done, good a) ∧ value = done.foldl add b)
    ⟨fun _ ha => absurd ha List.not_mem_nil, rfl⟩ (fun done a value _ hdone hclean => ?_) h
  obtain ⟨hgood, hvalue⟩ := hdone
  obtain ⟨ha, hadd⟩ := hstep value a hclean
  refine ⟨fun a' ha' => ?_, ?_⟩
  · rcases List.mem_append.mp ha' with ha' | ha'
    · exact hgood a' ha'
    · exact List.mem_singleton.mp ha' ▸ ha
  · rw [hadd, hvalue, List.foldl_concat]

end Checked
