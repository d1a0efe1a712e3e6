import Mathlib.Logic.Relation

/-!
# Executable transition systems

A transition system has a predicate of initial states and a partial function that says what an
action does in a state, `none` when the action is not enabled there. All nondeterminism is in the
choice of the action, so that a run can be evaluated.

A *guard* is a condition on the steps of a run. `Reachable C` are the states reached by steps
that all meet the guard `C`; the plain reachable states are those of the guard `AnyStep`.

## Main definitions

* `TransitionSystem`, `TransitionSystem.run`.
* `TransitionSystem.Steps`, `TransitionSystem.Reachable`: guarded runs and reachable states.
* `TransitionSystem.Throughout`: a property of all steps of a run.
* `TransitionSystem.observed`: what is seen of a run, step by step.

## Main results

* `TransitionSystem.Reachable.invariant`: the induction rule for invariants.
* `TransitionSystem.Steps.invariant`: the same along a run from a given state.
* `TransitionSystem.throughout_congr`: two properties of steps that agree from reachable states on
  agree on runs.
* `TransitionSystem.throughout_iff`, `TransitionSystem.throughout_state_iff`: the runs that keep a
  property of states.
* `TransitionSystem.Throughout.of_guard`: what a guard implies of each step, it implies of a run.
* `TransitionSystem.Reachable.map`: a state map that sends steps to runs sends reachable states to
  reachable states.
-/

/-- A transition system with states `σ` and actions `α`. -/
structure TransitionSystem (σ α : Type*) where
  /-- The states a run may start in. -/
  init : σ → Prop
  /-- What an action does, `none` when it is not enabled. -/
  step : σ → α → Option σ

namespace TransitionSystem

variable {σ α τ β : Type*} (S : TransitionSystem σ α)

/-- The guard that every step meets. -/
def AnyStep (_ : σ) (_ : α) (_ : σ) : Prop := True

/-- One step that meets the guard `C`. -/
def Step (C : σ → α → σ → Prop) (s s' : σ) : Prop :=
  ∃ a, C s a s' ∧ S.step s a = some s'

/-- A run of steps that all meet the guard `C`. -/
def Steps (C : σ → α → σ → Prop) : σ → σ → Prop :=
  Relation.ReflTransGen (S.Step C)

/-- The states reached from an initial one by steps that all meet the guard `C`. -/
def Reachable (C : σ → α → σ → Prop) (s : σ) : Prop :=
  ∃ s₀, S.init s₀ ∧ S.Steps C s₀ s

/-- The state after a list of actions, `none` as soon as one of them is not enabled. -/
def run (s : σ) : List α → Option σ
  | [] => some s
  | a :: as => (S.step s a).bind fun s' => run s' as

variable {S} {C : σ → α → σ → Prop}

theorem Step.intro {s s' : σ} {a : α} (hc : C s a s') (h : S.step s a = some s') :
    S.Step C s s' :=
  ⟨a, hc, h⟩

theorem Steps.refl (s : σ) : S.Steps C s s := Relation.ReflTransGen.refl

theorem Steps.trans {s t u : σ} (h : S.Steps C s t) (h' : S.Steps C t u) : S.Steps C s u :=
  Relation.ReflTransGen.trans h h'

theorem Steps.tail {s t u : σ} (h : S.Steps C s t) (h' : S.Step C t u) : S.Steps C s u :=
  Relation.ReflTransGen.tail h h'

/-- A run under a guard is a run under every weaker guard. -/
theorem Steps.mono {D : σ → α → σ → Prop} (hCD : ∀ s a s', C s a s' → D s a s') {s t : σ}
    (h : S.Steps C s t) : S.Steps D s t := by
  refine Relation.ReflTransGen.mono ?_ _ _ h
  rintro u v ⟨a, hc, ha⟩
  exact ⟨a, hCD u a v hc, ha⟩

theorem Steps.anyStep {s t : σ} (h : S.Steps C s t) : S.Steps AnyStep s t :=
  h.mono fun _ _ _ _ => trivial

theorem Reachable.initial {s : σ} (h : S.init s) : S.Reachable C s := ⟨s, h, Steps.refl s⟩

theorem Reachable.steps {s t : σ} (h : S.Reachable C s) (h' : S.Steps C s t) :
    S.Reachable C t := by
  obtain ⟨s₀, h₀, hs⟩ := h
  exact ⟨s₀, h₀, hs.trans h'⟩

theorem Reachable.step {s t : σ} {a : α} (h : S.Reachable C s) (hc : C s a t)
    (ha : S.step s a = some t) : S.Reachable C t :=
  h.steps ((Steps.refl s).tail ⟨a, hc, ha⟩)

theorem Reachable.anyStep {s : σ} (h : S.Reachable C s) : S.Reachable AnyStep s := by
  obtain ⟨s₀, h₀, hs⟩ := h
  exact ⟨s₀, h₀, hs.anyStep⟩

/-- **Invariants along a run.** What holds at its first state and is preserved by every step that
meets the guard holds at its last state. -/
theorem Steps.invariant {I : σ → Prop} {s t : σ} (h : S.Steps C s t) (hs : I s)
    (hstep : ∀ {u a v}, S.Steps C s u → I u → C u a v → S.step u a = some v → I v) : I t := by
  induction h with
  | refl => exact hs
  | tail hprev hlast ih =>
    obtain ⟨a, hc, ha⟩ := hlast
    exact hstep hprev ih hc ha

/-- **Invariants of a system.** What holds initially and is preserved by every step that meets the
guard holds in every state reached under it. -/
theorem Reachable.invariant {I : σ → Prop} {s : σ} (h : S.Reachable C s)
    (hinit : ∀ {s₀}, S.init s₀ → I s₀)
    (hstep : ∀ {u a v}, S.Reachable C u → I u → C u a v → S.step u a = some v → I v) : I s := by
  obtain ⟨s₀, h₀, hs⟩ := h
  exact hs.invariant (hinit h₀) fun hu hI hc ha => hstep ⟨s₀, h₀, hu⟩ hI hc ha

/-- A state map that sends every step to a run sends runs to runs. -/
theorem Steps.map {T : TransitionSystem τ β} {D : τ → β → τ → Prop} (f : σ → τ)
    (hstep : ∀ {u a v}, C u a v → S.step u a = some v → T.Steps D (f u) (f v)) {s t : σ}
    (h : S.Steps C s t) : T.Steps D (f s) (f t) :=
  h.invariant (I := fun u => T.Steps D (f s) (f u)) (Steps.refl (f s))
    fun _ ih hc ha => ih.trans (hstep hc ha)

/-- A state map that sends initial states to initial states and every step to a run sends
reachable states to reachable states. -/
theorem Reachable.map {T : TransitionSystem τ β} {D : τ → β → τ → Prop} (f : σ → τ)
    (hinit : ∀ {s₀}, S.init s₀ → T.init (f s₀))
    (hstep : ∀ {u a v}, C u a v → S.step u a = some v → T.Steps D (f u) (f v)) {s : σ}
    (h : S.Reachable C s) : T.Reachable D (f s) := by
  obtain ⟨s₀, h₀, hs⟩ := h
  exact ⟨f s₀, hinit h₀, hs.map f hstep⟩

@[simp] theorem run_nil (s : σ) : S.run s [] = some s := rfl

theorem run_cons (s : σ) (a : α) (as : List α) :
    S.run s (a :: as) = (S.step s a).bind fun s' => S.run s' as := rfl

theorem run_cons_of_step {s s' : σ} {a : α} (h : S.step s a = some s') (as : List α) :
    S.run s (a :: as) = S.run s' as := by
  rw [run_cons, h, Option.bind_some]

theorem run_append (s : σ) (as bs : List α) :
    S.run s (as ++ bs) = (S.run s as).bind fun t => S.run t bs := by
  induction as generalizing s with
  | nil => rfl
  | cons a as ih =>
    rw [List.cons_append, run_cons, run_cons, Option.bind_assoc]
    exact congrArg _ (funext ih)

/-- A run of actions that all meet the guard, whatever the state, is a run under the guard. -/
theorem steps_of_run_of_forall {as : List α} : ∀ {s t : σ},
    (∀ a ∈ as, ∀ u v, C u a v) → S.run s as = some t → S.Steps C s t := by
  induction as with
  | nil =>
    intro s t _ h
    obtain rfl : s = t := Option.some.inj h
    exact Steps.refl s
  | cons a as ih =>
    intro s t hC h
    obtain ⟨u, hu, ht⟩ := Option.bind_eq_some_iff.mp h
    have hfirst : S.Steps C s u :=
      (Steps.refl s).tail ⟨a, hC a List.mem_cons_self s u, hu⟩
    exact hfirst.trans (ih (fun b hb => hC b (List.mem_cons_of_mem a hb)) ht)

/-- A run that evaluates is a run of steps. -/
theorem steps_of_run {as : List α} {s t : σ} (h : S.run s as = some t) : S.Steps AnyStep s t :=
  steps_of_run_of_forall (fun _ _ _ _ => trivial) h

variable (S) in
/-- Every step of the run that a list of actions makes has the property `P`. -/
def Throughout (P : σ → α → σ → Prop) (s : σ) : List α → Prop
  | [] => True
  | a :: as => ∀ s', S.step s a = some s' → P s a s' ∧ Throughout P s' as

/-- A run of actions that all have a property, whatever the state, has it throughout. -/
theorem throughout_of_forall {P : σ → α → σ → Prop} {as : List α} :
    ∀ {s : σ}, (∀ a ∈ as, ∀ u v, P u a v) → S.Throughout P s as := by
  induction as with
  | nil => exact fun _ => trivial
  | cons a as ih =>
    intro s hP s' _
    exact ⟨hP a List.mem_cons_self s s', ih fun b hb => hP b (List.mem_cons_of_mem a hb)⟩

/-- What is the same for every step that meets the guard, from a state reached under it, is the same
for every run that meets it. -/
theorem Throughout.congr {P Q : σ → α → σ → Prop}
    (hPQ : ∀ {s a s'}, S.Reachable C s → C s a s' → S.step s a = some s' → (P s a s' ↔ Q s a s'))
    {as : List α} : ∀ {s : σ}, S.Reachable C s → S.Throughout C s as →
      (S.Throughout P s as ↔ S.Throughout Q s as) := by
  induction as with
  | nil => exact fun _ _ => Iff.rfl
  | cons a as ih =>
    intro s hs hguard
    refine forall_congr' fun s' => forall_congr' fun hstep => ?_
    obtain ⟨hc, hrest⟩ := hguard s' hstep
    exact and_congr (hPQ hs hc hstep) (ih (hs.step hc hstep) hrest)

/-- What is the same for every step from a reachable state is the same for every run. -/
theorem throughout_congr {P Q : σ → α → σ → Prop}
    (hPQ : ∀ {s a s'}, S.Reachable AnyStep s → S.step s a = some s' → (P s a s' ↔ Q s a s'))
    (as : List α) {s : σ} (hs : S.Reachable AnyStep s) :
    S.Throughout P s as ↔ S.Throughout Q s as :=
  Throughout.congr (fun hs _ => hPQ hs) hs (throughout_of_forall fun _ _ _ _ => trivial)

/-- A property of states that every step keeps or loses, as the step has the property `P` or not,
is kept by exactly the runs whose steps all have it. -/
theorem throughout_iff {I : σ → Prop} {P : σ → α → σ → Prop}
    (hI : ∀ {s a s'}, S.Reachable AnyStep s → S.step s a = some s' → (I s' ↔ I s ∧ P s a s'))
    {as : List α} : ∀ {s t : σ}, S.Reachable AnyStep s → S.run s as = some t →
      (I t ↔ I s ∧ S.Throughout P s as) := by
  induction as with
  | nil =>
    intro s t _ h
    obtain rfl : s = t := Option.some.inj h
    exact ⟨fun ht => ⟨ht, trivial⟩, And.left⟩
  | cons a as ih =>
    intro s t hs h
    obtain ⟨u, hu, ht⟩ := Option.bind_eq_some_iff.mp h
    have hthroughout : S.Throughout P s (a :: as) ↔ P s a u ∧ S.Throughout P u as := by
      constructor
      · exact fun hall => hall u hu
      · rintro hall s' hs'
        obtain rfl : u = s' := Option.some.inj (hu.symm.trans hs')
        exact hall
    rw [ih (hs.step trivial hu) ht, hI hs hu, hthroughout, and_assoc]

/-- A property of states that every step from a state with the property keeps or loses, as the step
has the property `P` or not, holds all along exactly the runs whose steps all have it. -/
theorem throughout_state_iff {I : σ → Prop} {P : σ → α → σ → Prop}
    (hI : ∀ {s a s'}, S.Reachable AnyStep s → I s → S.step s a = some s' → (I s' ↔ P s a s'))
    {as : List α} : ∀ {s : σ}, S.Reachable AnyStep s → I s →
      (S.Throughout (fun _ _ s' => I s') s as ↔ S.Throughout P s as) := by
  induction as with
  | nil => exact fun _ _ => Iff.rfl
  | cons a as ih =>
    intro s hs hIs
    refine forall_congr' fun s' => imp_congr_right fun hstep => ?_
    constructor
    · rintro ⟨hIs', hrest⟩
      exact ⟨(hI hs hIs hstep).mp hIs', (ih (hs.step trivial hstep) hIs').mp hrest⟩
    · rintro ⟨hP, hrest⟩
      have hIs' := (hI hs hIs hstep).mpr hP
      exact ⟨hIs', (ih (hs.step trivial hstep) hIs').mpr hrest⟩

/-- What holds of every step from a state reached under the guard that meets the guard holds
throughout every run that meets it. -/
theorem Throughout.of_guard {P : σ → α → σ → Prop}
    (hP : ∀ {s a s'}, S.Reachable C s → C s a s' → S.step s a = some s' → P s a s')
    {as : List α} : ∀ {s : σ}, S.Reachable C s → S.Throughout C s as → S.Throughout P s as := by
  induction as with
  | nil => exact fun _ _ => trivial
  | cons a as ih =>
    intro s hs hthroughout s' hstep
    obtain ⟨hc, hrest⟩ := hthroughout s' hstep
    exact ⟨hP hs hc hstep, ih (hs.step hc hstep) hrest⟩

/-- A run under a guard is made by some actions, at all of whose steps the guard is met. -/
theorem Steps.exists_run {s t : σ} (h : S.Steps C s t) :
    ∃ as, S.run s as = some t ∧ S.Throughout C s as := by
  induction h using Relation.ReflTransGen.head_induction_on with
  | refl => exact ⟨[], rfl, trivial⟩
  | head hfirst _ ih =>
    obtain ⟨a, hc, ha⟩ := hfirst
    obtain ⟨as, hrun, hthroughout⟩ := ih
    refine ⟨a :: as, (run_cons_of_step ha as).trans hrun, fun u hu => ?_⟩
    obtain rfl := Option.some.inj (ha.symm.trans hu)
    exact ⟨hc, hthroughout⟩

theorem Throughout.append {P : σ → α → σ → Prop} {as bs : List α} : ∀ {s t : σ},
    S.Throughout P s as → S.run s as = some t → S.Throughout P t bs → S.Throughout P s (as ++ bs) := by
  induction as with
  | nil =>
    intro s t _ h hbs
    obtain rfl : s = t := Option.some.inj h
    exact hbs
  | cons a as ih =>
    intro s t has h hbs u hu
    obtain ⟨v, hv, ht⟩ := Option.bind_eq_some_iff.mp h
    obtain rfl := Option.some.inj (hv.symm.trans hu)
    obtain ⟨hP, hrest⟩ := has _ hu
    exact ⟨hP, ih hrest ht hbs⟩

/-- What holds of every step of a run holds of one that is taken on the way. -/
theorem Throughout.of_run_append {P : σ → α → σ → Prop} {as bs : List α} {a : α} :
    ∀ {s u v : σ}, S.Throughout P s (as ++ a :: bs) → S.run s as = some u → S.step u a = some v →
      P u a v := by
  induction as with
  | nil =>
    intro s u v h hrun hstep
    obtain rfl : s = u := Option.some.inj hrun
    exact (h v hstep).1
  | cons b as ih =>
    intro s u v h hrun hstep
    obtain ⟨t, ht, hu⟩ := Option.bind_eq_some_iff.mp hrun
    exact ih (h t ht).2 hu hstep

/-- A run whose steps all meet a guard is a run under the guard. -/
theorem Throughout.steps {as : List α} : ∀ {s t : σ}, S.Throughout C s as → S.run s as = some t →
    S.Steps C s t := by
  induction as with
  | nil =>
    intro s t _ h
    obtain rfl : s = t := Option.some.inj h
    exact Steps.refl s
  | cons a as ih =>
    intro s t hthroughout h
    obtain ⟨u, hu, ht⟩ := Option.bind_eq_some_iff.mp h
    obtain ⟨hc, hrest⟩ := hthroughout u hu
    exact ((Steps.refl s).tail ⟨a, hc, hu⟩).trans (ih hrest ht)

variable (S) in
/-- What is observed at the steps of the run that a list of actions makes. -/
def observed {ο : Type*} (f : σ → α → List ο) (s : σ) : List α → List ο
  | [] => []
  | a :: as => f s a ++ ((S.step s a).map fun s' => observed f s' as).getD []

theorem observed_append {ο : Type*} {f : σ → α → List ο} {as bs : List α} : ∀ {s t : σ},
    S.run s as = some t → S.observed f s (as ++ bs) = S.observed f s as ++ S.observed f t bs := by
  induction as with
  | nil =>
    intro s t h
    obtain rfl : s = t := Option.some.inj h
    rfl
  | cons a as ih =>
    intro s t h
    obtain ⟨u, hu, ht⟩ := Option.bind_eq_some_iff.mp h
    rw [List.cons_append, observed, observed, hu, Option.map_some, Option.map_some,
      Option.getD_some, Option.getD_some, ih ht, List.append_assoc]

/-- What holds of the first state of a run and of what was observed before, and is kept by every step
of the run with what is observed there, holds of the last state and of all that was observed. -/
theorem observed_induction_of_mem {ο : Type*} {f : σ → α → List ο} {I : σ → List ο → Prop}
    {as : List α} (hstep : ∀ {s a s' seen}, a ∈ as → S.Reachable AnyStep s → I s seen →
      S.step s a = some s' → I s' (seen ++ f s a)) : ∀ {s t : σ} {seen : List ο},
      S.Reachable AnyStep s → I s seen → S.run s as = some t → I t (seen ++ S.observed f s as) := by
  induction as with
  | nil =>
    intro s t seen _ hI h
    obtain rfl : s = t := Option.some.inj h
    rwa [observed, List.append_nil]
  | cons a as ih =>
    intro s t seen hs hI h
    obtain ⟨u, hu, ht⟩ := Option.bind_eq_some_iff.mp h
    have hnext := ih (fun ha => hstep (List.mem_cons_of_mem _ ha)) (hs.step trivial hu)
      (hstep List.mem_cons_self hs hI hu) ht
    rwa [observed, hu, Option.map_some, Option.getD_some, ← List.append_assoc]

/-- The same, for what every step keeps. -/
theorem observed_induction {ο : Type*} {f : σ → α → List ο} {I : σ → List ο → Prop}
    (hstep : ∀ {s a s' seen}, S.Reachable AnyStep s → I s seen → S.step s a = some s' →
      I s' (seen ++ f s a)) {as : List α} {s t : σ} {seen : List ο} (hs : S.Reachable AnyStep s)
    (hI : I s seen) (h : S.run s as = some t) : I t (seen ++ S.observed f s as) :=
  observed_induction_of_mem (fun _ hu hI hstep' => hstep hu hI hstep') hs hI h

variable (S) in
/-- The state after a list of actions, each of which passes a check before it is taken. -/
def checkedRun (check : σ → α → Bool) (s : σ) : List α → Option σ
  | [] => some s
  | a :: as => if check s a then (S.step s a).bind fun s' => checkedRun check s' as else none

/-- What holds of the first state of a checked run, and is kept by every step together with the
actions that were taken, holds of the last state and of all actions. -/
theorem checkedRun_induction {check : σ → α → Bool} {I : σ → List α → Prop}
    (hstep : ∀ {s a s' taken}, check s a → S.step s a = some s' → I s taken → I s' (taken ++ [a]))
    {as : List α} : ∀ {s t : σ} {taken : List α},
      I s taken → S.checkedRun check s as = some t → I t (taken ++ as) := by
  induction as with
  | nil =>
    intro s t taken hI h
    obtain rfl : s = t := Option.some.inj h
    rwa [List.append_nil]
  | cons a as ih =>
    intro s t taken hI h
    obtain ⟨hcheck, h⟩ := Option.ite_none_right_eq_some.mp h
    obtain ⟨u, hu, ht⟩ := Option.bind_eq_some_iff.mp h
    simpa using ih (hstep hcheck hu hI) ht

theorem run_of_checkedRun {check : σ → α → Bool} {as : List α} :
    ∀ {s t : σ}, S.checkedRun check s as = some t → S.run s as = some t := by
  induction as with
  | nil => exact id
  | cons a as ih =>
    intro s t h
    obtain ⟨-, h⟩ := Option.ite_none_right_eq_some.mp h
    obtain ⟨u, hu, ht⟩ := Option.bind_eq_some_iff.mp h
    exact Option.bind_eq_some_iff.mpr ⟨u, hu, ih ht⟩

/-- Every step of a checked run has the properties that the check implies. -/
theorem throughout_of_checkedRun {check : σ → α → Bool} {P : σ → α → σ → Prop}
    (hP : ∀ s a s', check s a → S.step s a = some s' → P s a s')
    {as : List α} : ∀ {s t : σ}, S.checkedRun check s as = some t → S.Throughout P s as := by
  induction as with
  | nil => exact fun _ => trivial
  | cons a as ih =>
    intro s t h s' hstep
    obtain ⟨hcheck, h⟩ := Option.ite_none_right_eq_some.mp h
    obtain ⟨u, hu, ht⟩ := Option.bind_eq_some_iff.mp h
    obtain rfl : u = s' := Option.some.inj (hu.symm.trans hstep)
    exact ⟨hP s a u hcheck hstep, ih ht⟩

/-- A checked run is a run under every guard that the check implies. -/
theorem steps_of_checkedRun {check : σ → α → Bool}
    (hC : ∀ s a s', check s a → S.step s a = some s' → C s a s')
    {as : List α} {s t : σ} (h : S.checkedRun check s as = some t) : S.Steps C s t :=
  (throughout_of_checkedRun hC h).steps (run_of_checkedRun h)

end TransitionSystem
