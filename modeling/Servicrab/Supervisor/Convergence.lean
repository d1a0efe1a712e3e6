import Servicrab.Supervisor.Reload

/-!
# A reload converges, and when a second one changes nothing

From an accepted reload on, and until the next command, the slots agree with the new plan up to
the slots that are still winding down: `Stack.Converging`. Once every task that was asked to stop
has reported, nothing winds down any more, and the slots agree with the plan.

A second reload with the same configuration and plan compares the plan with slots that may still
wind down. A slot that the first one retired is a slot whose name is not in the plan, so it is
removed a second time: that is the only thing the second reload does.

## Main definitions

* `Stack.Converging`, `Stack.SpawnedSince`, `NoCommand`.

## Main results

* `Stack.Converging.steps`: what holds from the reload on.
* `Stack.converged`: the stack after a reload whose tasks have reported.
* `Stack.second_reload_iff`: when a second reload changes nothing.
-/

open Std (ExtTreeMap)
open TransitionSystem (AnyStep)

namespace Servicrab

/-- The guard that the loop takes no command. -/
def NoCommand (_ : Stack) (action : StackAction) (_ : Stack) : Prop := action ≠ .control

namespace Stack

variable {w w' : Stack} {name other : ServiceName} {slot slot' : Slot} {config : ValidConfig}
  {plan : StartPlan config.1} {service : Service}

/-! ### From the reload on -/

/-- Every planned service has a slot with the definition in force, and every other slot is on its
way out. -/
structure Converging (config : Config) (plan : List ServiceName) (w : Stack) : Prop where
  planned : ∀ {name : ServiceName}, name ∈ plan → ∃ slot, w.slots[name]? = some slot ∧
    slot.retired = false ∧ config.services[name]? = some slot.service
  unplanned : ∀ {name : ServiceName} {slot : Slot}, name ∉ plan → w.slots[name]? = some slot →
    slot.retired = true

/-- What a slot is for, and what is to become of it. -/
def Intent (slot : Slot) : Service × Bool × Bool :=
  (slot.service, slot.restartWhenStopped, slot.retired)

/-- The last phase of a reload changes what no slot is for. -/
theorem intent_applyReload (w : Stack) (config : ValidConfig) (plan : List ServiceName)
    (name : ServiceName) :
    (w.applyReload config plan).slots[name]?.map Intent =
      (w.wireReload config plan).slots[name]?.map Intent := by
  refine KeyedFold.view_foldl_eq (v := fun k (s : Stack) => s.slots[k]?.map Intent)
    (fun s j k hne => by rw [getElem?_spawnAdded_of_ne hne.symm]) fun s hview _ => ?_
  rw [← hview]
  cases hs : s.slots[name]? with
  | none => simp only [spawnAdded, hs, Option.map_none]
  | some slot =>
    simp only [spawnAdded, hs]
    split_ifs
    · rw [hs]
    · rw [spawn, TreeMap.getElem?_insert, if_pos rfl]
      rfl

/-- The first three phases decide what a slot is for. -/
theorem intent_of_core {core : Slot}
    (h : (w.wireReload config plan.1).coreAt name = some core) :
    (w.applyReload config plan.1).slots[name]?.map Intent = some (Intent core) := by
  rw [intent_applyReload]
  obtain ⟨slot, hs, rfl⟩ := Option.map_eq_some_iff.mp h
  rw [hs]
  rfl

/-- A service the plan adds gets its definition, and is restarted if it is still winding down. -/
theorem intent_added (hI : w.Inv) (h : name ∈ plan.1) (hadded : w.isAdded name)
    (hservice : config.1.services[name]? = some service) :
    (w.applyReload config plan.1).slots[name]?.map Intent =
      some (service, w.slots[name]?.isSome, false) := by
  have hcore : (w.wireReload config plan.1).coreAt name = addedCore service (w.coreAt name) :=
    coreAt_wireReload_added h hadded hservice
  cases hs : w.slots[name]? with
  | none =>
    rw [coreAt, coreAt, hs] at hcore
    rw [intent_of_core hcore]
    rfl
  | some slot =>
    have hretired : slot.retired := by simpa only [isAdded, hs] using hadded
    obtain ⟨task, ht, -⟩ := hI.flags_asked name slot hs (.inr (.inr hretired))
    rw [coreAt_of_slot hs] at hcore
    rw [intent_of_core hcore]
    simp [Intent, Slot.core, hI.stop_eq hs, ht]

/-- A service whose definition changed gets the new one, and is restarted if it has a task. -/
theorem intent_changed (hI : w.Inv) (h : name ∈ plan.1) (hchanged : w.isChanged config.1 name)
    (hservice : config.1.services[name]? = some service) :
    (w.applyReload config plan.1).slots[name]?.map Intent =
      some (service, (w.live name).isSome, false) := by
  have hadded : ¬ w.isAdded name := fun hadded => not_isChanged_of_isAdded hadded hchanged
  obtain ⟨slot, hs⟩ : ∃ slot, w.slots[name]? = some slot := by
    unfold isChanged at hchanged
    split at hchanged
    · exact ⟨_, ‹_›⟩
    · cases hchanged
  have hretired : slot.retired = false := by simpa [isAdded, hs] using hadded
  have hcore := coreAt_wireReload_changed (w := w) h hchanged hadded hservice
  rw [coreAt_of_slot hs, changedCore] at hcore
  rw [intent_of_core hcore, live_of_slot hs]
  simp only [Intent, Slot.core, hretired, hI.stop_eq hs, Option.some.injEq, Prod.mk.injEq,
    and_true, true_and]
  cases hhandle : slot.handle with
  | some task => rfl
  | none =>
    have hflag := hI.not_flagged hs hhandle
    simp only [Slot.Flagged, not_or, Bool.not_eq_true] at hflag
    simp [hflag.2.1]

/-- Any other planned service is left alone. -/
theorem intent_kept (h : name ∈ plan.1) (hadded : ¬ w.isAdded name)
    (hchanged : ¬ w.isChanged config.1 name) :
    (w.applyReload config plan.1).slots[name]?.map Intent = w.slots[name]?.map Intent := by
  obtain ⟨slot, hs⟩ : ∃ slot, w.slots[name]? = some slot := by
    unfold isAdded at hadded
    split at hadded
    · exact ⟨_, ‹_›⟩
    · exact absurd rfl hadded
  have hcore : (w.wireReload config plan.1).coreAt name = w.coreAt name :=
    coreAt_wireReload_kept h hchanged hadded
  rw [coreAt_of_slot hs] at hcore
  rw [intent_of_core hcore, hs]
  rfl

theorem converging_applyReload (hI : w.Inv) :
    Converging config.1 plan.1 (w.applyReload config plan.1) where
  planned {name} h := by
    obtain ⟨service, hservice, -⟩ := plan.exists_service h
    have hmain : ∃ restart, (w.applyReload config plan.1).slots[name]?.map Intent =
        some (service, restart, false) := by
      by_cases hadded : w.isAdded name
      · exact ⟨_, intent_added hI h hadded hservice⟩
      by_cases hchanged : w.isChanged config.1 name
      · exact ⟨_, intent_changed hI h hchanged hservice⟩
      rw [intent_kept h hadded hchanged]
      unfold isAdded at hadded
      unfold isChanged at hchanged
      cases hs : w.slots[name]? with
      | none => simp [hs] at hadded
      | some slot =>
        simp only [hs, Bool.not_eq_true] at hadded
        simp only [hs, hservice, hadded, Bool.not_false, Bool.true_and, bne_iff_ne, ne_eq,
          Option.some.injEq, not_not] at hchanged
        exact ⟨slot.restartWhenStopped, by simp [Intent, hadded, hchanged]⟩
    obtain ⟨restart, hmain⟩ := hmain
    obtain ⟨slot, hs, hintent⟩ := Option.map_eq_some_iff.mp hmain
    simp only [Intent, Prod.mk.injEq] at hintent
    exact ⟨slot, hs, hintent.2.2, hintent.1 ▸ hservice⟩
  unplanned {name slot} h hs := by
    have hcore := coreAt_wireReload_removed (w := w) h
    have hnone := intent_applyReload w config plan.1 name
    rw [hs, Option.map_some] at hnone
    obtain ⟨slot', hs', hintent⟩ := Option.map_eq_some_iff.mp hnone.symm
    rw [coreAt_of_slot hs'] at hcore
    have hretired : slot'.core.retired := by
      unfold removedCore at hcore
      split at hcore
      · split_ifs at hcore
        rw [Option.some.inj hcore]
      · cases hcore
    simp only [Intent, Prod.mk.injEq] at hintent
    rw [← hintent.2.2]
    exact hretired

theorem Converging.of_slots_eq (h : Converging config.1 plan.1 w) (hslots : w'.slots = w.slots) :
    Converging config.1 plan.1 w' :=
  ⟨fun hname => hslots ▸ h.planned hname, fun hname hs => h.unplanned hname (hslots ▸ hs)⟩

/-- Reports do not disturb the convergence. -/
theorem Converging.step (h : Converging config.1 plan.1 w) (hI : w.Inv) {action : StackAction}
    (hstep : w.step action = some w') (hcontrol : action ≠ .control) :
    Converging config.1 plan.1 w' := by
  by_cases hreport : action = .report
  · subst hreport
    obtain ⟨_, report, _, slot, _, _, -, hs, -, heffect⟩ := hI.step_report hstep
    cases heffect with
    | removed hretired =>
      constructor
      · intro name hname
        obtain ⟨slot', hs', hr, hservice⟩ := h.planned hname
        have hne : name ≠ report.service := by
          rintro rfl
          obtain rfl := Option.some.inj (hs.symm.trans hs')
          rw [hretired] at hr
          cases hr
        exact ⟨slot', (TreeMap.getElem?_erase_of_ne hne).trans hs', hr, hservice⟩
      · intro name slot' hname hs'
        rw [TreeMap.getElem?_erase] at hs'
        split_ifs at hs'
        exact h.unplanned hname hs'
    | respawned hretired | stopped hretired =>
      constructor
      · intro name hname
        simp only [TreeMap.getElem?_insert]
        obtain ⟨slot', hs', hr, hservice⟩ := h.planned hname
        split_ifs with he
        · subst he
          obtain rfl := Option.some.inj (hs.symm.trans hs')
          exact ⟨_, rfl, hretired, hservice⟩
        · exact ⟨slot', hs', hr, hservice⟩
      · intro name slot' hname hs'
        rw [TreeMap.getElem?_insert] at hs'
        split_ifs at hs' with he
        · subst he
          exact absurd (h.unplanned hname hs) (by simp [hretired])
        · exact h.unplanned hname hs'
  · exact h.of_slots_eq (step_quiet hstep hcontrol hreport).slots_eq

theorem Converging.steps (h : Converging config.1 plan.1 w)
    (hw : stackSystem.Reachable AnyStep w) (hrun : stackSystem.Steps NoCommand w w') :
    Converging config.1 plan.1 w' :=
  hrun.invariant h fun hu hI hcontrol hstep =>
    hI.step (inv_of_reachable (hw.steps hu.anyStep)) hstep hcontrol

/-! ### Accepted reloads -/

/-- A reload that was answered with Reloaded was applied, to slots none of which was busy. -/
theorem reload_accepted (hw : stackSystem.Reachable AnyStep w) {ack : ℕ}
    (hhead : w.control.head? = some (.reload config plan ack)) (hstep : w.step .control = some w')
    {added changed removed : ℕ}
    (hanswer : (ack, .ok (.reloaded added changed removed)) ∈ w'.answers) :
    ∃ rest result, w.busySlot = none ∧
      w' = ({ w with control := rest }.applyReload config plan.1).send ack result := by
  have hacks := acksUnique_of_reachable hw
  obtain ⟨command, rest, hcontrol, rfl⟩ := step_control hstep
  rw [hcontrol, List.head?_cons, Option.some.injEq] at hhead
  subst hhead
  have hnew : ack ∉ w.answeredAcks :=
    hacks.queued_answered (by simp [queuedAcks, hcontrol, Control.intoAck])
  cases hbusy : w.busySlot with
  | none =>
    have hbusy' : { w with control := rest }.busySlot = none := hbusy
    exact ⟨rest, _, rfl, by rw [handleControl, reload_of_free hbusy']⟩
  | some busy =>
    have hbusy' : { w with control := rest }.busySlot = some busy := hbusy
    rw [handleControl, reload, hbusy'] at hanswer
    simp only [send, List.mem_append, List.mem_singleton, Prod.mk.injEq, reduceCtorEq, and_false,
      or_false] at hanswer
    exact absurd (List.mem_map_of_mem (f := Prod.fst) hanswer) hnew

/-- Without a command, no slot gets busy. -/
theorem pendingKept_of_noCommand (hI : w.Inv) {action : StackAction}
    (hstep : w.step action = some w') (hcontrol : action ≠ .control) : PendingKept w w' := by
  by_cases hreport : action = .report
  · subst hreport
    obtain ⟨_, _, _, _, _, _, -, -, -, heffect⟩ := hI.step_report hstep
    intro other ack hack
    rw [heffect.pending.2.1] at hack
    split_ifs at hack
    exact hack
  · exact .of_slots_eq (step_quiet hstep hcontrol hreport).slots_eq

theorem busySlot_eq_none_of_kept (h : w.busySlot = none) (hkept : PendingKept w w') :
    w'.busySlot = none := by
  rw [busySlot_eq_none] at h ⊢
  intro name slot hs
  rw [Option.eq_none_iff_forall_ne_some]
  intro ack hack
  have hold := hkept name ack ((pendingAt_of_slot hs).trans hack)
  obtain ⟨slot', hs', hack'⟩ := Option.bind_eq_some_iff.mp hold
  rw [h name slot' hs'] at hack'
  cases hack'

theorem noCommand_busySlot (hw : stackSystem.Reachable AnyStep w) (h : w.busySlot = none)
    (hrun : stackSystem.Steps NoCommand w w') : w'.busySlot = none :=
  hrun.invariant (I := fun u => u.busySlot = none) h fun hu hI hcontrol hstep =>
    busySlot_eq_none_of_kept hI
      (pendingKept_of_noCommand (inv_of_reachable (hw.steps hu.anyStep)) hstep hcontrol)

/-! ### A second reload -/

theorem Converging.diff_eq (h : Converging config.1 plan.1 w) :
    (w.diff config.1 plan.1).added = [] ∧ (w.diff config.1 plan.1).changed = [] := by
  constructor
  · rw [List.eq_nil_iff_forall_not_mem]
    intro name hmem
    obtain ⟨hname, hadded⟩ := mem_diff_added.mp hmem
    obtain ⟨slot, hs, hretired, -⟩ := h.planned hname
    simp [isAdded, hs, hretired] at hadded
  · rw [List.eq_nil_iff_forall_not_mem]
    intro name hmem
    obtain ⟨hname, hchanged⟩ := mem_diff_changed.mp hmem
    obtain ⟨slot, hs, hretired, hservice⟩ := h.planned hname
    simp [isChanged, hs, hretired, hservice] at hchanged

/-- What is left to remove is what is retired. -/
theorem Converging.removed_eq_nil_iff (h : Converging config.1 plan.1 w) :
    (w.diff config.1 plan.1).removed = [] ↔
      ∀ (name : ServiceName) (slot : Slot), w.slots[name]? = some slot → slot.retired = false := by
  rw [List.eq_nil_iff_forall_not_mem]
  constructor
  · intro hnone name slot hs
    have hname : name ∈ plan.1 := by
      by_contra hname
      exact hnone name (mem_diff_removed.mpr ⟨⟨slot, hs⟩, hname⟩)
    obtain ⟨slot', hs', hretired, -⟩ := h.planned hname
    rwa [Option.some.inj (hs.symm.trans hs')]
  · intro hall name hmem
    obtain ⟨⟨slot, hs⟩, hname⟩ := mem_diff_removed.mp hmem
    have hretired := h.unplanned hname hs
    rw [hall name slot hs] at hretired
    cases hretired

/-- A reload of nothing only wires the dependencies anew. -/
theorem applyReload_of_diff_nil {plan : List ServiceName}
    (hadded : (w.diff config.1 plan).added = [])
    (hchanged : (w.diff config.1 plan).changed = [])
    (hremoved : (w.diff config.1 plan).removed = []) :
    w.applyReload config plan = { w with config := config, plan := plan }.rewireDependencies := by
  simp only [applyReload, wireReload, hadded, hchanged, hremoved, List.foldl_nil]

/-- **A second reload.** From an accepted reload on, and without another command in between, a
second reload with the same configuration and plan changes nothing, is answered with three zeros,
asks no task to stop and spawns none, exactly when no slot is retired at that point: a service
that the first reload removed and that is still winding down is removed, and asked to stop, once
more. -/
theorem second_reload_iff {w₁ w₂ w₃ : Stack} {config' : ValidConfig}
    {plan' : StartPlan config'.1} {ack ack' added changed removed : ℕ}
    (hw : stackSystem.Reachable AnyStep w)
    (hhead : w.control.head? = some (.reload config plan ack))
    (hstep : w.step .control = some w₁)
    (hanswer : (ack, .ok (.reloaded added changed removed)) ∈ w₁.answers)
    (hrun : stackSystem.Steps NoCommand w₁ w₂)
    (hhead' : w₂.control.head? = some (.reload config' plan' ack'))
    (hconfig : config'.1 = config.1) (hplan : plan'.1 = plan.1)
    (hstep' : w₂.step .control = some w₃) :
    (w₃.answersTo ack' = [.ok (.reloaded 0 0 0)] ∧ w₃.requests = w₂.requests ∧
        w₃.tasks = w₂.tasks ∧ ∀ name, w₃.coreAt name = w₂.coreAt name) ↔
      ∀ (name : ServiceName) (slot : Slot), w₂.slots[name]? = some slot → slot.retired = false := by
  obtain rfl : config' = config := Subtype.ext hconfig
  obtain rfl : plan' = plan := Subtype.ext hplan
  have hw₁ : stackSystem.Reachable AnyStep w₁ := hw.step (a := .control) trivial hstep
  have hw₂ := hw₁.steps hrun.anyStep
  -- What the first reload leaves: slots that converge, none of them busy.
  obtain ⟨rest, result, hfree, rfl⟩ := reload_accepted hw hhead hstep hanswer
  have hI := (inv_of_reachable hw).takeCommand rest
  have hconv₁ : Converging config'.1 plan'.1
      (({ w with control := rest }.applyReload config' plan'.1).send ack result) :=
    (converging_applyReload hI).of_slots_eq rfl
  have hconv := hconv₁.steps hw₁ hrun
  have hfree₂ : w₂.busySlot = none := by
    refine noCommand_busySlot hw₁ (busySlot_eq_none_of_kept (w := { w with control := rest })
      hfree ?_) hrun
    have hkept := pendingKept_reload { w with control := rest } config' plan'.1
    have hbusy : { w with control := rest }.busySlot = none := hfree
    rw [reload_of_free hbusy] at hkept
    exact hkept.trans (.of_slots_eq rfl)
  -- What the second one does.
  have hnew : ack' ∉ w₂.answeredAcks := (acksUnique_of_reachable hw₂).queued_answered
    (List.mem_map.mpr ⟨_, List.mem_of_head? hhead', rfl⟩)
  obtain ⟨command, rest', hcontrol, rfl⟩ := step_control hstep'
  rw [hcontrol, List.head?_cons, Option.some.injEq] at hhead'
  subst hhead'
  have hbusy : { w₂ with control := rest' }.busySlot = none := hfree₂
  have hconv' : Converging config'.1 plan'.1 { w₂ with control := rest' } := hconv.of_slots_eq rfl
  obtain ⟨hadded, hchanged⟩ := hconv'.diff_eq
  have hframe := ops_applyReload ((inv_of_reachable hw₂).takeCommand rest') config' plan'
  rw [handleControl, reload_of_free hbusy]
  have hans : ∀ {w₄ : Stack} {result : Verdict}, w₄.answers = w₂.answers →
      (w₄.send ack' result).answersTo ack' = [result] := fun h =>
    answersTo_append hnew (by rw [send, h])
  rw [hans hframe.frame.answers_eq, hadded, hchanged, List.length_nil]
  refine Iff.trans ?_ hconv'.removed_eq_nil_iff
  constructor
  · rintro ⟨hzero, -⟩
    simpa using hzero
  · intro hremoved
    rw [applyReload_of_diff_nil hadded hchanged hremoved, hremoved]
    exact ⟨rfl, rfl, rfl, fun name => coreAt_rewireDependencies _ name⟩

/-- The second service's task ends, as it was asked to. -/
def secondEnd : StackAction := .finish 1 (.finished (.stopped .requested))

theorem second_reload_iff_reduced : ∃ w w' : Stack,
    w'.answersTo 1 = [.ok (.reloaded 0 0 0)] ∧ w'.requests = w.requests ∧ w'.tasks = w.tasks ∧
      ∀ name, w'.coreAt name = w.coreAt name := by
  have hrun : ((stackSystem.run sampleStack [.submit (.reload reducedConfig reducedPlan 0)]).bind
      fun w => (w.step .control).bind fun w₁ => (w₁.step secondEnd).bind fun u =>
        (u.step .report).bind fun v =>
          (v.step (.submit (.reload reducedConfig reducedPlan 1))).bind fun w₂ =>
            (w₂.step .control).map fun _ => decide
              (w.control.head? = some (.reload reducedConfig reducedPlan 0) ∧
                w₁.answers = [(0, .ok (.reloaded 0 0 1))] ∧
                w₂.control.head? = some (.reload reducedConfig reducedPlan 1) ∧
                ∀ entry ∈ w₂.slots.toList, entry.2.retired = false)) = some true := by
    decide +kernel
  obtain ⟨w, hw, hrun⟩ := Option.bind_eq_some_iff.mp hrun
  obtain ⟨w₁, hw₁, hrun⟩ := Option.bind_eq_some_iff.mp hrun
  obtain ⟨u, hu, hrun⟩ := Option.bind_eq_some_iff.mp hrun
  obtain ⟨v, hv, hrun⟩ := Option.bind_eq_some_iff.mp hrun
  obtain ⟨w₂, hw₂, hrun⟩ := Option.bind_eq_some_iff.mp hrun
  obtain ⟨w₃, hw₃, hfacts⟩ := Option.map_eq_some_iff.mp hrun
  obtain ⟨hhead, hanswer, hhead', hretired⟩ := of_decide_eq_true hfacts
  have hsteps : stackSystem.Steps NoCommand w₁ w₂ :=
    (((TransitionSystem.Steps.refl w₁).tail (.intro (a := secondEnd) nofun hu)).tail
      (.intro (a := .report) nofun hv)).tail (.intro (a := .submit _) nofun hw₂)
  have hreach : stackSystem.Reachable AnyStep w :=
    (TransitionSystem.Reachable.initial init_sampleStack).steps (TransitionSystem.steps_of_run hw)
  exact ⟨w₂, w₃, (second_reload_iff hreach hhead hw₁ (hanswer ▸ List.mem_singleton_self _) hsteps
    hhead' rfl rfl hw₃).mpr fun name slot hs =>
      hretired (name, slot) (ExtTreeMap.mem_toList_iff_getElem?_eq_some.mpr hs)⟩

/-- Two equal reloads in a row that drop a service: the second one counts the service as removed
again, and asks its task to stop a second time. -/
theorem second_reload_asks_again : ∃ w w₁ w₂ w₃ : Stack,
    stackSystem.Reachable AnyStep w ∧
      w.control.head? = some (.reload reducedConfig reducedPlan 0) ∧
      w.step .control = some w₁ ∧ (0, .ok (.reloaded 0 0 1)) ∈ w₁.answers ∧
      stackSystem.Steps NoCommand w₁ w₂ ∧
      w₂.control.head? = some (.reload reducedConfig reducedPlan 1) ∧
      w₂.step .control = some w₃ ∧ w₃.answersTo 1 = [.ok (.reloaded 0 0 1)] ∧
      w₂.requests = [(1, .requested)] ∧ w₃.requests = [(1, .requested), (1, .requested)] := by
  have hrun : ((stackSystem.run sampleStack [.submit (.reload reducedConfig reducedPlan 0)]).bind
      fun w => (w.step .control).bind fun w₁ =>
        (w₁.step (.submit (.reload reducedConfig reducedPlan 1))).bind fun w₂ =>
          (w₂.step .control).map fun w₃ => decide
            (w.control.head? = some (.reload reducedConfig reducedPlan 0) ∧
              w₁.answers = [(0, .ok (.reloaded 0 0 1))] ∧
              w₂.control.head? = some (.reload reducedConfig reducedPlan 1) ∧
              w₃.answersTo 1 = [.ok (.reloaded 0 0 1)] ∧
              w₂.requests = [(1, .requested)] ∧
              w₃.requests = [(1, .requested), (1, .requested)])) = some true := by
    decide +kernel
  obtain ⟨w, hw, hrun⟩ := Option.bind_eq_some_iff.mp hrun
  obtain ⟨w₁, hw₁, hrun⟩ := Option.bind_eq_some_iff.mp hrun
  obtain ⟨w₂, hw₂, hrun⟩ := Option.bind_eq_some_iff.mp hrun
  obtain ⟨w₃, hw₃, hfacts⟩ := Option.map_eq_some_iff.mp hrun
  obtain ⟨hhead, hanswer, hhead', hagain, hfirst, hsecond⟩ := of_decide_eq_true hfacts
  exact ⟨w, w₁, w₂, w₃, (TransitionSystem.Reachable.initial init_sampleStack).steps
    (TransitionSystem.steps_of_run hw), hhead, hw₁, hanswer ▸ List.mem_singleton_self _,
    (TransitionSystem.Steps.refl w₁).tail (.intro (a := .submit _) nofun hw₂), hhead', hw₃, hagain,
    hfirst, hsecond⟩

/-! ### What the reports after a reload do -/

/-- Since an earlier state, a task was spawned for the service, with the given definition. -/
def SpawnedSince (w w' : Stack) (name : ServiceName) (service : Service) : Prop :=
  ∃ task spawned, w.tasks.length ≤ task ∧ w'.tasks[task]? = some spawned ∧
    spawned.service = service ∧ service.name = name

theorem SpawnedSince.mono {w'' : Stack} (h : SpawnedSince w w' name service)
    (hgrows : w'.tasks <+: w''.tasks) : SpawnedSince w w'' name service := by
  obtain ⟨task, spawned, hle, hs, hservice⟩ := h
  refine ⟨task, spawned, hle, ?_, hservice⟩
  rw [getElem?_of_isPrefix hgrows (List.getElem?_eq_some_iff.mp hs).1, hs]

/-- A service that is due to be restarted, or was. -/
def DueOrSpawned (w : Stack) (name : ServiceName) (service : Service) (w' : Stack) : Prop :=
  (∃ slot, w'.slots[name]? = some slot ∧ slot.restartWhenStopped) ∨ SpawnedSince w w' name service

theorem DueOrSpawned.step {u v : Stack} (h : DueOrSpawned w name service u) (hI : u.Inv)
    (hconv : Converging config.1 plan.1 u) (hname : name ∈ plan.1)
    (hservice : config.1.services[name]? = some service) (hle : w.tasks.length ≤ u.tasks.length)
    {action : StackAction} (hcontrol : action ≠ .control) (hstep : u.step action = some v) :
    DueOrSpawned w name service v := by
  obtain ⟨slot, hs, hrestart⟩ | h := h
  swap
  · exact .inr (h.mono (step_grows hI hstep).1)
  by_cases hreport : action = .report
  · subst hreport
    obtain ⟨_, report, _, slot', _, _, -, hs', -, heffect⟩ := hI.step_report hstep
    by_cases he : name = report.service
    · subst he
      obtain rfl := Option.some.inj (hs.symm.trans hs')
      obtain ⟨slot', hs', hretired, hdef⟩ := hconv.planned hname
      obtain rfl := Option.some.inj (hs.symm.trans hs')
      obtain rfl := Option.some.inj (hdef.symm.trans hservice)
      cases heffect with
      | removed hr => simp [hretired] at hr
      | stopped _ hr => simp [hrestart] at hr
      | respawned =>
        exact .inr ⟨u.tasks.length, _, hle, List.getElem?_concat_length, rfl, hI.slot_name hs⟩
    · refine .inl ⟨slot, ?_, hrestart⟩
      cases heffect with
      | removed => exact (TreeMap.getElem?_erase_of_ne he).trans hs
      | respawned | stopped => exact (TreeMap.getElem?_insert_of_ne he _).trans hs
  · exact .inl ⟨slot, (step_quiet hstep hcontrol hreport).slots_eq ▸ hs, hrestart⟩

/-- Since an earlier state, the service has kept the task it had, or lost it, and got no other. -/
structure LeftAlone (w : Stack) (name : ServiceName) (task : Option ℕ) (w' : Stack) : Prop where
  live_eq : ∀ {t : ℕ}, w'.live name = some t → task = some t ∧ t ∉ w'.asked
  not_spawned : ∀ {t : ℕ} {spawned : Task}, w.tasks.length ≤ t → w'.tasks[t]? = some spawned →
    spawned.service.name ≠ name

theorem noCommand_requests {u v : Stack} (hI : u.Inv) {action : StackAction}
    (hcontrol : action ≠ .control) (hstep : u.step action = some v) : v.requests = u.requests := by
  by_cases hreport : action = .report
  · subst hreport
    obtain ⟨_, _, _, _, _, _, -, -, -, heffect⟩ := hI.step_report hstep
    cases heffect <;> rfl
  · exact (step_quiet hstep hcontrol hreport).requests_eq

theorem LeftAlone.step {u v : Stack} {task : Option ℕ} (h : LeftAlone w name task u) (hI : u.Inv)
    {action : StackAction} (hcontrol : action ≠ .control) (hstep : u.step action = some v) :
    LeftAlone w name task v := by
  have hasked : v.asked = u.asked := by
    rw [asked, asked, noCommand_requests hI hcontrol hstep]
  by_cases hreport : action = .report
  swap
  · have hquiet := step_quiet hstep hcontrol hreport
    refine ⟨fun ht => ?_, fun hle hs => h.not_spawned hle (hquiet.tasks_eq ▸ hs)⟩
    rw [hasked]
    exact h.live_eq (live_congr hquiet.slots_eq name ▸ ht)
  subst hreport
  obtain ⟨_, report, _, slot, _, _, -, hs, hhandle, heffect⟩ := hI.step_report hstep
  by_cases he : name = report.service
  · -- The task was not asked to stop, so nothing is to be done when it ends.
    subst he
    have hnot := (h.live_eq ((live_of_slot hs).trans hhandle)).2
    have hflag : ¬ slot.Flagged := by
      intro hf
      obtain ⟨t, ht, ha⟩ := hI.flags_asked _ slot hs hf
      exact hnot (Option.some.inj (hhandle.symm.trans ht) ▸ ha)
    cases heffect with
    | removed hr => exact absurd (.inr (.inr hr)) hflag
    | respawned _ hr => exact absurd (.inr (.inl hr)) hflag
    | stopped =>
      refine ⟨fun ht => ?_, h.not_spawned⟩
      rw [live_insert (w := u) rfl, if_pos rfl] at ht
      cases ht
  · cases heffect with
    | removed =>
      refine ⟨fun ht => ?_, h.not_spawned⟩
      rw [live_erase (w := u) rfl, if_neg he] at ht
      exact h.live_eq ht
    | stopped =>
      refine ⟨fun ht => ?_, h.not_spawned⟩
      rw [live_insert (w := u) rfl, if_neg he] at ht
      exact h.live_eq ht
    | respawned =>
      refine ⟨fun ht => ?_, fun hle hs' => ?_⟩
      · rw [live_insert (w := u) rfl, if_neg he] at ht
        exact h.live_eq ht
      · have hnew : (u.spawn report.service slot).tasks[_]? = some _ := hs'
        obtain hold | ⟨-, rfl⟩ := getElem?_spawn_tasks.mp hnew
        · exact h.not_spawned hle hold
        · rw [hI.slot_name hs]
          exact Ne.symm he

/-! ### Right after a reload -/

/-- A service the plan adds is spawned at once, or is due to be restarted. -/
theorem dueOrSpawned_added (hI : w.Inv) (hname : name ∈ plan.1) (hadded : w.isAdded name)
    (hservice : config.1.services[name]? = some service) (hkey : service.name = name) :
    DueOrSpawned w name service (w.applyReload config plan.1) := by
  cases hs : w.slots[name]? with
  | some slot =>
    have hintent := intent_added hI hname hadded hservice
    obtain ⟨slot', hs', hintent⟩ := Option.map_eq_some_iff.mp hintent
    simp only [Intent, hs, Option.isSome_some, Prod.mk.injEq] at hintent
    exact .inl ⟨slot', hs', hintent.2.1⟩
  | none =>
    have hcore : (w.wireReload config plan.1).coreAt name = addedCore service (w.coreAt name) :=
      coreAt_wireReload_added hname hadded hservice
    have hnone : w.coreAt name = none := by rw [coreAt, hs, Option.map_none]
    rw [hnone, addedCore] at hcore
    obtain ⟨slot, hslot, hcore⟩ := Option.map_eq_some_iff.mp hcore
    simp only [Slot.core, Slot.mk.injEq] at hcore
    obtain ⟨task, hle, htask, -⟩ := slot_applyReload_of_idle hslot
      (mem_diff_added.mpr ⟨hname, hadded⟩) hcore.2.2.2.2.2.1 hcore.2.2.2.2.1
    rw [tasks_wireReload] at hle
    exact .inr ⟨task, _, hle, htask, hcore.1, hkey⟩

/-- A live service that was changed is due to be restarted. -/
theorem dueOrSpawned_changed (hI : w.Inv) (hname : name ∈ plan.1)
    (hchanged : w.isChanged config.1 name) (hlive : (w.live name).isSome)
    (hservice : config.1.services[name]? = some service) :
    DueOrSpawned w name service (w.applyReload config plan.1) := by
  have hintent := intent_changed hI hname hchanged hservice
  obtain ⟨slot, hs, hintent⟩ := Option.map_eq_some_iff.mp hintent
  simp only [Intent, hlive, Prod.mk.injEq] at hintent
  exact .inl ⟨slot, hs, hintent.2.1⟩

/-- A planned service that is not added is not given a task by the reload. -/
theorem slot_applyReload_of_not_added (hadded : ¬ w.isAdded name) :
    (w.applyReload config plan.1).slots[name]? = (w.wireReload config plan.1).slots[name]? :=
  slot_applyReload_of_flag fun _ _ hmem => absurd (mem_diff_added.mp hmem).2 hadded

theorem not_spawned_of_not_added (hI : w.Inv) (hadded : ¬ w.isAdded name) {task : ℕ}
    {spawned : Task} (hle : w.tasks.length ≤ task)
    (hs : (w.applyReload config plan.1).tasks[task]? = some spawned) :
    spawned.service.name ≠ name := by
  rintro rfl
  exact hadded (mem_diff_added.mp (added_of_spawned hI hs hle)).2

/-- A service that was stopped and merely changed is left alone. -/
theorem leftAlone_stopped (hI : w.Inv) (hname : name ∈ plan.1)
    (hchanged : w.isChanged config.1 name) (hidle : w.live name = none) :
    LeftAlone w name none (w.applyReload config plan.1) := by
  have hadded : ¬ w.isAdded name := fun hadded => not_isChanged_of_isAdded hadded hchanged
  refine ⟨fun ht => ?_, not_spawned_of_not_added hI hadded⟩
  obtain ⟨service, hservice, -⟩ := plan.exists_service hname
  have hcore := coreAt_wireReload_changed (w := w) hname hchanged hadded hservice
  obtain ⟨slot', hs', hhandle⟩ := exists_slot_of_live ht
  rw [slot_applyReload_of_not_added hadded] at hs'
  rw [coreAt_of_slot hs'] at hcore
  unfold changedCore at hcore
  split at hcore
  · rename_i slot hslot
    obtain ⟨slot, hs, rfl⟩ := Option.map_eq_some_iff.mp hslot
    have hh := congrArg Slot.handle (Option.some.inj hcore)
    rw [live_of_slot hs] at hidle
    simp only [Slot.core, hhandle, hidle] at hh
    cases hh
  · cases hcore

/-- A live service that is not changed, and whose task was not asked to stop, is left alone. -/
theorem leftAlone_kept (hI : w.Inv) (hname : name ∈ plan.1) (hs : w.slots[name]? = some slot)
    (hservice : config.1.services[name]? = some slot.service) {task : ℕ}
    (hhandle : slot.handle = some task) (hasked : task ∉ w.asked) :
    LeftAlone w name (some task) (w.applyReload config plan.1) ∧
      task ∉ (w.applyReload config plan.1).asked := by
  have hretired : slot.retired = false := by
    by_contra hr
    obtain ⟨t, ht, ha⟩ := hI.flags_asked name slot hs (.inr (.inr (by simpa using hr)))
    exact hasked (Option.some.inj (hhandle.symm.trans ht) ▸ ha)
  have hadded : ¬ w.isAdded name := by simp [isAdded, hs, hretired]
  have hchanged : ¬ w.isChanged config.1 name := by simp [isChanged, hs, hservice]
  -- The tasks a reload asks to stop are those of other services.
  have hask : task ∉ (w.applyReload config plan.1).asked := by
    intro hask
    obtain hold | ⟨name', slot', hs', hstop, hwhy⟩ := asked_applyReload hask
    · exact hasked hold
    · obtain ⟨spawned, ht, hn, -⟩ := hI.live_iff.mp ((live_of_slot hs).trans hhandle)
      obtain ⟨spawned', ht', hn', -⟩ := hI.live_iff.mp
        ((live_of_slot hs').trans ((hI.stop_eq hs').symm.trans hstop))
      obtain rfl := Option.some.inj (ht.symm.trans ht')
      obtain rfl := hn.symm.trans hn'
      exact hwhy.elim (fun h => h hname) hchanged
  refine ⟨⟨fun {t} ht => ?_, not_spawned_of_not_added hI hadded⟩, hask⟩
  obtain ⟨slot', hs', hhandle'⟩ := exists_slot_of_live ht
  rw [slot_applyReload_of_not_added hadded] at hs'
  have hcore : (w.wireReload config plan.1).coreAt name = w.coreAt name :=
    coreAt_wireReload_kept hname hchanged hadded
  rw [coreAt_of_slot hs', coreAt_of_slot hs, Option.some.injEq] at hcore
  have hsame : slot'.handle = slot.handle := by simpa only [Slot.core] using congrArg Slot.handle hcore
  obtain rfl : task = t := Option.some.inj (hhandle.symm.trans (hsame.symm.trans hhandle'))
  exact ⟨rfl, hask⟩

/-! ### Once the tasks have reported -/

/-- What a reload comes to, between the state it is handled in and the state in which the tasks
that were asked to stop have reported. -/
structure Converged (config : Config) (plan : List ServiceName) (w w' : Stack) : Prop where
  names : ∀ name, name ∈ w'.slots ↔ name ∈ plan
  not_retired : ∀ {name : ServiceName} {slot : Slot},
    w'.slots[name]? = some slot → slot.retired = false
  definition : ∀ {name : ServiceName} {slot : Slot},
    w'.slots[name]? = some slot → config.services[name]? = some slot.service
  added_spawned : ∀ {name : ServiceName} {service : Service},
    name ∈ (w.diff config plan).added → config.services[name]? = some service →
      SpawnedSince w w' name service
  changed_respawned : ∀ {name : ServiceName} {service : Service},
    name ∈ (w.diff config plan).changed → (w.live name).isSome →
      config.services[name]? = some service → SpawnedSince w w' name service
  stopped_kept : ∀ {name : ServiceName}, name ∈ (w.diff config plan).changed →
    w.live name = none → w'.live name = none ∧ ∀ service, ¬ SpawnedSince w w' name service
  untouched : ∀ {name : ServiceName} {slot : Slot} {task : ℕ}, name ∈ plan →
    w.slots[name]? = some slot → config.services[name]? = some slot.service →
      slot.handle = some task → task ∉ w.asked →
        task ∉ w'.asked ∧ ∀ service, ¬ SpawnedSince w w' name service

theorem DueOrSpawned.steps {u v : Stack} (h : DueOrSpawned w name service u)
    (hu : stackSystem.Reachable AnyStep u) (hconv : Converging config.1 plan.1 u)
    (hname : name ∈ plan.1) (hservice : config.1.services[name]? = some service)
    (hle : w.tasks.length ≤ u.tasks.length) (hrun : stackSystem.Steps NoCommand u v) :
    DueOrSpawned w name service v :=
  hrun.invariant h fun hsteps hI hcontrol hstep =>
    hI.step (inv_of_reachable (hu.steps hsteps.anyStep)) (hconv.steps hu hsteps) hname hservice
      (hle.trans (steps_grow hu hsteps.anyStep).1.length_le) hcontrol hstep

theorem LeftAlone.steps {u v : Stack} {task : Option ℕ} (h : LeftAlone w name task u)
    (hu : stackSystem.Reachable AnyStep u) (hrun : stackSystem.Steps NoCommand u v) :
    LeftAlone w name task v :=
  hrun.invariant h fun hsteps hI hcontrol hstep =>
    hI.step (inv_of_reachable (hu.steps hsteps.anyStep)) hcontrol hstep

theorem noCommand_asked {u v : Stack} (hu : stackSystem.Reachable AnyStep u)
    (hrun : stackSystem.Steps NoCommand u v) : v.asked = u.asked :=
  hrun.invariant (I := fun s => s.asked = u.asked) rfl fun hsteps hI hcontrol hstep => by
    rw [← hI, asked, asked, noCommand_requests (inv_of_reachable (hu.steps hsteps.anyStep))
      hcontrol hstep]

theorem LeftAlone.not_spawnedSince {u : Stack} {task : Option ℕ} (h : LeftAlone w name task u)
    (service : Service) : ¬ SpawnedSince w u name service := by
  rintro ⟨t, spawned, hle, hs, rfl, hn⟩
  exact h.not_spawned hle hs hn

/-- **A reload converges.** Once every task that was asked to stop has reported and the reports
were taken, and when no other command was taken in between, the slots are the planned ones with the
new definitions, and every service was spawned, respawned, kept stopped or left alone as the
difference between the configurations asks for. -/
theorem converged {w₁ w₂ : Stack} {ack added changed removed : ℕ}
    (hw : stackSystem.Reachable AnyStep w)
    (hhead : w.control.head? = some (.reload config plan ack))
    (hstep : w.step .control = some w₁)
    (hanswer : (ack, .ok (.reloaded added changed removed)) ∈ w₁.answers)
    (hrun : stackSystem.Steps NoCommand w₁ w₂)
    (hdone : ∀ task ∈ w₂.asked, ∀ name, ¬ w₂.Outstanding task name) :
    Converged config.1 plan.1 w w₂ := by
  have hw₁ : stackSystem.Reachable AnyStep w₁ := hw.step (a := .control) trivial hstep
  have hI₂ := inv_of_reachable (hw₁.steps hrun.anyStep)
  obtain ⟨rest, result, -, rfl⟩ := reload_accepted hw hhead hstep hanswer
  have hI : { w with control := rest }.Inv := (inv_of_reachable hw).takeCommand rest
  have hops := (ops_applyReload hI config plan).frame
  have hconv₁ : Converging config.1 plan.1
      (({ w with control := rest }.applyReload config plan.1).send ack result) :=
    (converging_applyReload hI).of_slots_eq rfl
  have hconv := hconv₁.steps hw₁ hrun
  -- Nothing is left to be done on any slot.
  have hflags : ∀ {name : ServiceName} {slot : Slot}, w₂.slots[name]? = some slot →
      ¬ slot.Flagged := by
    intro name slot hs hf
    obtain ⟨task, ht, ha⟩ := hI₂.flags_asked name slot hs hf
    exact hdone task ha name (hI₂.live_iff.mp ((live_of_slot hs).trans ht))
  have hplanned : ∀ {name : ServiceName} {slot : Slot}, w₂.slots[name]? = some slot →
      name ∈ plan.1 := by
    intro name slot hs
    by_contra hname
    exact hflags hs (.inr (.inr (hconv.unplanned hname hs)))
  have hspawned : ∀ {name : ServiceName} {service : Service}, name ∈ plan.1 →
      config.1.services[name]? = some service →
      DueOrSpawned { w with control := rest } name service
        ({ w with control := rest }.applyReload config plan.1) →
      SpawnedSince w w₂ name service := by
    intro name service hname hservice hdue
    have hdue₁ : DueOrSpawned { w with control := rest } name service
      (({ w with control := rest }.applyReload config plan.1).send ack result) := hdue
    obtain ⟨slot, hs, hr⟩ | hspawn :=
      hdue₁.steps hw₁ hconv₁ hname hservice hops.tasks_grow.length_le hrun
    · exact absurd (.inr (.inl hr)) (hflags hs)
    · exact hspawn
  have hleft : ∀ {name : ServiceName} {task : Option ℕ},
      LeftAlone { w with control := rest } name task
        ({ w with control := rest }.applyReload config plan.1) →
      LeftAlone w name task w₂ := by
    intro name task h
    have h₁ : LeftAlone { w with control := rest } name task
      (({ w with control := rest }.applyReload config plan.1).send ack result) :=
      ⟨h.live_eq, h.not_spawned⟩
    have h₂ := h₁.steps hw₁ hrun
    exact ⟨h₂.live_eq, h₂.not_spawned⟩
  constructor
  case names =>
    intro name
    rw [← ExtTreeMap.isSome_getElem?_iff_mem, Option.isSome_iff_exists]
    constructor
    · rintro ⟨slot, hs⟩
      exact hplanned hs
    · intro hname
      obtain ⟨slot, hs, -⟩ := hconv.planned hname
      exact ⟨slot, hs⟩
  case not_retired =>
    intro name slot hs
    by_contra hr
    exact hflags hs (.inr (.inr (by simpa using hr)))
  case definition =>
    intro name slot hs
    obtain ⟨slot', hs', -, hservice⟩ := hconv.planned (hplanned hs)
    rwa [Option.some.inj (hs.symm.trans hs')]
  case added_spawned =>
    intro name service hmem hservice
    obtain ⟨hname, hadded⟩ := mem_diff_added.mp hmem
    exact hspawned hname hservice
      (dueOrSpawned_added hI hname hadded hservice (config.2.name_eq hservice))
  case changed_respawned =>
    intro name service hmem hlive hservice
    obtain ⟨hname, hchanged⟩ := mem_diff_changed.mp hmem
    exact hspawned hname hservice (dueOrSpawned_changed hI hname hchanged hlive hservice)
  case stopped_kept =>
    intro name hmem hidle
    obtain ⟨hname, hchanged⟩ := mem_diff_changed.mp hmem
    have h := hleft (leftAlone_stopped hI hname hchanged hidle)
    refine ⟨?_, h.not_spawnedSince⟩
    rw [Option.eq_none_iff_forall_ne_some]
    intro t ht
    cases (h.live_eq ht).1
  case untouched =>
    intro name slot task hname hs hservice hhandle hasked
    obtain ⟨h, hask⟩ := leftAlone_kept hI hname hs hservice hhandle hasked
    refine ⟨?_, (hleft h).not_spawnedSince⟩
    rw [noCommand_asked hw₁ hrun]
    exact hask

theorem converged_reduced : ∃ w w' : Stack,
    Converged reducedConfig.1 reducedPlan.1 w w' ∧ ⟨"web"⟩ ∈ w.slots := by
  have hrun : ((stackSystem.run sampleStack [.submit (.reload reducedConfig reducedPlan 0)]).bind
      fun w => (w.step .control).bind fun w₁ => (w₁.step secondEnd).bind fun u =>
        (u.step .report).map fun w₂ => decide
          (w.control.head? = some (.reload reducedConfig reducedPlan 0) ∧
            w₁.answers = [(0, .ok (.reloaded 0 0 1))] ∧ ⟨"web"⟩ ∈ w.slots ∧
            w₂.asked = [1] ∧ w₂.finished = [1] ∧ w₂.reportQueue = [])) = some true := by
    decide +kernel
  obtain ⟨w, hw, hrun⟩ := Option.bind_eq_some_iff.mp hrun
  obtain ⟨w₁, hw₁, hrun⟩ := Option.bind_eq_some_iff.mp hrun
  obtain ⟨u, hu, hrun⟩ := Option.bind_eq_some_iff.mp hrun
  obtain ⟨w₂, hw₂, hfacts⟩ := Option.map_eq_some_iff.mp hrun
  obtain ⟨hhead, hanswer, hweb, hasked, hfinished, hqueue⟩ := of_decide_eq_true hfacts
  have hsteps : stackSystem.Steps NoCommand w₁ w₂ :=
    ((TransitionSystem.Steps.refl w₁).tail (.intro (a := secondEnd) nofun hu)).tail
      (.intro (a := .report) nofun hw₂)
  have hdone : ∀ task ∈ w₂.asked, ∀ name, ¬ w₂.Outstanding task name := by
    rintro task htask name ⟨_, -, -, hout⟩
    rw [hasked] at htask
    rw [hfinished, hqueue] at hout
    exact hout.elim (fun h => h htask) (by simp)
  exact ⟨w, w₂, converged ((TransitionSystem.Reachable.initial init_sampleStack).steps
    (TransitionSystem.steps_of_run hw)) hhead hw₁ (hanswer ▸ List.mem_singleton_self _) hsteps hdone,
    hweb⟩

end Stack

end Servicrab
