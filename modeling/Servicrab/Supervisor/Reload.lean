import Servicrab.Supervisor.Intent

/-!
# What a reload does to one slot

A reload goes through the slots in phases. Seen from one service, at most one of the first three
phases does something, and what it does depends on that service's slot only, up to the cell and
the dependencies of the slot; `Slot.core` is the slot without these. The last phase gives a task
to the slots that are new.

## Main definitions

* `Slot.core`, `Stack.coreAt`.
* `removedCore`, `addedCore`, `changedCore`: a slot after each of the first three phases.

## Main results

* `Stack.coreAt_wireReload_removed`, `Stack.coreAt_wireReload_added`,
  `Stack.coreAt_wireReload_changed`, `Stack.coreAt_wireReload_kept`.
* `Stack.slot_applyReload`: the last phase.
-/

open Std (ExtTreeMap)

namespace Servicrab

/-- What commands and reports go by in a slot: all of it but its dependencies and its cell. -/
def Slot.core (slot : Slot) : Slot := { slot with deps := [], shared := 0 }

/-- A slot whose service is not part of the plan: it goes away, at once when it is idle. -/
def removedCore : Option Slot → Option Slot
  | some slot =>
    if slot.stop.isSome then some { slot with retired := true, restartWhenStopped := false }
    else none
  | none => none

/-- A slot of a service that the plan adds: a new one, or one that comes back. -/
def addedCore (service : Service) : Option Slot → Option Slot
  | some slot => some { slot with
      retired := false, service := service, restartWhenStopped := slot.stop.isSome }
  | none => some
      { service := service, deps := [], shared := 0, stop := none, handle := none,
        restartWhenStopped := false, retired := false, pending := none }

/-- A slot whose service has another definition now. -/
def changedCore (service : Service) : Option Slot → Option Slot
  | some slot => some { slot with
      service := service, restartWhenStopped := slot.stop.isSome || slot.restartWhenStopped }
  | none => none

namespace Stack

variable {w w' : Stack} {name other : ServiceName} {slot slot' : Slot} {config : Config}
  {service : Service}

/-- The slot of a service, without its dependencies and its cell. -/
def coreAt (w : Stack) (name : ServiceName) : Option Slot := w.slots[name]?.map Slot.core

theorem coreAt_of_slot (hs : w.slots[name]? = some slot) : w.coreAt name = some slot.core := by
  rw [coreAt, hs, Option.map_some]

theorem coreAt_congr (h : w'.slots[name]? = w.slots[name]?) : w'.coreAt name = w.coreAt name := by
  rw [coreAt, coreAt, h]

theorem coreAt_setSlot : (w.setSlot name slot).coreAt name = some slot.core :=
  coreAt_of_slot (by rw [setSlot, TreeMap.getElem?_insert, if_pos rfl])

/-! ### One phase -/

theorem coreAt_removeService (w : Stack) (name : ServiceName) :
    (w.removeService name).coreAt name = removedCore (w.coreAt name) := by
  cases hs : w.slots[name]? with
  | none => rw [removeService_of_none hs, coreAt, hs]; rfl
  | some slot =>
    rw [coreAt_of_slot hs]
    cases hstop : slot.stop with
    | some stop =>
      rw [removeService_of_live hs hstop]
      refine Eq.trans coreAt_setSlot ?_
      simp [removedCore, Slot.core, hstop]
    | none =>
      rw [removeService_of_idle hs hstop, coreAt, TreeMap.getElem?_erase, if_pos rfl]
      simp [removedCore, Slot.core, hstop]

theorem coreAt_insertSlot : (w.insertSlot name service).coreAt name = addedCore service none := by
  simp only [coreAt, insertSlot, slots_debugAssert, cells_debugAssert, TreeMap.getElem?_insert,
    if_true]
  rfl

theorem coreAt_addService (hservice : config.services[name]? = some service) :
    (w.addService config name).coreAt name = addedCore service (w.coreAt name) := by
  cases hs : w.slots[name]? with
  | none =>
    rw [addService_of_none hservice hs, coreAt_insertSlot, coreAt, hs]
    rfl
  | some slot =>
    simp only [addService, hservice, hs, coreAt_setSlot, coreAt_of_slot hs]
    rfl

theorem coreAt_changeService (hservice : config.services[name]? = some service) :
    (w.changeService config name).coreAt name = changedCore service (w.coreAt name) := by
  cases hs : w.slots[name]? with
  | none => simp only [changeService, hservice, hs, coreAt, Option.map_none, changedCore]
  | some slot =>
    rw [coreAt_of_slot hs]
    cases hstop : slot.stop with
    | some stop =>
      rw [changeService_of_live hservice hs hstop]
      refine Eq.trans coreAt_setSlot ?_
      simp [changedCore, Slot.core, hstop]
    | none =>
      rw [changeService_of_idle hservice hs hstop, coreAt_setSlot]
      simp [changedCore, Slot.core, hstop]

theorem coreAt_rewireDependencies (w : Stack) (name : ServiceName) :
    w.rewireDependencies.coreAt name = w.coreAt name := by
  rw [coreAt, coreAt, rewireDependencies, ExtTreeMap.getElem?_map, Option.map_map]
  refine congrArg (Option.map · _) (funext fun slot => ?_)
  simp only [Function.comp]
  split <;> rfl

/-! ### The first three phases together -/

/-- A phase that goes through the services in a list, seen from one service. -/
theorem coreAt_foldl {f : Stack → ServiceName → Stack} {g : ServiceName → Option Slot → Option Slot}
    (self : ∀ s k, (f s k).coreAt k = g k (s.coreAt k))
    (others : ∀ (s : Stack) {j k : ServiceName}, k ≠ j → (f s j).slots[k]? = s.slots[k]?)
    {l : List ServiceName} (hl : l.Nodup) (w : Stack) (name : ServiceName) :
    (l.foldl f w).coreAt name = if name ∈ l then g name (w.coreAt name) else w.coreAt name := by
  have hother : ∀ (s : Stack) (j k : ServiceName), j ≠ k → (f s j).coreAt k = s.coreAt k :=
    fun s _ _ hne => coreAt_congr (others s hne.symm)
  split_ifs with hmem
  · exact KeyedFold.view_foldl_of_mem (v := fun k (s : Stack) => s.coreAt k) self hother hl hmem
  · exact KeyedFold.view_foldl_of_notMem (v := fun k (s : Stack) => s.coreAt k) hother hmem

/-- The services the plan adds get the slots they need. -/
def addedAt (config : Config) (name : ServiceName) (core : Option Slot) : Option Slot :=
  match config.services[name]? with
  | some service => addedCore service core
  | none => core

/-- The services the plan changes get their new definition. -/
def changedAt (config : Config) (name : ServiceName) (core : Option Slot) : Option Slot :=
  match config.services[name]? with
  | some service => changedCore service core
  | none => core

theorem coreAt_addService_eq (w : Stack) (config : Config) (name : ServiceName) :
    (w.addService config name).coreAt name = addedAt config name (w.coreAt name) := by
  cases hservice : config.services[name]? with
  | none => simp only [addService, addedAt, hservice]
  | some service => simp only [coreAt_addService hservice, addedAt, hservice]

theorem coreAt_changeService_eq (w : Stack) (config : Config) (name : ServiceName) :
    (w.changeService config name).coreAt name = changedAt config name (w.coreAt name) := by
  cases hservice : config.services[name]? with
  | none => simp only [changeService, changedAt, hservice]
  | some service => simp only [coreAt_changeService hservice, changedAt, hservice]

theorem coreAt_wireReload (w : Stack) (config : ValidConfig) {plan : List ServiceName}
    (hplan : plan.Nodup) (name : ServiceName) :
    (w.wireReload config plan).coreAt name =
      let diff := w.diff config.1 plan
      let removed := if name ∈ diff.removed then removedCore (w.coreAt name) else w.coreAt name
      let added := if name ∈ diff.added then addedAt config.1 name removed else removed
      if name ∈ diff.changed then changedAt config.1 name added else added := by
  have hremoved : (w.diff config.1 plan).removed.Nodup := ExtTreeMap.nodup_keys.filter _
  have hadded : (w.diff config.1 plan).added.Nodup := hplan.filter _
  have hchanged : (w.diff config.1 plan).changed.Nodup := hplan.filter _
  rw [wireReload, coreAt_rewireDependencies,
    coreAt_foldl (fun s k => coreAt_changeService_eq s config.1 k)
      (fun s _ _ hne => getElem?_changeService_of_ne hne config.1) hchanged,
    coreAt_foldl (fun s k => coreAt_addService_eq s config.1 k)
      (fun s _ _ hne => getElem?_addService_of_ne hne config.1) hadded,
    coreAt_foldl (g := fun _ => removedCore) (fun s k => coreAt_removeService s k)
      (fun s _ _ hne => getElem?_removeService_of_ne hne) hremoved]
  rfl

/-- A service is added or changed, not both. -/
theorem not_isChanged_of_isAdded (h : w.isAdded name) : ¬ w.isChanged config name := by
  unfold isAdded at h
  unfold isChanged
  cases hs : w.slots[name]? with
  | none => simp
  | some slot =>
    simp only [hs] at h
    simp [h]

section

variable {config : ValidConfig} {plan : StartPlan config.1}

theorem coreAt_wireReload_removed (h : name ∉ plan.1) :
    (w.wireReload config plan.1).coreAt name = removedCore (w.coreAt name) := by
  have hadded : name ∉ (w.diff config.1 plan.1).added := fun hm => h (mem_diff_added.mp hm).1
  have hchanged : name ∉ (w.diff config.1 plan.1).changed := fun hm => h (mem_diff_changed.mp hm).1
  rw [coreAt_wireReload w config plan.nodup]
  simp only [hadded, hchanged, if_false]
  by_cases hs : ∃ slot, w.slots[name]? = some slot
  · rw [if_pos (mem_diff_removed.mpr ⟨hs, h⟩)]
  · have hnone : w.slots[name]? = none := by
      rw [Option.eq_none_iff_forall_ne_some]
      exact fun slot hslot => hs ⟨slot, hslot⟩
    rw [coreAt, hnone]
    simp [removedCore]

theorem coreAt_wireReload_planned (h : name ∈ plan.1) :
    (w.wireReload config plan.1).coreAt name =
      if w.isAdded name then addedAt config.1 name (w.coreAt name)
      else if w.isChanged config.1 name then changedAt config.1 name (w.coreAt name)
      else w.coreAt name := by
  have hremoved : name ∉ (w.diff config.1 plan.1).removed := fun hm => (mem_diff_removed.mp hm).2 h
  rw [coreAt_wireReload w config plan.nodup]
  simp only [hremoved, if_false, mem_diff_added, mem_diff_changed, h, true_and]
  by_cases hadded : w.isAdded name
  · simp [hadded, not_isChanged_of_isAdded hadded]
  · simp [hadded]

theorem coreAt_wireReload_added (h : name ∈ plan.1) (hadded : w.isAdded name)
    (hservice : config.1.services[name]? = some service) :
    (w.wireReload config plan.1).coreAt name = addedCore service (w.coreAt name) := by
  rw [coreAt_wireReload_planned h, if_pos hadded, addedAt, hservice]

theorem coreAt_wireReload_changed (h : name ∈ plan.1) (hchanged : w.isChanged config.1 name)
    (hadded : ¬ w.isAdded name) (hservice : config.1.services[name]? = some service) :
    (w.wireReload config plan.1).coreAt name = changedCore service (w.coreAt name) := by
  rw [coreAt_wireReload_planned h, if_neg hadded, if_pos hchanged, changedAt, hservice]

theorem coreAt_wireReload_kept (h : name ∈ plan.1) (hchanged : ¬ w.isChanged config.1 name)
    (hadded : ¬ w.isAdded name) : (w.wireReload config plan.1).coreAt name = w.coreAt name := by
  rw [coreAt_wireReload_planned h, if_neg hadded, if_neg hchanged]

end

/-! ### The last phase -/

theorem tasks_grow_spawnAdded (w : Stack) (name : ServiceName) :
    w.tasks <+: (w.spawnAdded name).tasks :=
  (ops_spawnAdded w name).frame.tasks_grow

/-- A slot the last phase does not give a task to stays as it is. -/
theorem slot_applyReload_of_flag {config : ValidConfig} {plan : List ServiceName}
    (h : ∀ slot, (w.wireReload config plan).slots[name]? = some slot →
      name ∈ (w.diff config.1 plan).added → slot.restartWhenStopped ∨ slot.handle.isSome) :
    (w.applyReload config plan).slots[name]? = (w.wireReload config plan).slots[name]? := by
  refine KeyedFold.view_foldl_eq (v := fun k (s : Stack) => s.slots[k]?)
    (fun _ _ _ hne => getElem?_spawnAdded_of_ne hne.symm) fun s hview hmem => ?_
  cases hs : s.slots[name]? with
  | none => rw [← hview, hs, spawnAdded]; simp only [hs]
  | some slot =>
    have hwired : (w.wireReload config plan).slots[name]? = some slot := hview.symm.trans hs
    rw [spawnAdded_of_flag hs (h slot hwired hmem), hs, hwired]

/-- A new slot is given a task that did not exist before. -/
theorem slot_applyReload_of_idle {config : ValidConfig} {plan : StartPlan config.1}
    (hs : (w.wireReload config plan.1).slots[name]? = some slot)
    (hadded : name ∈ (w.diff config.1 plan.1).added) (hrestart : slot.restartWhenStopped = false)
    (hidle : slot.handle = none) :
    ∃ task, (w.wireReload config plan.1).tasks.length ≤ task ∧
      (w.applyReload config plan.1).tasks[task]? = some ⟨slot.service, slot.deps, slot.shared⟩ ∧
      (w.applyReload config plan.1).slots[name]? =
        some { slot with stop := some task, handle := some task } := by
  obtain ⟨s, hbefore, hview, hafter, hlast⟩ := KeyedFold.exists_visit
    (v := fun k (s : Stack) => s.slots[k]?) (f := spawnAdded)
    (R := fun s t => s.tasks <+: t.tasks) (fun _ => List.prefix_rfl) (fun h h' => h.trans h')
    tasks_grow_spawnAdded (fun _ _ _ hne => getElem?_spawnAdded_of_ne hne.symm)
    (s := w.wireReload config plan.1) (plan.nodup.filter w.isAdded) hadded
  have hspawn := spawnAdded_of_idle (hview.trans hs) hrestart hidle
  rw [hspawn] at hafter hlast
  refine ⟨s.tasks.length, hbefore.length_le, ?_, ?_⟩
  · have hnew : s.tasks.length < (s.spawn name slot).tasks.length := by
      simp [spawn]
    refine (getElem?_of_isPrefix hafter hnew).trans ?_
    simp [spawn]
  · refine hlast.trans ?_
    rw [spawn, TreeMap.getElem?_insert, if_pos rfl]

/-! ### What a reload spawns and whom it asks to stop -/

/-- Adding a service spawns nothing and asks nobody to stop. -/
theorem logs_addService (w : Stack) (config : Config) (name : ServiceName) :
    (w.addService config name).tasks = w.tasks ∧
      (w.addService config name).requests = w.requests := by
  unfold addService
  split
  · exact ⟨rfl, rfl⟩
  · split <;> simp only [setSlot, insertSlot, tasks_debugAssert, requests_debugAssert, and_self]

theorem tasks_wireReload (w : Stack) (config : ValidConfig) (plan : List ServiceName) :
    (w.wireReload config plan).tasks = w.tasks := by
  have hfold : ∀ {f : Stack → ServiceName → Stack}, (∀ s name, (f s name).tasks = s.tasks) →
      ∀ (l : List ServiceName) (s : Stack), (l.foldl f s).tasks = s.tasks := fun hf l s =>
    List.foldlRecOn (motive := fun t : Stack => t.tasks = s.tasks) l _ rfl
      fun t ht name _ => (hf t name).trans ht
  refine (hfold (fun s name => ?_) _ _).trans ((hfold (fun s name => ?_) _ _).trans
    (hfold (fun s name => ?_) _ _))
  · unfold changeService
    split
    · split <;> rfl
    · rfl
  · exact (logs_addService s config.1 name).1
  · unfold removeService
    split
    · rfl
    · split <;> rfl

/-- A reload spawns tasks for services the plan adds only. -/
theorem added_of_spawned (h : w.Inv) {config : ValidConfig} {plan : StartPlan config.1} {task : ℕ}
    {spawned : Task} (htask : (w.applyReload config plan.1).tasks[task]? = some spawned)
    (hnew : w.tasks.length ≤ task) :
    spawned.service.name ∈ (w.diff config.1 plan.1).added := by
  have hwired := h.ops (ops_wireReload h config plan)
  have hmain := List.foldlRecOn (motive := fun s : Stack => s.Inv ∧
      ∀ spawned, s.tasks[task]? = some spawned →
        spawned.service.name ∈ (w.diff config.1 plan.1).added)
    (w.diff config.1 plan.1).added spawnAdded (b := w.wireReload config plan.1) ?_ ?_
  · exact hmain.2 spawned htask
  · refine ⟨hwired, fun spawned hs => ?_⟩
    rw [tasks_wireReload, List.getElem?_eq_none hnew] at hs
    cases hs
  · rintro s ⟨hI, hold⟩ name hmem
    refine ⟨hI.ops (ops_spawnAdded s name), fun spawned hs => ?_⟩
    unfold spawnAdded at hs
    cases hslot : s.slots[name]? with
    | none => exact hold spawned (by simpa only [hslot] using hs)
    | some slot =>
      simp only [hslot] at hs
      split_ifs at hs
      · exact hold spawned hs
      · obtain hs | ⟨-, rfl⟩ := getElem?_spawn_tasks.mp hs
        · exact hold spawned hs
        · rwa [hI.slot_name hslot]

theorem asked_removeService (w : Stack) (name : ServiceName) {task : ℕ}
    (h : task ∈ (w.removeService name).asked) :
    task ∈ w.asked ∨ ∃ slot, w.slots[name]? = some slot ∧ slot.stop = some task := by
  cases hs : w.slots[name]? with
  | none => exact .inl (removeService_of_none hs ▸ h)
  | some slot =>
    cases hstop : slot.stop with
    | none => exact .inl (by rwa [removeService_of_idle hs hstop] at h)
    | some stop =>
      rw [removeService_of_live hs hstop, asked_request, List.mem_append, List.mem_singleton] at h
      exact h.imp_right fun (he : task = stop) => ⟨slot, rfl, he ▸ hstop⟩

theorem asked_changeService (w : Stack) (config : Config) (name : ServiceName) {task : ℕ}
    (h : task ∈ (w.changeService config name).asked) :
    task ∈ w.asked ∨ ∃ slot, w.slots[name]? = some slot ∧ slot.stop = some task := by
  unfold changeService at h
  split at h
  · rename_i slot _ hs
    split at h
    · rename_i stop hstop
      rw [asked_request, List.mem_append, List.mem_singleton] at h
      exact h.imp_right fun (he : task = stop) => ⟨slot, hs, he ▸ hstop⟩
    · exact .inl h
  · exact .inl h

/-- A phase that asks the tasks of the services it goes through to stop asks no others. -/
theorem asked_foldl {f : Stack → ServiceName → Stack}
    (hf : ∀ (s : Stack) name {task : ℕ}, task ∈ (f s name).asked →
      task ∈ s.asked ∨ ∃ slot, s.slots[name]? = some slot ∧ slot.stop = some task)
    (others : ∀ (s : Stack) {j k : ServiceName}, k ≠ j → (f s j).slots[k]? = s.slots[k]?)
    {l : List ServiceName} (hl : l.Nodup) {task : ℕ} (h : task ∈ (l.foldl f w).asked) :
    task ∈ w.asked ∨ ∃ name ∈ l, ∃ slot, w.slots[name]? = some slot ∧ slot.stop = some task := by
  refine KeyedFold.invariant_foldl (v := fun k (s : Stack) => s.slots[k]?)
    (I := fun s => task ∈ s.asked → task ∈ w.asked ∨
      ∃ name ∈ l, ∃ slot, w.slots[name]? = some slot ∧ slot.stop = some task)
    (P := fun k v => v = w.slots[k]?) (fun s _ _ hne => others s hne.symm) hl ?_ .inl
    (fun _ _ => rfl) h
  intro s name hmem hI hview hs
  obtain hold | ⟨slot, hslot, hstop⟩ := hf s name hs
  · exact hI hold
  · exact .inr ⟨name, hmem, slot, hview ▸ hslot, hstop⟩

theorem asked_spawnAdded (w : Stack) (name : ServiceName) :
    (w.spawnAdded name).asked = w.asked := by
  unfold spawnAdded
  split
  · split <;> rfl
  · rfl

/-- A reload asks the tasks of the services it removes or changes to stop, and no others. -/
theorem asked_applyReload {config : ValidConfig} {plan : StartPlan config.1} {task : ℕ}
    (h : task ∈ (w.applyReload config plan.1).asked) :
    task ∈ w.asked ∨ ∃ name slot, w.slots[name]? = some slot ∧ slot.stop = some task ∧
      (name ∉ plan.1 ∨ w.isChanged config.1 name) := by
  have hspawn : (w.applyReload config plan.1).asked = (w.wireReload config plan.1).asked :=
    List.foldlRecOn (motive := fun s : Stack => s.asked = (w.wireReload config plan.1).asked)
      (w.diff config.1 plan.1).added spawnAdded rfl
      fun s hs name _ => (asked_spawnAdded s name).trans hs
  rw [hspawn] at h
  obtain h | ⟨name, hmem, slot, hs, hstop⟩ := asked_foldl
    (fun s name => asked_changeService s config.1 name)
    (fun s _ _ hne => getElem?_changeService_of_ne hne config.1) (plan.nodup.filter _) h
  · -- The services that are added are asked nothing.
    have hadded := List.foldlRecOn (motive := fun s : Stack => s.requests =
        ((w.diff config.1 plan.1).removed.foldl removeService
          { w with config := config, plan := plan.1 }).requests)
      (w.diff config.1 plan.1).added (addService · config.1) rfl
      fun s hs name _ => (logs_addService s config.1 name).2.trans hs
    rw [asked, hadded] at h
    obtain h | ⟨name, hmem, slot, hs, hstop⟩ := asked_foldl
      (fun s name => asked_removeService s name)
      (fun s _ _ hne => getElem?_removeService_of_ne hne) (ExtTreeMap.nodup_keys.filter _) h
    · exact .inl h
    · exact .inr ⟨name, slot, hs, hstop, .inl (of_decide_eq_true (List.mem_filter.mp hmem).2)⟩
  · -- The slot is what it was before the first two phases.
    obtain ⟨hplan, hchanged⟩ := mem_diff_changed.mp hmem
    have hnot : name ∉ (w.diff config.1 plan.1).added :=
      fun hadded => not_isChanged_of_isAdded (mem_diff_added.mp hadded).2 hchanged
    rw [KeyedFold.view_foldl_of_notMem (v := fun k (s : Stack) => s.slots[k]?)
      (fun _ _ _ hne => getElem?_addService_of_ne hne.symm config.1) hnot,
      getElem?_foldl_removeService fun hrem => (mem_diff_removed.mp hrem).2 hplan] at hs
    exact .inr ⟨name, slot, hs, hstop, .inr hchanged⟩

end Stack

end Servicrab
