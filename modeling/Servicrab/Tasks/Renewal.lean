import Servicrab.Tasks.Aftermath

/-!
# Renewed slots

The supervisor wipes the status of a service as it spawns a task for it, and makes a new slot for a
service that it adds. In both cases the status says nothing yet, and the earlier tasks of the service
have reported. Otherwise a step of the supervisor leaves the slot its cell, the cell its status, and
the service its tasks.

## Main definitions

* `Stack.Renews`: a step gives a slot a new status.

## Main results

* `Stack.traces_of_step`, `Stack.kept_slot`, `Stack.finished_of_renews`.
-/

open Std (ExtTreeMap)

namespace Servicrab

namespace Stack

variable {w w' : Stack} {name : ServiceName} {slot slot' : Slot} {cell : ℕ}

/-- Between two states, a task was spawned onto the cell, or the cell was made. -/
def Renews (w w' : Stack) (cell : ℕ) : Prop := w.SpawnsOnto w' cell ∨ w.cells.length ≤ cell

/-- Where slots and statuses come from: a slot with an old cell was there before, and a status that
was renewed says nothing yet. -/
structure Traces (w w' : Stack) : Prop where
  old : ∀ {name : ServiceName} {slot' : Slot}, w'.slots[name]? = some slot' →
    slot'.shared < w.cells.length →
    ∃ slot, w.slots[name]? = some slot ∧ slot.shared = slot'.shared
  wiped : ∀ {cell : ℕ} {c : Cell}, w.Renews w' cell → w'.cells[cell]? = some c → c.status = .new

theorem not_spawnsOnto (h : w'.tasks = w.tasks) : ¬ w.SpawnsOnto w' cell := by
  rintro ⟨task, spawned, hge, htask, -⟩
  rw [h] at htask
  exact absurd (List.getElem?_eq_some_iff.mp htask).1 (not_lt.mpr hge)

theorem Traces.of_eq (hcells : w'.cells = w.cells) (htasks : w'.tasks = w.tasks)
    (hslots : ∀ {name : ServiceName} {slot' : Slot}, w'.slots[name]? = some slot' →
      ∃ slot, w.slots[name]? = some slot ∧ slot.shared = slot'.shared) : Traces w w' where
  old hs _ := hslots hs
  wiped hrenews hc := by
    rw [hcells] at hc
    rcases hrenews with hspawns | hge
    · exact absurd hspawns (not_spawnsOnto htasks)
    · exact absurd (List.getElem?_eq_some_iff.mp hc).1 (not_lt.mpr hge)

/-- A slot may change, as long as it keeps its cell. -/
theorem Traces.insert (hs : w.slots[name]? = some slot)
    (hslots : w'.slots = w.slots.insert name slot') (hshared : slot'.shared = slot.shared)
    (hcells : w'.cells = w.cells) (htasks : w'.tasks = w.tasks) : Traces w w' := by
  refine .of_eq hcells htasks fun {other s} hother => ?_
  rw [hslots, TreeMap.getElem?_insert] at hother
  split_ifs at hother with he
  · cases hother
    exact ⟨slot, he ▸ hs, hshared.symm⟩
  · exact ⟨s, hother, rfl⟩

theorem Traces.erase (hslots : w'.slots = w.slots.erase name) (hcells : w'.cells = w.cells)
    (htasks : w'.tasks = w.tasks) : Traces w w' := by
  refine .of_eq hcells htasks fun {other s} hother => ?_
  rw [hslots, TreeMap.getElem?_erase] at hother
  split_ifs at hother
  exact ⟨s, hother, rfl⟩

/-- A spawn wipes the status of its slot. -/
theorem Traces.spawn (hs : w.slots[name]? = some slot)
    (hslots : w'.slots = w.slots.insert name slot') (hshared : slot'.shared = slot.shared)
    (hcells : w'.cells = w.cells.modify slot.shared fun _ => { status := .new, pgid := 0 })
    (htasks : w'.tasks =
      w.tasks ++ [{ service := slot.service, deps := slot.deps, shared := slot.shared }]) :
    Traces w w' where
  old hother _ := by
    rw [hslots, TreeMap.getElem?_insert] at hother
    split_ifs at hother with he
    · cases hother
      exact ⟨slot, he ▸ hs, hshared.symm⟩
    · exact ⟨_, hother, rfl⟩
  wiped hrenews hc := by
    rw [hcells] at hc
    rcases hrenews with ⟨task, spawned, hge, htask, rfl⟩ | hge
    · rw [htasks, List.getElem?_append_right hge, List.getElem?_singleton] at htask
      split_ifs at htask
      cases htask
      rw [List.getElem?_modify] at hc
      obtain ⟨_, -, rfl⟩ := Option.map_eq_some_iff.mp hc
      rw [if_pos rfl]
    · have hlt := (List.getElem?_eq_some_iff.mp hc).1
      rw [List.length_modify] at hlt
      exact absurd hlt (not_lt.mpr hge)

theorem Traces.trans {w'' : Stack} (h : Traces w w') (h' : Traces w' w'') (hkept : KeepsCells w w')
    (hkept' : KeepsCells w' w'') : Traces w w'' where
  old hs hlt := by
    obtain ⟨slot, hslot, hshared⟩ := h'.old hs (hlt.trans_le hkept.length_le)
    obtain ⟨slot₀, hslot₀, hshared₀⟩ := h.old hslot (hshared ▸ hlt)
    exact ⟨slot₀, hslot₀, hshared₀.trans hshared⟩
  wiped {cell c} hrenews hc := by
    by_cases hlater : w'.Renews w'' cell
    · exact h'.wiped hlater hc
    · -- Nothing has happened to the cell in the second half.
      obtain ⟨hspawns, hlt⟩ := not_or.mp hlater
      rw [(hkept'.cells cell (not_le.mp hlt)).resolve_right hspawns] at hc
      refine h.wiped (hrenews.imp_left ?_) hc
      rintro ⟨task, spawned, hge, htask, hshared⟩
      have hold : task < w'.tasks.length := by
        by_contra hnew
        exact hspawns ⟨task, spawned, not_lt.mp hnew, htask, hshared⟩
      exact ⟨task, spawned, hge, getElem?_of_isPrefix hkept'.tasks hold ▸ htask, hshared⟩

theorem Op.traces (hop : Op w w') : Traces w w' := by
  cases hop with
  | config => exact .of_eq rfl rfl fun hs => ⟨_, hs, rfl⟩
  | set hs hsame | ask hs hsame => exact .insert hs rfl hsame.shared_eq rfl rfl
  | erase => exact .erase rfl rfl rfl
  | spawn hs => exact .spawn hs rfl rfl rfl rfl
  | insert hs =>
    rename_i name service _
    rw [insertSlot_of_none hs]
    constructor
    · intro other s hother hlt
      rw [TreeMap.getElem?_insert] at hother
      split_ifs at hother
      · cases hother
        exact absurd hlt (lt_irrefl _)
      · exact ⟨s, hother, rfl⟩
    · rintro cell c (hspawns | hge) hc
      · exact absurd hspawns (not_spawnsOnto rfl)
      · rw [List.getElem?_append_right hge, List.getElem?_singleton] at hc
        split_ifs at hc
        cases hc
        rfl
  | rewire =>
    refine .of_eq rfl rfl fun {name slot'} hs => ?_
    rw [rewireDependencies, ExtTreeMap.getElem?_map] at hs
    obtain ⟨slot, hslot, rfl⟩ := Option.map_eq_some_iff.mp hs
    refine ⟨slot, hslot, ?_⟩
    split <;> rfl

theorem Ops.traces (hops : Ops w w') : Traces w w' := by
  induction hops with
  | refl => exact .of_eq rfl rfl fun hs => ⟨_, hs, rfl⟩
  | tail hprev hop ih => exact ih.trans hop.traces (Ops.keepsCells hprev) hop.keepsCells

/-- The slots and statuses after a step of the supervisor or its surroundings. -/
theorem traces_of_step (hI : w.Inv) {action : StackAction} (houtside : action.isOutside)
    (hstep : w.step action = some w') : Traces w w' := by
  cases action with
  | control =>
    obtain ⟨_, rest, answers, w₁, -, hops, rfl⟩ := hI.ops_control hstep
    have htaken : Traces w { w with control := rest } := .of_eq rfl rfl fun hs => ⟨_, hs, rfl⟩
    have hkept : KeepsCells w { w with control := rest } := .of_eq rfl rfl rfl
    have hsent : Traces w₁ { w₁ with answers := answers } := .of_eq rfl rfl fun hs => ⟨_, hs, rfl⟩
    exact (htaken.trans hops.traces hkept hops.keepsCells).trans hsent
      (hkept.trans hops.keepsCells) (.of_eq rfl rfl rfl)
  | report =>
    obtain ⟨_, _, _, slot, _, _, -, hs, -, heffect⟩ := hI.step_report hstep
    cases heffect with
    | removed => exact .erase rfl rfl rfl
    | respawned => exact .spawn hs rfl rfl rfl rfl
    | stopped => exact .insert hs rfl rfl rfl rfl
  | submit | interrupt | idle =>
    simp only [step] at hstep
    split_ifs at hstep
    cases hstep
    exact .of_eq rfl rfl fun hs => ⟨_, hs, rfl⟩
  | emit event =>
    cases hstep
    exact .of_eq rfl rfl fun hs => ⟨_, hs, rfl⟩
  | finish | write | store => cases houtside

/-! ### The tasks of a service -/

variable {action : StackAction} {task : ℕ} {spawned : Task}

/-- A task that was just spawned is that of the slot of its service. -/
theorem slot_of_spawned (hI : w.Inv) (houtside : action.isOutside)
    (hstep : w.step action = some w') (hge : w.tasks.length ≤ task)
    (htask : w'.tasks[task]? = some spawned) :
    ∃ slot', w'.slots[spawned.service.name]? = some slot' ∧ slot'.handle = some task ∧
      spawned.shared = slot'.shared := by
  have hI' := hI.step hstep
  have hfinished : w'.finished = w.finished :=
    World.finished_of_isOutside (w := ⟨w, [], []⟩) hI houtside hstep
  have hout : task ∉ w'.finished := by
    rw [hfinished]
    exact fun hmem => absurd (hI.finished_lt hmem) (not_lt.mpr hge)
  obtain ⟨slot', hs', hhandle⟩ :=
    exists_slot_of_live (hI'.live_iff.mpr ⟨spawned, htask, rfl, .inl hout⟩)
  exact ⟨slot', hs', hhandle, hI'.live_cell hs' hhandle htask⟩

/-- A slot that is not renewed keeps its cell, its status and its tasks. -/
theorem kept_slot (hI : w.Inv) (houtside : action.isOutside) (hstep : w.step action = some w')
    (hs' : w'.slots[name]? = some slot') (hkept : ¬ w.Renews w' slot'.shared) :
    (∃ slot, w.slots[name]? = some slot ∧ slot.shared = slot'.shared) ∧
      w'.cells[slot'.shared]? = w.cells[slot'.shared]? ∧
      ∀ (task : ℕ) (spawned : Task), w'.tasks[task]? = some spawned →
        spawned.service.name = name → w.tasks[task]? = some spawned := by
  obtain ⟨hspawns, hlt⟩ := not_or.mp hkept
  have hcells := (keepsCells_of_step hI houtside hstep).1
  refine ⟨(traces_of_step hI houtside hstep).old hs' (not_le.mp hlt), ?_, ?_⟩
  · exact (hcells.cells _ (not_le.mp hlt)).resolve_right hspawns
  · rintro task spawned htask rfl
    have hold : task < w.tasks.length := by
      by_contra hnew
      obtain ⟨slot, hs, -, hshared⟩ :=
        slot_of_spawned hI houtside hstep (not_lt.mp hnew) htask
      obtain rfl := Option.some.inj (hs.symm.trans hs')
      exact hspawns ⟨task, spawned, not_lt.mp hnew, htask, hshared⟩
    exact getElem?_of_isPrefix hcells.tasks hold ▸ htask

/-- By the time a slot is renewed, the earlier tasks of the service have reported. -/
theorem finished_of_renews (hI : w.Inv) (houtside : action.isOutside)
    (hstep : w.step action = some w') (hs' : w'.slots[name]? = some slot')
    (hrenews : w.Renews w' slot'.shared) (htask : w.tasks[task]? = some spawned)
    (hname : spawned.service.name = name) : task ∈ w.finished := by
  have hI' := hI.step hstep
  have hlt : task < w.tasks.length := (List.getElem?_eq_some_iff.mp htask).1
  have htask' : w'.tasks[task]? = some spawned := by
    rw [getElem?_of_isPrefix (keepsCells_of_step hI houtside hstep).1.tasks hlt, htask]
  have hfinished : w'.finished = w.finished :=
    World.finished_of_isOutside (w := ⟨w, [], []⟩) hI houtside hstep
  by_contra hnot
  rw [← hfinished] at hnot
  have hhandle : slot'.handle = some task :=
    (live_of_slot hs').symm.trans (hI'.live_iff.mpr ⟨spawned, htask', hname, .inl hnot⟩)
  rcases hrenews with ⟨later, spawned', hge, hlater, hshared⟩ | hge
  · have hname' := hI'.task_cell_slot hlater hs' hshared
    obtain ⟨slot, hs, hhandle', -⟩ := slot_of_spawned hI houtside hstep hge hlater
    rw [hname', hs'] at hs
    cases hs
    cases hhandle.symm.trans hhandle'
    exact absurd hlt (not_lt.mpr hge)
  · rw [← hI'.live_cell hs' hhandle htask'] at hge
    exact absurd (hI.task_cell htask) (not_lt.mpr hge)

end Stack

end Servicrab
