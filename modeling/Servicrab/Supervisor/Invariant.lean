import Servicrab.Library.TreeMap
import Servicrab.Supervisor.Loop
import Mathlib.Data.Finset.Card

/-!
# The bookkeeping of the supervisor loop

The invariant that ties the fields of the slots to the tasks and reports they stand for. It is
split in two because the report arm breaks and restores it within one step: `Accounts` says which
tasks the slots hold and holds in between as well; `FlagsAsked` says that the flags of a slot
belong to a task that has been asked to stop.

Each operation the loop is composed of has one lemma for each half; the lemmas for commands,
reports and reloads are assembled from them.

## Main definitions

* `Stack.live`, `Stack.Outstanding`, `Stack.liveSlots`.
* `Stack.Accounts`, `Stack.FlagsAsked`, `Stack.Inv`.
-/

open Std (ExtTreeMap)

namespace Servicrab

/-- Whether something is left to do on this slot when its task reports. -/
def Slot.Flagged (slot : Slot) : Prop :=
  slot.pending.isSome ∨ slot.restartWhenStopped ∨ slot.retired

/-- Two versions of a slot stand for the same service, task and cell. -/
structure Slot.SameTask (slot slot' : Slot) : Prop where
  name_eq : slot.service.name = slot'.service.name
  stop_eq : slot.stop = slot'.stop
  handle_eq : slot.handle = slot'.handle
  shared_eq : slot.shared = slot'.shared

theorem Slot.SameTask.refl (slot : Slot) : slot.SameTask slot := ⟨rfl, rfl, rfl, rfl⟩

namespace Stack

/-- The supervision task a service has, if it has one. -/
def live (w : Stack) (name : ServiceName) : Option ℕ := w.slots[name]?.bind Slot.handle

/-- A supervision task of the service has not sent its report, or its report was not taken yet. -/
def Outstanding (w : Stack) (task : ℕ) (name : ServiceName) : Prop :=
  ∃ spawned, w.tasks[task]? = some spawned ∧ spawned.service.name = name ∧
    (task ∉ w.finished ∨ task ∈ w.reportQueue.map Prod.fst)

/-- The services that have a supervision task. -/
def liveSlots (w : Stack) : Finset ServiceName :=
  (w.slots.keys.filter fun name => (w.live name).isSome).toFinset

/-- The tasks that were asked to stop. -/
def asked (w : Stack) : List ℕ := w.requests.map Prod.fst

/-- What the slots say about tasks, reports and cells. -/
structure Accounts (w : Stack) : Prop where
  slot_name : ∀ {name : ServiceName} {slot : Slot},
    w.slots[name]? = some slot → slot.service.name = name
  stop_eq : ∀ {name : ServiceName} {slot : Slot},
    w.slots[name]? = some slot → slot.stop = slot.handle
  /-- A service's slot holds exactly the tasks of the service that are outstanding. -/
  live_iff : ∀ {name : ServiceName} {task : ℕ},
    w.live name = some task ↔ w.Outstanding task name
  finished_lt : ∀ {task : ℕ}, task ∈ w.finished → task < w.tasks.length
  queue_finished : ∀ {task : ℕ}, task ∈ w.reportQueue.map Prod.fst → task ∈ w.finished
  queue_service : ∀ {task : ℕ} {report : ServiceReport}, (task, report) ∈ w.reportQueue →
    ∃ spawned, w.tasks[task]? = some spawned ∧ spawned.service.name = report.service
  queue_nodup : (w.reportQueue.map Prod.fst).Nodup
  running_eq : w.running = w.liveSlots.card
  slot_cell : ∀ {name : ServiceName} {slot : Slot},
    w.slots[name]? = some slot → slot.shared < w.cells.length
  /-- Slots share cells with no other slot, and tasks with no slot of another service. -/
  slot_cell_inj : ∀ {name₁ name₂ : ServiceName} {slot₁ slot₂ : Slot},
    w.slots[name₁]? = some slot₁ → w.slots[name₂]? = some slot₂ →
    slot₁.shared = slot₂.shared → name₁ = name₂
  task_cell : ∀ {task : ℕ} {spawned : Task},
    w.tasks[task]? = some spawned → spawned.shared < w.cells.length
  task_cell_slot : ∀ {task : ℕ} {spawned : Task} {name : ServiceName} {slot : Slot},
    w.tasks[task]? = some spawned → w.slots[name]? = some slot →
    spawned.shared = slot.shared → spawned.service.name = name
  task_cell_task : ∀ {task₁ task₂ : ℕ} {spawned₁ spawned₂ : Task},
    w.tasks[task₁]? = some spawned₁ → w.tasks[task₂]? = some spawned₂ →
    spawned₁.shared = spawned₂.shared → spawned₁.service.name = spawned₂.service.name
  live_cell : ∀ {name : ServiceName} {slot : Slot} {task : ℕ} {spawned : Task},
    w.slots[name]? = some slot → slot.handle = some task → w.tasks[task]? = some spawned →
    spawned.shared = slot.shared

/-- A slot with a flag set has a task, which was asked to stop. -/
def FlagsAsked (w : Stack) : Prop :=
  ∀ (name : ServiceName) (slot : Slot), w.slots[name]? = some slot → slot.Flagged →
    ∃ task, slot.handle = some task ∧ task ∈ w.asked

/-- The invariant of the supervisor loop. -/
structure Inv (w : Stack) : Prop extends Accounts w where
  flags_asked : w.FlagsAsked
  no_failed : w.failedAssertions = []

variable {w w' : Stack} {name : ServiceName} {slot slot' : Slot}

/-! ### Reading the slots -/

theorem live_of_slot (hs : w.slots[name]? = some slot) : w.live name = slot.handle := by
  simp [live, hs]

theorem exists_slot_of_live {task : ℕ} (h : w.live name = some task) :
    ∃ slot, w.slots[name]? = some slot ∧ slot.handle = some task :=
  Option.bind_eq_some_iff.mp h

theorem mem_liveSlots : name ∈ w.liveSlots ↔ (w.live name).isSome := by
  simp only [liveSlots, List.mem_toFinset, List.mem_filter, TreeMap.mem_keys_iff_exists,
    and_iff_right_iff_imp]
  intro h
  obtain ⟨task, ht⟩ := Option.isSome_iff_exists.mp h
  obtain ⟨slot, hs, -⟩ := exists_slot_of_live ht
  exact ⟨slot, hs⟩

theorem liveSlots_congr (h : ∀ name, w'.live name = w.live name) : w'.liveSlots = w.liveSlots := by
  ext name
  rw [mem_liveSlots, mem_liveSlots, h]

theorem live_congr (h : w'.slots = w.slots) (name : ServiceName) : w'.live name = w.live name := by
  rw [live, live, h]

theorem live_insert (h : w'.slots = w.slots.insert name slot) (other : ServiceName) :
    w'.live other = if other = name then slot.handle else w.live other := by
  rw [live, h, TreeMap.getElem?_insert]
  split <;> rfl

theorem live_erase (h : w'.slots = w.slots.erase name) (other : ServiceName) :
    w'.live other = if other = name then none else w.live other := by
  rw [live, h, TreeMap.getElem?_erase]
  split <;> rfl

@[simp] theorem asked_request (w : Stack) (task : ℕ) (reason : ShutdownReason) :
    (w.request task reason).asked = w.asked ++ [task] := by
  simp [asked, request]

/-! ### Operations that keep the tasks of the slots -/

/-- The accounts only depend on the tasks, the reports, the number of cells, and on which service,
task and cell each slot stands for. -/
theorem Accounts.of_sameTask (h : w.Accounts)
    (hold : ∀ {other : ServiceName} {s : Slot}, w'.slots[other]? = some s →
      ∃ s₀, w.slots[other]? = some s₀ ∧ s.SameTask s₀)
    (hlive : ∀ other, w'.live other = w.live other) (htasks : w'.tasks = w.tasks)
    (hfinished : w'.finished = w.finished) (hqueue : w'.reportQueue = w.reportQueue)
    (hrunning : w'.running = w.running) (hcells : w'.cells.length = w.cells.length) :
    w'.Accounts := by
  constructor
  case slot_name =>
    intro other s hs
    obtain ⟨s₀, h₀, hsame⟩ := hold hs
    rw [hsame.name_eq, h.slot_name h₀]
  case stop_eq =>
    intro other s hs
    obtain ⟨s₀, h₀, hsame⟩ := hold hs
    rw [hsame.stop_eq, hsame.handle_eq, h.stop_eq h₀]
  case live_iff =>
    intro other task
    simp only [hlive, Outstanding, htasks, hfinished, hqueue]
    exact h.live_iff
  case running_eq => rw [hrunning, liveSlots_congr hlive, h.running_eq]
  case slot_cell =>
    intro other s hs
    obtain ⟨s₀, h₀, hsame⟩ := hold hs
    rw [hsame.shared_eq, hcells]
    exact h.slot_cell h₀
  case slot_cell_inj =>
    intro n₁ n₂ s₁ s₂ h₁ h₂ he
    obtain ⟨t₁, g₁, hsame₁⟩ := hold h₁
    obtain ⟨t₂, g₂, hsame₂⟩ := hold h₂
    exact h.slot_cell_inj g₁ g₂ (by rw [← hsame₁.shared_eq, he, hsame₂.shared_eq])
  case task_cell_slot =>
    intro task spawned other s ht hs he
    obtain ⟨s₀, h₀, hsame⟩ := hold hs
    exact h.task_cell_slot (htasks ▸ ht) h₀ (he.trans hsame.shared_eq)
  case live_cell =>
    intro other s task spawned hs hh ht
    obtain ⟨s₀, h₀, hsame⟩ := hold hs
    rw [hsame.shared_eq]
    exact h.live_cell h₀ (hsame.handle_eq ▸ hh) (htasks ▸ ht)
  all_goals simp only [htasks, hfinished, hqueue, hcells]
  exacts [h.finished_lt, h.queue_finished, h.queue_service, h.queue_nodup, h.task_cell,
    h.task_cell_task]

theorem Accounts.congr (h : w.Accounts) (hslots : w'.slots = w.slots) (htasks : w'.tasks = w.tasks)
    (hfinished : w'.finished = w.finished) (hqueue : w'.reportQueue = w.reportQueue)
    (hrunning : w'.running = w.running) (hcells : w'.cells.length = w.cells.length) :
    w'.Accounts :=
  h.of_sameTask (fun {_ s} hs => ⟨s, hslots ▸ hs, .refl s⟩) (live_congr hslots) htasks hfinished
    hqueue hrunning hcells

/-- A slot may be replaced by one that stands for the same service, task and cell. -/
theorem Accounts.setSlot (h : w.Accounts) (hs : w.slots[name]? = some slot)
    (hsame : slot'.SameTask slot) : (w.setSlot name slot').Accounts := by
  refine h.of_sameTask ?_ ?_ rfl rfl rfl rfl rfl
  · intro other s hs'
    rw [Stack.setSlot, TreeMap.getElem?_insert] at hs'
    split_ifs at hs' with he
    · cases hs'
      exact ⟨slot, he ▸ hs, hsame⟩
    · exact ⟨s, hs', .refl s⟩
  · intro other
    rw [live_insert rfl]
    split_ifs with he
    · rw [he, live_of_slot hs, hsame.handle_eq]
    · rfl

theorem live_rewireDependencies (w : Stack) (name : ServiceName) :
    w.rewireDependencies.live name = w.live name := by
  simp only [live, Stack.rewireDependencies, ExtTreeMap.getElem?_map]
  cases w.slots[name]? with
  | none => rfl
  | some slot =>
    simp only [Option.map_some, Option.bind_some]
    split <;> rfl

/-- Wiring the dependencies anew changes no slot in what it stands for. -/
theorem Accounts.rewireDependencies (h : w.Accounts) : w.rewireDependencies.Accounts := by
  have hsame : ∀ {other : ServiceName} {s : Slot}, w.rewireDependencies.slots[other]? = some s →
      ∃ s₀, w.slots[other]? = some s₀ ∧ s.SameTask s₀ := by
    intro other s hs
    rw [Stack.rewireDependencies, ExtTreeMap.getElem?_map] at hs
    obtain ⟨s₀, h₀, rfl⟩ := Option.map_eq_some_iff.mp hs
    refine ⟨s₀, h₀, ?_⟩
    split <;> exact ⟨rfl, rfl, rfl, rfl⟩
  exact h.of_sameTask hsame (live_rewireDependencies w) rfl rfl rfl rfl rfl

/-- A slot without a task may be taken away. -/
theorem Accounts.erase (h : w.Accounts) (hlive : w.live name = none) :
    { w with slots := w.slots.erase name }.Accounts := by
  refine h.of_sameTask ?_ ?_ rfl rfl rfl rfl rfl
  · intro other s hs
    rw [TreeMap.getElem?_erase] at hs
    split_ifs at hs
    exact ⟨s, hs, .refl s⟩
  · intro other
    rw [live_erase rfl]
    split_ifs with he
    · rw [he, hlive]
    · rfl

/-! ### Operations that change the tasks of the slots -/

theorem insertSlot_of_none (hs : w.slots[name]? = none) (service : Service) :
    w.insertSlot name service = { w with
      cells := w.cells ++ [{ status := .new, pgid := 0 }]
      slots := w.slots.insert name
        { service := service, deps := [], shared := w.cells.length, stop := none, handle := none,
          restartWhenStopped := false, retired := false, pending := none } } := by
  simp [insertSlot, hs, debugAssert]

/-- A service that has no slot may get one. -/
theorem Accounts.insertSlot (h : w.Accounts) (hs : w.slots[name]? = none) {service : Service}
    (hname : service.name = name) : (w.insertSlot name service).Accounts := by
  have hw₁ := insertSlot_of_none hs service
  generalize w.insertSlot name service = w₁ at hw₁ ⊢
  have hlive : ∀ other, w₁.live other = w.live other := by
    intro other
    rw [live_insert (w := w) (by rw [hw₁])]
    split_ifs with he
    · rw [he, live, hs]
      rfl
    · rfl
  -- The new slot has a cell of its own, beyond all cells in use.
  have hnew : ∀ {other : ServiceName} {s : Slot}, w₁.slots[other]? = some s →
      other = name ∧ s.service.name = name ∧ s.stop = s.handle ∧ s.handle = none ∧
        s.shared = w.cells.length ∨ w.slots[other]? = some s := by
    intro other s hs'
    rw [hw₁, TreeMap.getElem?_insert] at hs'
    split_ifs at hs' with he
    · cases hs'
      exact .inl ⟨he, hname, rfl, rfl, rfl⟩
    · exact .inr hs'
  have hlen : w₁.cells.length = w.cells.length + 1 := by simp [hw₁]
  have htasks : w₁.tasks = w.tasks := by rw [hw₁]
  constructor
  case slot_name =>
    intro other s hs'
    obtain ⟨rfl, hn, -⟩ | hold := hnew hs'
    exacts [hn, h.slot_name hold]
  case stop_eq =>
    intro other s hs'
    obtain ⟨-, -, hst, -⟩ | hold := hnew hs'
    exacts [hst, h.stop_eq hold]
  case live_iff =>
    intro other task
    rw [hlive, hw₁]
    exact h.live_iff
  case running_eq =>
    rw [liveSlots_congr hlive, hw₁]
    exact h.running_eq
  case slot_cell =>
    intro other s hs'
    obtain ⟨-, -, -, -, hc⟩ | hold := hnew hs'
    · omega
    · have := h.slot_cell hold
      omega
  case slot_cell_inj =>
    intro n₁ n₂ s₁ s₂ h₁ h₂ he
    obtain ⟨rfl, -, -, -, hc₁⟩ | hold₁ := hnew h₁ <;> obtain ⟨rfl, -, -, -, hc₂⟩ | hold₂ := hnew h₂
    · rfl
    · have := h.slot_cell hold₂
      omega
    · have := h.slot_cell hold₁
      omega
    · exact h.slot_cell_inj hold₁ hold₂ he
  case task_cell =>
    intro task spawned ht
    have := h.task_cell (htasks ▸ ht)
    omega
  case task_cell_slot =>
    intro task spawned other s ht hs' he
    obtain ⟨-, -, -, -, hc⟩ | hold := hnew hs'
    · have := h.task_cell (htasks ▸ ht)
      omega
    · exact h.task_cell_slot (htasks ▸ ht) hold he
  case live_cell =>
    intro other s task spawned hs' hh ht
    obtain ⟨-, -, -, hn, -⟩ | hold := hnew hs'
    · rw [hn] at hh
      cases hh
    · exact h.live_cell hold hh (htasks ▸ ht)
  all_goals rw [hw₁]
  exacts [h.finished_lt, h.queue_finished, h.queue_service, h.queue_nodup, h.task_cell_task]

/-- The tasks after a spawn: the old ones, and the new one at the end. -/
theorem getElem?_spawn_tasks {task : ℕ} {spawned : Task} :
    (w.spawn name slot).tasks[task]? = some spawned ↔
      w.tasks[task]? = some spawned ∨
        task = w.tasks.length ∧ spawned = ⟨slot.service, slot.deps, slot.shared⟩ := by
  rw [spawn, List.getElem?_append]
  split_ifs with hlt
  · refine ⟨.inl, fun h => h.elim id ?_⟩
    rintro ⟨rfl, -⟩
    exact absurd hlt (lt_irrefl _)
  · rw [List.getElem?_eq_none (not_lt.mp hlt), List.getElem?_singleton]
    split_ifs with h0
    · have htask : task = w.tasks.length := by omega
      simp [htask, eq_comm]
    · have htask : task ≠ w.tasks.length := by omega
      simp [htask]

theorem live_spawn (other : ServiceName) :
    (w.spawn name slot).live other =
      if other = name then some w.tasks.length else w.live other := by
  rw [spawn, live, TreeMap.getElem?_insert]
  split_ifs <;> rfl

/-- A slot without a task may be given one. -/
theorem Accounts.spawn (h : w.Accounts) {slot₀ : Slot} (hs : w.slots[name]? = some slot₀)
    (hidle : slot₀.handle = none) (hname : slot.service.name = name)
    (hshared : slot.shared = slot₀.shared) : (w.spawn name slot).Accounts := by
  have hlive : ∀ other, (w.spawn name slot).live other =
      if other = name then some w.tasks.length else w.live other := live_spawn
  have hnone : w.live name = none := by rw [live_of_slot hs, hidle]
  have hfresh : w.tasks.length ∉ w.finished := fun hmem => lt_irrefl _ (h.finished_lt hmem)
  have hlen : (w.spawn name slot).cells.length = w.cells.length := List.length_modify ..
  have hold : ∀ {other : ServiceName} {s : Slot}, (w.spawn name slot).slots[other]? = some s →
      other = name ∧ s.service.name = name ∧ s.stop = s.handle ∧
        s.handle = some w.tasks.length ∧ s.shared = slot₀.shared ∨
      other ≠ name ∧ w.slots[other]? = some s := by
    intro other s hs'
    rw [Stack.spawn, TreeMap.getElem?_insert] at hs'
    split_ifs at hs' with he
    · cases hs'
      exact .inl ⟨he, hname, rfl, rfl, hshared⟩
    · exact .inr ⟨he, hs'⟩
  constructor
  case slot_name =>
    intro other s hs'
    obtain ⟨rfl, hn, -⟩ | ⟨-, hs'⟩ := hold hs'
    exacts [hn, h.slot_name hs']
  case stop_eq =>
    intro other s hs'
    obtain ⟨-, -, hst, -⟩ | ⟨-, hs'⟩ := hold hs'
    exacts [hst, h.stop_eq hs']
  case live_iff =>
    intro other task
    rw [hlive]
    split_ifs with he
    · subst he
      constructor
      · intro ht
        cases ht
        exact ⟨_, getElem?_spawn_tasks.mpr (.inr ⟨rfl, rfl⟩), hname, .inl hfresh⟩
      · rintro ⟨spawned, ht, hn, hout⟩
        obtain ht | ⟨rfl, -⟩ := getElem?_spawn_tasks.mp ht
        · have := h.live_iff.mpr ⟨spawned, ht, hn, hout⟩
          rw [hnone] at this
          cases this
        · rfl
    · rw [h.live_iff]
      constructor
      · rintro ⟨spawned, ht, hn, hout⟩
        exact ⟨spawned, getElem?_spawn_tasks.mpr (.inl ht), hn, hout⟩
      · rintro ⟨spawned, ht, hn, hout⟩
        obtain ht | ⟨rfl, rfl⟩ := getElem?_spawn_tasks.mp ht
        · exact ⟨spawned, ht, hn, hout⟩
        · exact absurd (hn.symm.trans hname) he
  case finished_lt =>
    intro task hmem
    have := h.finished_lt hmem
    simp only [Stack.spawn, List.length_append, List.length_singleton]
    omega
  case queue_service =>
    intro task report hmem
    obtain ⟨spawned, ht, hn⟩ := h.queue_service hmem
    exact ⟨spawned, getElem?_spawn_tasks.mpr (.inl ht), hn⟩
  case running_eq =>
    have hins : (w.spawn name slot).liveSlots = insert name w.liveSlots := by
      ext other
      rw [Finset.mem_insert, mem_liveSlots, mem_liveSlots, hlive]
      split_ifs with he <;> simp [he]
    have hnot : name ∉ w.liveSlots := by simp [mem_liveSlots, hnone]
    rw [hins, Finset.card_insert_of_notMem hnot, ← h.running_eq]
    rfl
  case slot_cell =>
    intro other s hs'
    rw [hlen]
    obtain ⟨-, -, -, -, hc⟩ | ⟨-, hs'⟩ := hold hs'
    · rw [hc]
      exact h.slot_cell hs
    · exact h.slot_cell hs'
  case slot_cell_inj =>
    intro n₁ n₂ s₁ s₂ h₁ h₂ he
    obtain ⟨rfl, -, -, -, hc₁⟩ | ⟨-, g₁⟩ := hold h₁ <;>
      obtain ⟨rfl, -, -, -, hc₂⟩ | ⟨-, g₂⟩ := hold h₂
    · rfl
    · exact h.slot_cell_inj hs g₂ (hc₁ ▸ he)
    · exact h.slot_cell_inj g₁ hs (hc₂ ▸ he)
    · exact h.slot_cell_inj g₁ g₂ he
  case task_cell =>
    intro task spawned ht
    rw [hlen]
    obtain ht | ⟨-, rfl⟩ := getElem?_spawn_tasks.mp ht
    · exact h.task_cell ht
    · exact hshared ▸ h.slot_cell hs
  case task_cell_slot =>
    intro task spawned other s ht hs' he
    obtain g | ⟨-, rfl⟩ := getElem?_spawn_tasks.mp ht <;>
      obtain ⟨rfl, -, -, -, hc⟩ | ⟨-, g'⟩ := hold hs'
    · exact h.task_cell_slot g hs (he.trans hc)
    · exact h.task_cell_slot g g' he
    · exact hname
    · exact hname.trans (h.slot_cell_inj hs g' (hshared ▸ he))
  case task_cell_task =>
    intro task₁ task₂ spawned₁ spawned₂ h₁ h₂ he
    obtain h₁ | ⟨-, rfl⟩ := getElem?_spawn_tasks.mp h₁ <;>
      obtain h₂ | ⟨-, rfl⟩ := getElem?_spawn_tasks.mp h₂
    · exact h.task_cell_task h₁ h₂ he
    · exact (h.task_cell_slot h₁ hs (he.trans hshared)).trans hname.symm
    · exact hname.trans (h.task_cell_slot h₂ hs (he.symm.trans hshared)).symm
    · rfl
  case live_cell =>
    intro other s task spawned hs' hh ht
    obtain ⟨rfl, -, -, hst, hc⟩ | ⟨hne, hs'⟩ := hold hs'
    · obtain rfl : w.tasks.length = task := Option.some.inj (hst.symm.trans hh)
      obtain ht | ⟨-, rfl⟩ := getElem?_spawn_tasks.mp ht
      · exact absurd (List.getElem?_eq_some_iff.mp ht).1 (lt_irrefl _)
      · exact hshared.trans hc.symm
    · obtain ht | ⟨rfl, -⟩ := getElem?_spawn_tasks.mp ht
      · exact h.live_cell hs' hh ht
      · obtain ⟨spawned, ht, -⟩ := h.live_iff.mp ((live_of_slot hs').trans hh)
        exact absurd (List.getElem?_eq_some_iff.mp ht).1 (lt_irrefl _)
  exacts [h.queue_finished, h.queue_nodup]

/-- The first half of the report arm: the report is off the queue, and the slot of its service has
no task any more. -/
def release (w : Stack) (rest : List (ℕ × ServiceReport)) (name : ServiceName)
    (slot : Slot) : Stack :=
  { w with
    reportQueue := rest
    running := w.running - 1
    slots := w.slots.insert name { slot with stop := none, handle := none } }

theorem live_release {rest : List (ℕ × ServiceReport)} (other : ServiceName) :
    (w.release rest name slot).live other = if other = name then none else w.live other := by
  rw [release, live, TreeMap.getElem?_insert]
  split_ifs <;> rfl

/-- Taking the report of a task keeps the accounts. -/
theorem Accounts.release (h : w.Accounts) {task : ℕ} {report : ServiceReport}
    {rest : List (ℕ × ServiceReport)} (hqueue : w.reportQueue = (task, report) :: rest)
    (hs : w.slots[report.service]? = some slot) (hhandle : slot.handle = some task) :
    (w.release rest report.service slot).Accounts := by
  have hlive : ∀ other, (w.release rest report.service slot).live other =
      if other = report.service then none else w.live other := live_release
  have hlive₀ : w.live report.service = some task := by rw [live_of_slot hs, hhandle]
  have hnodup := h.queue_nodup
  rw [hqueue, List.map_cons, List.nodup_cons] at hnodup
  have hfinished : task ∈ w.finished := h.queue_finished (by simp [hqueue])
  have hsub : ∀ {t : ℕ}, t ∈ rest.map Prod.fst → t ∈ w.reportQueue.map Prod.fst := by
    intro t ht
    rw [hqueue]
    exact List.mem_cons_of_mem _ ht
  have hold : ∀ {other : ServiceName} {s : Slot},
      (w.release rest report.service slot).slots[other]? = some s →
      ∃ s₀ : Slot, w.slots[other]? = some s₀ ∧ s.service.name = s₀.service.name ∧
        s.stop = s.handle ∧ s.shared = s₀.shared ∧
        (s.handle = none ∨ s.handle = s₀.handle) := by
    intro other s hs'
    rw [Stack.release, TreeMap.getElem?_insert] at hs'
    split_ifs at hs' with he
    · cases hs'
      exact ⟨slot, he ▸ hs, rfl, rfl, rfl, .inl rfl⟩
    · exact ⟨s, hs', rfl, h.stop_eq hs', rfl, .inr rfl⟩
  constructor
  case slot_name =>
    intro other s hs'
    obtain ⟨s₀, h₀, hn, -⟩ := hold hs'
    rw [hn, h.slot_name h₀]
  case stop_eq =>
    intro other s hs'
    obtain ⟨s₀, -, -, hst, -⟩ := hold hs'
    exact hst
  case live_iff =>
    intro other t
    rw [hlive]
    split_ifs with he
    · subst he
      simp only [false_iff]
      rintro ⟨spawned, ht, hn, hout⟩
      have hold : w.live report.service = some t :=
        h.live_iff.mpr ⟨spawned, ht, hn, hout.imp_right hsub⟩
      obtain rfl : t = task := Option.some.inj (hold.symm.trans hlive₀)
      exact hout.elim (fun hnot => hnot hfinished) hnodup.1
    · rw [h.live_iff]
      refine exists_congr fun spawned => and_congr_right fun ht => and_congr_right fun hn =>
        or_congr_right ?_
      have hne : t ≠ task := by
        rintro rfl
        obtain ⟨spawned', ht', hn', -⟩ := h.live_iff.mp hlive₀
        rw [ht] at ht'
        cases ht'
        exact he (hn.symm.trans hn')
      rw [hqueue, List.map_cons, List.mem_cons, or_iff_right hne]
      rfl
  case queue_finished => exact fun hmem => h.queue_finished (hsub hmem)
  case queue_service =>
    intro t r hmem
    exact h.queue_service (hqueue ▸ List.mem_cons_of_mem _ hmem)
  case queue_nodup => exact hnodup.2
  case running_eq =>
    have herase : (w.release rest report.service slot).liveSlots = w.liveSlots.erase report.service := by
      ext other
      rw [Finset.mem_erase, mem_liveSlots, mem_liveSlots, hlive]
      split_ifs with he <;> simp [he]
    have hmem : report.service ∈ w.liveSlots := by simp [mem_liveSlots, hlive₀]
    rw [herase, Finset.card_erase_of_mem hmem, ← h.running_eq]
    rfl
  case slot_cell =>
    intro other s hs'
    obtain ⟨s₀, h₀, -, -, hc, -⟩ := hold hs'
    rw [hc]
    exact h.slot_cell h₀
  case slot_cell_inj =>
    intro n₁ n₂ s₁ s₂ h₁ h₂ he
    obtain ⟨t₁, g₁, -, -, hc₁, -⟩ := hold h₁
    obtain ⟨t₂, g₂, -, -, hc₂, -⟩ := hold h₂
    exact h.slot_cell_inj g₁ g₂ (by rw [← hc₁, he, hc₂])
  case task_cell_slot =>
    intro t spawned other s ht hs' he
    obtain ⟨s₀, h₀, -, -, hc, -⟩ := hold hs'
    exact h.task_cell_slot ht h₀ (he.trans hc)
  case live_cell =>
    intro other s t spawned hs' hh ht
    obtain ⟨s₀, h₀, -, -, hc, hn | hh₀⟩ := hold hs'
    · rw [hn] at hh
      cases hh
    · rw [hc]
      exact h.live_cell h₀ (hh₀ ▸ hh) ht
  exacts [h.finished_lt, h.task_cell, h.task_cell_task]

/-! ### The flags -/

theorem FlagsAsked.congr (h : w.FlagsAsked) (hslots : w'.slots = w.slots)
    (hasked : w.asked ⊆ w'.asked) : w'.FlagsAsked := by
  intro name slot hs hf
  obtain ⟨task, ht, ha⟩ := h name slot (hslots ▸ hs) hf
  exact ⟨task, ht, hasked ha⟩

/-- Inserting a slot keeps the flags in order when those of the new slot are. -/
theorem FlagsAsked.insert (h : w.FlagsAsked) (hslots : w'.slots = w.slots.insert name slot)
    (hasked : w.asked ⊆ w'.asked)
    (hflag : slot.Flagged → ∃ task, slot.handle = some task ∧ task ∈ w'.asked) :
    w'.FlagsAsked := by
  intro other s hs hf
  rw [hslots, TreeMap.getElem?_insert] at hs
  split_ifs at hs
  · cases hs
    exact hflag hf
  · obtain ⟨task, ht, ha⟩ := h other s hs hf
    exact ⟨task, ht, hasked ha⟩

theorem FlagsAsked.erase (h : w.FlagsAsked) (hslots : w'.slots = w.slots.erase name)
    (hasked : w.asked ⊆ w'.asked) : w'.FlagsAsked := by
  intro other s hs hf
  rw [hslots, TreeMap.getElem?_erase] at hs
  split_ifs at hs
  obtain ⟨task, ht, ha⟩ := h other s hs hf
  exact ⟨task, ht, hasked ha⟩

end Stack

end Servicrab
