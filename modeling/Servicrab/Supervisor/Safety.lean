import Servicrab.Supervisor.Steps

/-!
# The bookkeeping of the loop is sound

What the invariant of the loop means for its counter, its slots and its debug assertions, in every
reachable state. A command never takes a task away from a slot: `Stack.KeepsTasks` is that frame
condition, proved for each operation and each phase of a reload.

## Main definitions

* `Stack.KeepsTasks`, `Stack.Sound`.
* `sampleConfig`: small configurations to run the loop on.

## Main results

* `Stack.keepsTasks_handleControl`.
* `Stack.sound_of_reachable`.
-/

open Std (ExtTreeMap)
open TransitionSystem (AnyStep)

namespace Servicrab

namespace Stack

variable {w w' w'' : Stack} {name : ServiceName} {slot slot' : Slot}

/-! ### Commands keep the tasks of the slots -/

/-- Every live slot is still there, with its task, its stop channel and its cell. -/
def KeepsTasks (w w' : Stack) : Prop :=
  ∀ (name : ServiceName) (slot : Slot), w.slots[name]? = some slot → slot.handle.isSome →
    ∃ slot', w'.slots[name]? = some slot' ∧ slot'.handle = slot.handle ∧
      slot'.stop = slot.stop ∧ slot'.shared = slot.shared

theorem KeepsTasks.of_slots_eq (h : w'.slots = w.slots) : KeepsTasks w w' :=
  fun _ slot hs _ => ⟨slot, h ▸ hs, rfl, rfl, rfl⟩

theorem KeepsTasks.trans (h : KeepsTasks w w') (h' : KeepsTasks w' w'') : KeepsTasks w w'' := by
  intro name slot hs hlive
  obtain ⟨slot₁, hs₁, hh₁, hst₁, hc₁⟩ := h name slot hs hlive
  obtain ⟨slot₂, hs₂, hh₂, hst₂, hc₂⟩ := h' name slot₁ hs₁ (hh₁ ▸ hlive)
  exact ⟨slot₂, hs₂, hh₂.trans hh₁, hst₂.trans hst₁, hc₂.trans hc₁⟩

/-- A change of one slot keeps all tasks if it keeps that slot's. -/
theorem KeepsTasks.of_other (name : ServiceName)
    (hother : ∀ other, other ≠ name → w'.slots[other]? = w.slots[other]?)
    (hself : ∀ {slot : Slot}, w.slots[name]? = some slot → slot.handle.isSome →
      ∃ slot', w'.slots[name]? = some slot' ∧ slot'.handle = slot.handle ∧
        slot'.stop = slot.stop ∧ slot'.shared = slot.shared) : KeepsTasks w w' := by
  intro other s hs hlive
  by_cases he : other = name
  · subst he
    exact hself hs hlive
  · exact ⟨s, (hother other he).trans hs, rfl, rfl, rfl⟩

/-- Any slot may be put where no live one is. -/
theorem KeepsTasks.insert (h : w'.slots = w.slots.insert name slot') (hlive : w.live name = none) :
    KeepsTasks w w' := by
  refine .of_other name (fun other he => ?_) fun hs hsome => ?_
  · rw [h, TreeMap.getElem?_insert_of_ne he]
  · rw [← live_of_slot hs, hlive] at hsome
    cases hsome

theorem KeepsTasks.setSlot (hs : w.slots[name]? = some slot) (hsame : slot'.SameTask slot) :
    KeepsTasks w (w.setSlot name slot') := by
  refine .of_other _ (fun other he => getElem?_setSlot_of_ne he) fun hs₀ _ => ?_
  obtain rfl := Option.some.inj (hs.symm.trans hs₀)
  refine ⟨slot', ?_, hsame.handle_eq, hsame.stop_eq, hsame.shared_eq⟩
  rw [Stack.setSlot, TreeMap.getElem?_insert, if_pos rfl]

theorem KeepsTasks.op (hop : Op w w') : KeepsTasks w w' := by
  cases hop with
  | config => exact .of_slots_eq rfl
  | set hs hsame => exact .setSlot hs hsame
  | ask hs hsame => exact .setSlot hs hsame
  | erase hs hidle =>
    refine .of_other _ (fun other he => TreeMap.getElem?_erase_of_ne he) fun hs₀ hlive => ?_
    obtain rfl := Option.some.inj (hs.symm.trans hs₀)
    rw [hidle] at hlive
    cases hlive
  | insert hs =>
    rw [insertSlot_of_none hs]
    exact .insert rfl (by simp [live, hs])
  | spawn hs hidle => exact .insert rfl ((live_of_slot hs).trans hidle)
  | rewire =>
    intro name slot hs _
    refine ⟨_, by rw [rewireDependencies, ExtTreeMap.getElem?_map, hs, Option.map_some], ?_⟩
    split <;> exact ⟨rfl, rfl, rfl⟩

theorem KeepsTasks.ops (hops : Ops w w') : KeepsTasks w w' := by
  induction hops with
  | refl => exact .of_slots_eq rfl
  | tail _ hop ih => exact ih.trans (.op hop)

/-- No command overwrites or takes away a live slot. -/
theorem keepsTasks_control (h : w.Inv) (hstep : w.step .control = some w') : KeepsTasks w w' := by
  obtain ⟨_, rest, answers, w₁, -, hops, rfl⟩ := h.ops_control hstep
  have hrest : KeepsTasks w { w with control := rest } := .of_slots_eq rfl
  exact (hrest.trans (.ops hops)).trans (.of_slots_eq rfl)

/-! ### Soundness -/

/-- What the loop relies on, and what its debug assertions check. -/
structure Sound (w : Stack) : Prop where
  stop_iff_handle : ∀ {name : ServiceName} {slot : Slot},
    w.slots[name]? = some slot → (slot.stop.isSome ↔ slot.handle.isSome)
  /-- The counter counts the slots with a live task. -/
  running_eq : w.running =
    (w.slots.toList.filter fun entry => entry.2.isRunning).length
  /-- A service has at most one supervision task whose report was not taken yet. -/
  task_unique : ∀ {name : ServiceName} {task task' : ℕ},
    w.Outstanding task name → w.Outstanding task' name → task = task'
  flagged_live : ∀ {name : ServiceName} {slot : Slot},
    w.slots[name]? = some slot → slot.Flagged → slot.isRunning
  keeps_tasks : ∀ {w' : Stack}, w.step .control = some w' → KeepsTasks w w'
  no_failed : w.failedAssertions = []
  /-- The counter is positive when a report is there to be taken. -/
  running_pos : w.reportQueue ≠ [] → 0 < w.running

/-- The live slots, counted over the entries of the map. -/
theorem card_liveSlots (w : Stack) :
    w.liveSlots.card = (w.slots.toList.filter fun entry => entry.2.isRunning).length := by
  have hkeys : (w.slots.keys.filter fun name => (w.live name).isSome) =
      (w.slots.toList.filter fun entry => entry.2.isRunning).map Prod.fst := by
    rw [← ExtTreeMap.map_fst_toList_eq_keys, List.filter_map]
    refine congrArg (List.map Prod.fst) (List.filter_congr fun entry hmem => ?_)
    have hs := ExtTreeMap.mem_toList_iff_getElem?_eq_some.mp hmem
    simp only [Function.comp, live_of_slot hs, Slot.isRunning]
  rw [liveSlots, List.toFinset_card_of_nodup, hkeys, List.length_map]
  exact ExtTreeMap.nodup_keys.filter _

theorem Inv.sound (h : w.Inv) : w.Sound where
  stop_iff_handle hs := by rw [h.stop_eq hs]
  running_eq := h.running_eq.trans (card_liveSlots w)
  task_unique ht ht' := Option.some.inj ((h.live_iff.mpr ht).symm.trans (h.live_iff.mpr ht'))
  flagged_live hs hf := by
    obtain ⟨task, ht, -⟩ := h.flags_asked _ _ hs hf
    simp [Slot.isRunning, ht]
  keeps_tasks hstep := keepsTasks_control h hstep
  no_failed := h.no_failed
  running_pos hqueue := by
    obtain ⟨⟨task, report⟩, rest, hqueue⟩ := List.exists_cons_of_ne_nil hqueue
    obtain ⟨slot, hs, hhandle⟩ := h.exists_slot_of_report hqueue
    refine h.running_pos report.service ?_
    rw [live_of_slot hs, hhandle]
    rfl

/-- **The bookkeeping of the loop is sound** in every state it reaches, whatever the commands, the
reports and their order: the counter is the number of live slots, a service has one task at most,
flags are set on live slots only, no command touches a live slot's task, and no debug assertion
ever fails. -/
theorem sound_of_reachable (h : stackSystem.Reachable AnyStep w) : w.Sound :=
  (inv_of_reachable h).sound

end Stack

/-! ### A stack to run -/

/-- A service that depends on others, in their default conditions. -/
def sampleService (name : String) (deps : List String) (args : List String) : Service where
  name := ⟨name⟩
  executable := "run"
  args := args
  cwd := "/"
  env := ∅
  envFiles := []
  dependsOn := deps.map fun dep => ⟨⟨dep⟩, none⟩
  profiles := []
  autostart := true
  restart := .never
  restartDelay := 0
  restartMaxDelay := 0
  maxRestarts := 0
  stableAfter := 0
  shutdownSignal := .term
  shutdownTimeout := 0
  health := none
  logToFile := false
  watch := none

/-- A configuration of the given services, started in the given order. -/
def configOf (services : List Service) : Config where
  services := services.foldl (fun services service => services.insert service.name service) ∅
  startOrder := services.map Service.name

def sampleOptions : StackOptions where
  noRestart := false
  abortOnFailure := false
  keepRunning := true

/-- Two services, the second one depending on the first. -/
def sampleConfig : ValidConfig :=
  ⟨configOf [sampleService "db" [] [], sampleService "web" ["db"] []],
    ⟨by decide +kernel, by decide +kernel, by decide +kernel⟩⟩

def samplePlan : StartPlan sampleConfig.1 := ⟨[⟨"db"⟩, ⟨"web"⟩], ⟨⟨[], []⟩, rfl⟩⟩

/-- The sample configuration with another command line for the first service. -/
def changedConfig : ValidConfig :=
  ⟨configOf [sampleService "db" [] ["--new"], sampleService "web" ["db"] []],
    ⟨by decide +kernel, by decide +kernel, by decide +kernel⟩⟩

def changedPlan : StartPlan changedConfig.1 := ⟨[⟨"db"⟩, ⟨"web"⟩], ⟨⟨[], []⟩, rfl⟩⟩

/-- The sample configuration without its second service. -/
def reducedConfig : ValidConfig :=
  ⟨configOf [sampleService "db" [] []],
    ⟨by decide +kernel, by decide +kernel, by decide +kernel⟩⟩

def reducedPlan : StartPlan reducedConfig.1 := ⟨[⟨"db"⟩], ⟨⟨[], []⟩, rfl⟩⟩

/-- The stack of the two services, both started. -/
def sampleStack : Stack := Stack.initial sampleOptions sampleConfig samplePlan.1 ∅

theorem init_sampleStack : stackSystem.init sampleStack :=
  ⟨sampleOptions, sampleConfig, samplePlan, ∅, rfl⟩

namespace Stack

/-- A reload changes the first service, whose task ends and reports; the second service, which a
client asked to stop, has a task that was asked and has not ended. -/
def changeThenStop : List StackAction :=
  [.submit (.reload changedConfig changedPlan 0), .control,
    .finish 0 (.finished (.stopped .requested)), .report, .submit (.stop ⟨"web"⟩ 1), .control]

theorem sound_changeThenStop : ∃ w, stackSystem.run sampleStack changeThenStop = some w ∧
    w.tasks.map (fun task => task.service.name.raw) = ["db", "web", "db"] ∧
    w.live ⟨"db"⟩ = some 2 ∧ (w.slots[(⟨"web"⟩ : ServiceName)]?.any fun slot => slot.pending = some 1) ∧
    w.running = 2 ∧ w.Sound := by
  have hrun : ((stackSystem.run sampleStack changeThenStop).map fun w =>
      decide (w.tasks.map (fun task => task.service.name.raw) = ["db", "web", "db"] ∧
        w.live ⟨"db"⟩ = some 2 ∧
        (w.slots[(⟨"web"⟩ : ServiceName)]?.any fun slot => slot.pending = some 1) ∧
        w.running = 2)) = some true := by decide +kernel
  obtain ⟨w, hw, hfacts⟩ := Option.map_eq_some_iff.mp hrun
  obtain ⟨htasks, hlive, hpending, hrunning⟩ := of_decide_eq_true hfacts
  exact ⟨w, hw, htasks, hlive, hpending, hrunning,
    sound_of_reachable ⟨_, init_sampleStack, TransitionSystem.steps_of_run hw⟩⟩

end Stack

end Servicrab
