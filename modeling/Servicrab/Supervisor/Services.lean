import Servicrab.Supervisor.Safety

/-!
# The services the supervisor knows

A definition of a service reaches the supervisor with a configuration, at the start or with a
reload, and goes from there into a slot and from the slot to a task. So what is true of the services
of all configurations is true of the services that run.

## Main definitions

* `Config.Each`, `Control.Brings`, `Stack.Knows`.

## Main results

* `Stack.Knows.step`, `Stack.knows_initial`.
-/

open Std (ExtTreeMap)

namespace Servicrab

/-- Every service of the configuration has the property. -/
def Config.Each (P : Service → Prop) (config : Config) : Prop :=
  ∀ (name : ServiceName) (service : Service), config.services[name]? = some service → P service

/-- The services that a command brings with it have the property. -/
def Control.Brings (P : Service → Prop) : Control → Prop
  | .reload config _ _ => config.1.Each P
  | _ => True

namespace Stack

variable {w w' : Stack} {P : Service → Prop} {name : ServiceName} {slot slot' : Slot}

/-- Every service of the configuration, of a slot, of a task or of a command has the property. -/
structure Knows (P : Service → Prop) (w : Stack) : Prop where
  config : w.config.1.Each P
  slots : ∀ (name : ServiceName) (slot : Slot), w.slots[name]? = some slot → P slot.service
  tasks : ∀ spawned ∈ w.tasks, P spawned.service
  control : ∀ command ∈ w.control, command.Brings P

theorem Knows.congr (h : w.Knows P) (hconfig : w'.config = w.config) (hslots : w'.slots = w.slots)
    (htasks : w'.tasks = w.tasks) (hcontrol : w'.control = w.control) : w'.Knows P :=
  ⟨hconfig ▸ h.config, hslots ▸ h.slots, htasks ▸ h.tasks, hcontrol ▸ h.control⟩

/-! ### Slots -/

theorem Knows.insert (h : w.Knows P) (hconfig : w'.config = w.config)
    (hslots : w'.slots = w.slots.insert name slot) (hslot : P slot.service)
    (htasks : w'.tasks = w.tasks) (hcontrol : w'.control = w.control) : w'.Knows P := by
  refine ⟨hconfig ▸ h.config, fun other s hs => ?_, htasks ▸ h.tasks, hcontrol ▸ h.control⟩
  rw [hslots, TreeMap.getElem?_insert] at hs
  split_ifs at hs
  · cases hs
    exact hslot
  · exact h.slots other s hs

theorem Knows.erase (h : w.Knows P) (hconfig : w'.config = w.config)
    (hslots : w'.slots = w.slots.erase name) (htasks : w'.tasks = w.tasks)
    (hcontrol : w'.control = w.control) : w'.Knows P := by
  refine ⟨hconfig ▸ h.config, fun other s hs => ?_, htasks ▸ h.tasks, hcontrol ▸ h.control⟩
  rw [hslots, TreeMap.getElem?_erase] at hs
  split_ifs at hs
  exact h.slots other s hs

/-- A slot that gets a task hands its service on. -/
theorem Knows.spawn (h : w.Knows P) (hslot : P slot.service) : (w.spawn name slot).Knows P := by
  have hinsert : (w.setSlot name
      { slot with stop := some w.tasks.length, handle := some w.tasks.length }).Knows P :=
    h.insert rfl rfl hslot rfl rfl
  refine ⟨h.config, hinsert.slots, fun spawned hmem => ?_, h.control⟩
  rcases List.mem_append.mp hmem with hmem | hmem
  · exact h.tasks spawned hmem
  · rw [List.mem_singleton.mp hmem]
    exact hslot

theorem Knows.insertSlot (h : w.Knows P) {service : Service} (hservice : P service) :
    (w.insertSlot name service).Knows P := by
  simp only [Stack.insertSlot]
  rw [debugAssert_eq]
  refine Knows.insert h rfl rfl ?_ rfl rfl
  exact hservice

theorem Knows.rewireDependencies (h : w.Knows P) : w.rewireDependencies.Knows P := by
  refine ⟨h.config, fun other s hs => ?_, h.tasks, h.control⟩
  rw [Stack.rewireDependencies, ExtTreeMap.getElem?_map] at hs
  obtain ⟨s₀, h₀, rfl⟩ := Option.map_eq_some_iff.mp hs
  have hknown := h.slots other s₀ h₀
  split <;> exact hknown

/-! ### Reloads -/

theorem Knows.removeService (h : w.Knows P) (name : ServiceName) : (w.removeService name).Knows P := by
  unfold Stack.removeService
  split
  · exact h
  · rename_i slot hs
    split
    · refine Knows.insert h rfl rfl ?_ rfl rfl
      exact h.slots name slot hs
    · exact h.erase rfl rfl rfl rfl

theorem Knows.addService (h : w.Knows P) {config : Config} (hconfig : config.Each P)
    (name : ServiceName) : (w.addService config name).Knows P := by
  unfold Stack.addService
  split
  · exact h
  · rename_i service hservice
    split
    · rw [debugAssert_eq]
      refine Knows.insert h rfl rfl ?_ rfl rfl
      exact hconfig name service hservice
    · exact h.insertSlot (hconfig name service hservice)

theorem Knows.changeService (h : w.Knows P) {config : Config} (hconfig : config.Each P)
    (name : ServiceName) : (w.changeService config name).Knows P := by
  unfold Stack.changeService
  split
  · rename_i service slot hservice hs
    split <;>
    · refine Knows.insert h rfl rfl ?_ rfl rfl
      exact hconfig name service hservice
  · exact h

theorem Knows.spawnAdded (h : w.Knows P) (name : ServiceName) : (w.spawnAdded name).Knows P := by
  unfold Stack.spawnAdded
  split
  · rename_i slot hs
    split_ifs
    · exact h
    · exact h.spawn (h.slots name slot hs)
  · exact h

theorem Knows.foldl (h : w.Knows P) {f : Stack → ServiceName → Stack}
    (hf : ∀ {s : Stack} (name : ServiceName), s.Knows P → (f s name).Knows P)
    (names : List ServiceName) : (names.foldl f w).Knows P :=
  List.foldlRecOn (motive := Knows P) names f h fun _ hs name _ => hf name hs

theorem Knows.reload (h : w.Knows P) {config : ValidConfig} (hconfig : config.1.Each P)
    (plan : List ServiceName) : (w.reload config plan).1.Knows P := by
  unfold Stack.reload
  split
  · exact h
  · have h₁ : Knows P { w with config := config, plan := plan } :=
      ⟨hconfig, h.slots, h.tasks, h.control⟩
    have h₂ := h₁.foldl (fun name hs => hs.removeService name) (w.diff config.1 plan).removed
    have h₃ := h₂.foldl (fun name hs => hs.addService hconfig name) (w.diff config.1 plan).added
    have h₄ := h₃.foldl (fun name hs => hs.changeService hconfig name)
      (w.diff config.1 plan).changed
    exact h₄.rewireDependencies.foldl (fun name hs => hs.spawnAdded name) _

/-! ### Steps -/

theorem Knows.handleControl (h : w.Knows P) {command : Control} (hcommand : command.Brings P) :
    (w.handleControl command).Knows P := by
  have hsend : ∀ {s : Stack} (ack : ℕ) (result : Verdict), s.Knows P → (s.send ack result).Knows P :=
    fun _ _ hs => hs.congr rfl rfl rfl rfl
  cases command with
  | reload config plan ack => exact hsend _ _ (h.reload hcommand plan.1)
  | start service ack =>
    rw [Stack.handleControl]
    obtain ⟨_, he⟩ | ⟨slot, hs, -, he⟩ := w.withSlot_cases service ack _ <;> rw [he]
    · exact hsend _ _ h
    · split_ifs
      · exact hsend _ _ h
      · exact hsend _ _ (h.spawn (h.slots service slot hs))
  | stop service ack =>
    rw [Stack.handleControl]
    obtain ⟨_, he⟩ | ⟨slot, hs, -, he⟩ := w.withSlot_cases service ack _ <;> rw [he]
    · exact hsend _ _ h
    · split
      · exact hsend _ _ h
      · refine Knows.insert h rfl rfl ?_ rfl rfl
        exact h.slots service slot hs
  | restart service ack =>
    rw [Stack.handleControl]
    obtain ⟨_, he⟩ | ⟨slot, hs, -, he⟩ := w.withSlot_cases service ack _ <;> rw [he]
    · exact hsend _ _ h
    · split
      · exact hsend _ _ (h.spawn (h.slots service slot hs))
      · refine Knows.insert h rfl rfl ?_ rfl rfl
        exact h.slots service slot hs

/-- No step makes up a service: those of a command were there before, or come with a command that is
submitted. -/
theorem Knows.step (h : w.Knows P) (hI : w.Inv) {action : StackAction}
    (hsubmit : ∀ command, action = .submit command → command.Brings P)
    (hstep : w.step action = some w') : w'.Knows P := by
  cases action with
  | submit command =>
    obtain ⟨-, hstep⟩ := Option.ite_none_right_eq_some.mp hstep
    cases hstep
    refine ⟨h.config, h.slots, h.tasks, fun other hmem => ?_⟩
    rcases List.mem_append.mp hmem with hmem | hmem
    · exact h.control other hmem
    · rw [List.mem_singleton.mp hmem]
      exact hsubmit command rfl
  | control =>
    obtain ⟨command, rest, hcontrol, rfl⟩ := step_control hstep
    have htaken : Knows P { w with control := rest } :=
      ⟨h.config, h.slots, h.tasks, fun other hmem =>
        h.control other (hcontrol ▸ List.mem_cons_of_mem _ hmem)⟩
    exact htaken.handleControl (h.control command (hcontrol ▸ List.mem_cons_self))
  | report =>
    obtain ⟨_, report, _, slot, _, _, -, hs, -, heffect⟩ := hI.step_report hstep
    have hslot := h.slots report.service slot hs
    cases heffect with
    | removed => exact h.erase rfl rfl rfl rfl
    | respawned =>
      have hspawn : (w.spawn report.service slot).Knows P := h.spawn hslot
      refine ⟨h.config, fun other s hs' => ?_, hspawn.tasks, h.control⟩
      rw [TreeMap.getElem?_insert] at hs'
      split_ifs at hs'
      · cases hs'
        exact hslot
      · exact h.slots other s hs'
    | stopped =>
      refine Knows.insert h rfl rfl ?_ rfl rfl
      exact hslot
  | interrupt | idle =>
    simp only [Stack.step] at hstep
    split_ifs at hstep
    cases hstep
    exact h.congr rfl rfl rfl rfl
  | finish =>
    obtain ⟨_, -, -, rfl⟩ := finishTask_cases hstep
    exact h.congr rfl rfl rfl rfl
  | write | store | emit =>
    cases hstep
    exact h.congr rfl rfl rfl rfl

/-- The services of the supervisor come from its configuration as it enters its loop. -/
theorem knows_initial (options : StackOptions) (config : ValidConfig) (plan : List ServiceName)
    (stopped : Finset ServiceName) (h : config.1.Each P) :
    (Stack.initial options config plan stopped).Knows P := by
  refine initial_induction ⟨h, by simp [Stack.empty], by simp [Stack.empty], by simp [Stack.empty]⟩
    (fun w name hw => ?_) (fun _ hw => hw.rewireDependencies) (fun w name hw => ?_)
  · unfold insertPlanned
    split
    · rename_i service hservice
      exact hw.insertSlot (hw.config name service hservice)
    · exact hw
  · unfold startService publishStopped
    split_ifs
    · split
      · exact hw
      · exact hw.congr rfl rfl rfl rfl
    · split
      · rename_i slot hs
        exact hw.spawn (hw.slots name slot hs)
      · exact hw

end Stack

end Servicrab
