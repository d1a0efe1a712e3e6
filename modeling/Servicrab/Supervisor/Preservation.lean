import Servicrab.Supervisor.Invariant

/-!
# Commands as sequences of slot operations

A command changes the stack by operations on single slots, each under a condition that keeps the
invariant of `Servicrab.Supervisor.Invariant`: a slot is only taken away or given a task when it
has none, and flags are only set on a slot whose task is asked to stop in the same breath.
`Stack.Op` lists these operations with their conditions; that a command consists of them, in any
state that meets the invariant, is shown once, and what a command keeps is then read off the list.

## Main definitions

* `Stack.Op`, `Stack.Ops`.

## Main results

* `Stack.Inv.op`, `Stack.Op.frame`: what an operation keeps.
* `Stack.handleControl_ops`: a command is a sequence of operations.
-/

open Std (ExtTreeMap)

namespace Servicrab

namespace Stack

variable {w w' : Stack} {name : ServiceName} {slot slot' : Slot}

/-! ### Single slots -/

theorem Inv.congr (h : w.Inv) (hslots : w'.slots = w.slots) (htasks : w'.tasks = w.tasks)
    (hfinished : w'.finished = w.finished) (hqueue : w'.reportQueue = w.reportQueue)
    (hrunning : w'.running = w.running) (hcells : w'.cells.length = w.cells.length)
    (hasked : w.asked ⊆ w'.asked) (hfailed : w'.failedAssertions = w.failedAssertions) :
    w'.Inv where
  toAccounts := h.toAccounts.congr hslots htasks hfinished hqueue hrunning hcells
  flags_asked := h.flags_asked.congr hslots hasked
  no_failed := hfailed.trans h.no_failed

/-- An idle slot has no flags. -/
theorem Inv.not_flagged (h : w.Inv) (hs : w.slots[name]? = some slot)
    (hidle : slot.handle = none) : ¬ slot.Flagged := by
  intro hf
  obtain ⟨task, ht, -⟩ := h.flags_asked name slot hs hf
  rw [hidle] at ht
  cases ht

/-- A slot may be changed as long as no flag is set that was not set before. -/
theorem Inv.setSlot (h : w.Inv) (hs : w.slots[name]? = some slot) (hsame : slot'.SameTask slot)
    (hflag : slot'.Flagged → slot.Flagged) : (w.setSlot name slot').Inv where
  toAccounts := h.toAccounts.setSlot hs hsame
  flags_asked := h.flags_asked.insert rfl (List.Subset.refl _) fun hf => by
    rw [hsame.handle_eq]
    exact h.flags_asked name slot hs (hflag hf)
  no_failed := h.no_failed

/-- Any flag of a live slot may be set when its task is asked to stop as well. -/
theorem Inv.setSlot_request (h : w.Inv) (hs : w.slots[name]? = some slot)
    (hsame : slot'.SameTask slot) {stop : ℕ} (hstop : slot.stop = some stop)
    (reason : ShutdownReason) : ((w.setSlot name slot').request stop reason).Inv where
  toAccounts := (h.toAccounts.setSlot hs hsame).congr rfl rfl rfl rfl rfl rfl
  flags_asked := by
    have hslots : ((w.setSlot name slot').request stop reason).slots =
        w.slots.insert name slot' := rfl
    refine h.flags_asked.insert hslots ?_ fun _ => ⟨stop, ?_, ?_⟩
    · rw [asked_request]
      exact List.subset_append_left _ _
    · rw [hsame.handle_eq, ← h.stop_eq hs, hstop]
    · rw [asked_request]
      exact List.mem_append_right _ (List.mem_singleton_self stop)
  no_failed := h.no_failed

theorem Inv.erase (h : w.Inv) (hlive : w.live name = none) :
    { w with slots := w.slots.erase name }.Inv where
  toAccounts := h.toAccounts.erase hlive
  flags_asked := h.flags_asked.erase rfl (List.Subset.refl _)
  no_failed := h.no_failed

theorem Inv.insertSlot (h : w.Inv) (hs : w.slots[name]? = none) {service : Service}
    (hname : service.name = name) : (w.insertSlot name service).Inv where
  toAccounts := h.toAccounts.insertSlot hs hname
  flags_asked := by
    rw [insertSlot_of_none hs]
    refine h.flags_asked.insert rfl (List.Subset.refl _) fun hf => ?_
    simp [Slot.Flagged] at hf
  no_failed := by
    rw [insertSlot_of_none hs]
    exact h.no_failed

/-- An idle slot may be given a task. -/
theorem Inv.spawn (h : w.Inv) (hs : w.slots[name]? = some slot) (hidle : slot.handle = none) :
    (w.spawn name slot).Inv where
  toAccounts := h.toAccounts.spawn hs hidle (h.slot_name hs) rfl
  flags_asked := by
    have hnot := h.not_flagged hs hidle
    exact h.flags_asked.insert rfl (List.Subset.refl _) fun hf => absurd hf hnot
  no_failed := h.no_failed

theorem Inv.rewireDependencies (h : w.Inv) : w.rewireDependencies.Inv where
  toAccounts := h.toAccounts.rewireDependencies
  flags_asked := by
    intro other s hs hf
    rw [Stack.rewireDependencies, ExtTreeMap.getElem?_map] at hs
    obtain ⟨s₀, h₀, rfl⟩ := Option.map_eq_some_iff.mp hs
    split at hf
    · exact h.flags_asked other s₀ h₀ hf
    · exact h.flags_asked other s₀ h₀ hf
  no_failed := h.no_failed

/-! ### The operations -/

/-- What a command is made of. -/
inductive Op (w : Stack) : Stack → Prop
  /-- Another configuration is in force. -/
  | config (config : ValidConfig) (plan : List ServiceName) :
    Op w { w with config := config, plan := plan }
  /-- A slot changes, and gets no flag if it had none. -/
  | set {name : ServiceName} {slot slot' : Slot} (hs : w.slots[name]? = some slot)
    (hsame : slot'.SameTask slot) (hflag : slot'.Flagged → slot.Flagged) :
    Op w (w.setSlot name slot')
  /-- A live slot changes, and its task is asked to stop. -/
  | ask {name : ServiceName} {slot slot' : Slot} {stop : ℕ} (hs : w.slots[name]? = some slot)
    (hsame : slot'.SameTask slot) (hstop : slot.stop = some stop) (reason : ShutdownReason) :
    Op w ((w.setSlot name slot').request stop reason)
  /-- An idle slot goes away. -/
  | erase {name : ServiceName} {slot : Slot} (hs : w.slots[name]? = some slot)
    (hidle : slot.handle = none) : Op w { w with slots := w.slots.erase name }
  /-- A service without a slot gets one. -/
  | insert {name : ServiceName} {service : Service} (hs : w.slots[name]? = none)
    (hname : service.name = name) : Op w (w.insertSlot name service)
  /-- An idle slot gets a task. -/
  | spawn {name : ServiceName} {slot : Slot} (hs : w.slots[name]? = some slot)
    (hidle : slot.handle = none) : Op w (w.spawn name slot)
  /-- The dependencies of all slots are wired anew. -/
  | rewire : Op w w.rewireDependencies

/-- A sequence of operations. -/
def Ops : Stack → Stack → Prop := Relation.ReflTransGen Op

theorem Inv.op (h : w.Inv) (hop : Op w w') : w'.Inv := by
  cases hop with
  | config config plan => exact h.congr rfl rfl rfl rfl rfl rfl (List.Subset.refl _) rfl
  | set hs hsame hflag => exact h.setSlot hs hsame hflag
  | ask hs hsame hstop reason => exact h.setSlot_request hs hsame hstop reason
  | erase hs hidle => exact h.erase ((live_of_slot hs).trans hidle)
  | insert hs hname => exact h.insertSlot hs hname
  | spawn hs hidle => exact h.spawn hs hidle
  | rewire => exact h.rewireDependencies

theorem Inv.ops (h : w.Inv) (hops : Ops w w') : w'.Inv := by
  induction hops with
  | refl => exact h
  | tail _ hop ih => exact ih.op hop

theorem Ops.refl (w : Stack) : Ops w w := Relation.ReflTransGen.refl

theorem Op.ops (hop : Op w w') : Ops w w' := Relation.ReflTransGen.single hop

theorem Ops.trans {w'' : Stack} (h : Ops w w') (h' : Ops w' w'') : Ops w w'' :=
  Relation.ReflTransGen.trans h h'

/-- What operations leave alone, and what they only add to. -/
structure Frame (w w' : Stack) : Prop where
  control_eq : w'.control = w.control
  nextAck_eq : w'.nextAck = w.nextAck
  answers_eq : w'.answers = w.answers
  finished_eq : w'.finished = w.finished
  reportQueue_eq : w'.reportQueue = w.reportQueue
  requests_grow : w.requests <+: w'.requests
  tasks_grow : w.tasks <+: w'.tasks

theorem Frame.refl (w : Stack) : Frame w w :=
  ⟨rfl, rfl, rfl, rfl, rfl, List.prefix_rfl, List.prefix_rfl⟩

theorem Frame.trans {w'' : Stack} (h : Frame w w') (h' : Frame w' w'') : Frame w w'' :=
  ⟨h'.control_eq.trans h.control_eq, h'.nextAck_eq.trans h.nextAck_eq,
    h'.answers_eq.trans h.answers_eq, h'.finished_eq.trans h.finished_eq,
    h'.reportQueue_eq.trans h.reportQueue_eq, h.requests_grow.trans h'.requests_grow,
    h.tasks_grow.trans h'.tasks_grow⟩

theorem Op.frame (hop : Op w w') : Frame w w' := by
  cases hop with
  | ask => exact ⟨rfl, rfl, rfl, rfl, rfl, List.prefix_append .., List.prefix_rfl⟩
  | spawn => exact ⟨rfl, rfl, rfl, rfl, rfl, List.prefix_rfl, List.prefix_append ..⟩
  | insert hs =>
    rw [insertSlot_of_none hs]
    exact ⟨rfl, rfl, rfl, rfl, rfl, List.prefix_rfl, List.prefix_rfl⟩
  | config | set | erase | rewire =>
    exact ⟨rfl, rfl, rfl, rfl, rfl, List.prefix_rfl, List.prefix_rfl⟩

theorem Ops.frame (hops : Ops w w') : Frame w w' := by
  induction hops with
  | refl => exact .refl w
  | tail _ hop ih => exact ih.trans hop.frame

/-! ### The phases of a reload -/

theorem ops_removeService (h : w.Inv) (name : ServiceName) : Ops w (w.removeService name) := by
  cases hs : w.slots[name]? with
  | none => exact (removeService_of_none hs).symm ▸ .refl w
  | some slot =>
    cases hstop : slot.stop with
    | some stop =>
      rw [removeService_of_live hs hstop]
      refine (Op.ask hs ?_ hstop _).ops
      exact ⟨rfl, rfl, rfl, rfl⟩
    | none =>
      rw [removeService_of_idle hs hstop]
      refine (Op.erase hs ?_).ops
      rw [← h.stop_eq hs, hstop]

/-- A service that is added has no slot, or has one that is retired. -/
theorem ops_addService (h : w.Inv) {config : Config} {service : Service}
    (hservice : config.services[name]? = some service) (hname : service.name = name)
    (hadded : w.isAdded name) : Ops w (w.addService config name) := by
  cases hs : w.slots[name]? with
  | none =>
    rw [addService_of_none hservice hs]
    exact (Op.insert hs hname).ops
  | some slot =>
    have hretired : slot.retired := by simpa only [isAdded, hs] using hadded
    rw [addService_of_retired hservice hs hretired]
    refine (Op.set hs ?_ fun _ => .inr (.inr hretired)).ops
    exact ⟨hname.trans (h.slot_name hs).symm, rfl, rfl, rfl⟩

theorem ops_changeService (h : w.Inv) {config : Config} {service : Service}
    (hservice : config.services[name]? = some service) (hname : service.name = name) :
    Ops w (w.changeService config name) := by
  cases hs : w.slots[name]? with
  | none => simpa only [Stack.changeService, hservice, hs] using Ops.refl w
  | some slot =>
    have hsame : service.name = slot.service.name := hname.trans (h.slot_name hs).symm
    cases hstop : slot.stop with
    | some stop =>
      rw [changeService_of_live hservice hs hstop]
      refine (Op.ask hs ?_ hstop _).ops
      exact ⟨hsame, rfl, rfl, rfl⟩
    | none =>
      rw [changeService_of_idle hservice hs hstop]
      refine (Op.set hs ?_ ?_).ops
      · exact ⟨hsame, rfl, rfl, rfl⟩
      · exact id

theorem ops_spawnAdded (w : Stack) (name : ServiceName) : Ops w (w.spawnAdded name) := by
  cases hs : w.slots[name]? with
  | none => simpa only [Stack.spawnAdded, hs] using Ops.refl w
  | some slot =>
    by_cases hflag : slot.restartWhenStopped ∨ slot.handle.isSome
    · rw [spawnAdded_of_flag hs hflag]
      exact .refl w
    · rw [not_or, Bool.not_eq_true, Bool.not_eq_true, Option.isSome_eq_false_iff,
        Option.isNone_iff_eq_none] at hflag
      rw [spawnAdded_of_idle hs hflag.1 hflag.2]
      exact (Op.spawn hs hflag.2).ops

/-! ### Other slots -/

variable {other : ServiceName}

theorem getElem?_setSlot_of_ne (h : other ≠ name) :
    (w.setSlot name slot).slots[other]? = w.slots[other]? :=
  TreeMap.getElem?_insert_of_ne h _

theorem getElem?_insertSlot_of_ne (h : other ≠ name) (service : Service) :
    (w.insertSlot name service).slots[other]? = w.slots[other]? := by
  have hslots : (w.insertSlot name service).slots =
      w.slots.insert name ⟨service, [], w.cells.length, none, none, false, false, none⟩ := by
    simp only [Stack.insertSlot, slots_debugAssert, cells_debugAssert]
  rw [hslots, TreeMap.getElem?_insert_of_ne h]

theorem getElem?_removeService_of_ne (h : other ≠ name) :
    (w.removeService name).slots[other]? = w.slots[other]? := by
  unfold Stack.removeService
  split
  · rfl
  · split
    · exact getElem?_setSlot_of_ne h
    · exact TreeMap.getElem?_erase_of_ne h

theorem getElem?_addService_of_ne (h : other ≠ name) (config : Config) :
    (w.addService config name).slots[other]? = w.slots[other]? := by
  unfold Stack.addService
  split
  · rfl
  · split
    · rw [getElem?_setSlot_of_ne h, slots_debugAssert]
    · exact getElem?_insertSlot_of_ne h _

theorem getElem?_changeService_of_ne (h : other ≠ name) (config : Config) :
    (w.changeService config name).slots[other]? = w.slots[other]? := by
  unfold Stack.changeService
  split
  · split <;> exact getElem?_setSlot_of_ne h
  · rfl

theorem getElem?_spawnAdded_of_ne (h : other ≠ name) :
    (w.spawnAdded name).slots[other]? = w.slots[other]? := by
  unfold Stack.spawnAdded
  split
  · split
    · rfl
    · exact TreeMap.getElem?_insert_of_ne h _
  · rfl

/-! ### A whole reload -/

theorem mem_diff_added {config : Config} {plan : List ServiceName} :
    name ∈ (w.diff config plan).added ↔ name ∈ plan ∧ w.isAdded name := List.mem_filter

theorem mem_diff_changed {config : Config} {plan : List ServiceName} :
    name ∈ (w.diff config plan).changed ↔ name ∈ plan ∧ w.isChanged config name :=
  List.mem_filter

theorem mem_diff_removed {config : Config} {plan : List ServiceName} :
    name ∈ (w.diff config plan).removed ↔ (∃ slot, w.slots[name]? = some slot) ∧ name ∉ plan := by
  simp only [diff, List.mem_filter, TreeMap.mem_keys_iff_exists, decide_eq_true_eq]

theorem isAdded_eq_all (w : Stack) (name : ServiceName) :
    w.isAdded name = w.slots[name]?.all (·.retired) := by
  unfold isAdded
  cases w.slots[name]? <;> rfl

/-- The first phase leaves the planned services alone. -/
theorem getElem?_foldl_removeService {l : List ServiceName} (h : other ∉ l) :
    (l.foldl Stack.removeService w).slots[other]? = w.slots[other]? :=
  KeyedFold.view_foldl_of_notMem (v := fun k (s : Stack) => s.slots[k]?)
    (fun _ _ _ hne => getElem?_removeService_of_ne hne.symm) h

/-- Operations, each shown from the invariant in the state it is applied to. -/
theorem ops_foldl (h : w.Inv) {f : Stack → ServiceName → Stack} {l : List ServiceName}
    (hstep : ∀ {s : Stack}, s.Inv → ∀ name ∈ l, Ops s (f s name)) : Ops w (l.foldl f w) :=
  List.foldlRecOn (motive := fun s => Ops w s) l f (.refl w) fun _ hs name hmem =>
    hs.trans (hstep (h.ops hs) name hmem)

theorem ops_wireReload (h : w.Inv) (config : ValidConfig) (plan : StartPlan config.1) :
    Ops w (w.wireReload config plan.1) := by
  have hservice : ∀ name ∈ plan.1, ∃ service, config.1.services[name]? = some service ∧
      service.name = name := fun name hmem => plan.exists_service hmem
  have h₁ : Ops w { w with config := config, plan := plan.1 } :=
    (Op.config config plan.1).ops
  have h₂ := h₁.trans (ops_foldl (l := (w.diff config.1 plan.1).removed) (f := removeService)
    (h.ops h₁) fun hI name _ => ops_removeService hI name)
  have h₃ := KeyedFold.invariant_foldl (I := Ops w) (f := (addService · config.1))
    (v := fun k (s : Stack) => s.slots[k]?)
    (P := fun _ v => v.all (·.retired) = true)
    (fun _ _ _ hne => getElem?_addService_of_ne hne.symm config.1)
    (plan.nodup.filter w.isAdded)
    (by
      intro s name hmem hops hadded
      obtain ⟨service, hs, hname⟩ := hservice name (List.mem_filter.mp hmem).1
      exact hops.trans (ops_addService (h.ops hops) hs hname
        (hadded ▸ isAdded_eq_all s name)))
    h₂
    (by
      intro name hmem
      have hadded := List.mem_filter.mp hmem
      rw [getElem?_foldl_removeService fun hrem => (mem_diff_removed.mp hrem).2 hadded.1]
      exact isAdded_eq_all w name ▸ hadded.2)
  have h₄ := h₃.trans (ops_foldl (l := (w.diff config.1 plan.1).changed)
    (f := (changeService · config.1)) (h.ops h₃) fun hI name hmem => by
      obtain ⟨service, hs, hname⟩ := hservice name (mem_diff_changed.mp hmem).1
      exact ops_changeService hI hs hname)
  exact h₄.trans Op.rewire.ops

theorem ops_applyReload (h : w.Inv) (config : ValidConfig) (plan : StartPlan config.1) :
    Ops w (w.applyReload config plan.1) := by
  have hwired := ops_wireReload h config plan
  exact hwired.trans (ops_foldl (h.ops hwired) fun _ name _ => ops_spawnAdded _ name)

theorem ops_reload (h : w.Inv) (config : ValidConfig) (plan : StartPlan config.1) :
    Ops w (w.reload config plan.1).1 := by
  unfold Stack.reload
  split
  · exact .refl w
  · exact ops_applyReload h config plan

/-! ### Commands -/

/-- A command on a service is refused, or goes on with a slot that tracks no command. -/
theorem withSlot_cases (service : ServiceName) (ack : ℕ) (k : Slot → Stack) :
    (∃ refusal, w.withSlot service ack k = w.send ack (.error refusal)) ∨
      ∃ slot, w.slots[service]? = some slot ∧ slot.pending = none ∧
        w.withSlot service ack k = k slot := by
  unfold withSlot
  cases hs : w.slots[service]? with
  | none => exact .inl ⟨_, rfl⟩
  | some slot =>
    cases hp : slot.pending with
    | none => exact .inr ⟨slot, rfl, hp, by simp [hp]⟩
    | some _ => exact .inl ⟨.busy service, by simp [hp]⟩

/-- A command is a sequence of operations, after which it is answered or waits in a slot. -/
theorem handleControl_ops (h : w.Inv) (command : Control) :
    ∃ w₁, Ops w w₁ ∧ (w.handleControl command = w₁ ∨
      ∃ result, w.handleControl command = w₁.send command.intoAck result) := by
  cases command with
  | reload config plan ack => exact ⟨_, ops_reload h config plan, .inr ⟨_, rfl⟩⟩
  | start service ack =>
    rw [handleControl]
    obtain ⟨_, he⟩ | ⟨slot, hs, -, he⟩ := w.withSlot_cases service ack _ <;> rw [he]
    · exact ⟨w, .refl w, .inr ⟨_, rfl⟩⟩
    · split_ifs with hrun
      · exact ⟨w, .refl w, .inr ⟨_, rfl⟩⟩
      · have hidle : slot.handle = none := by simpa [Slot.isRunning] using hrun
        exact ⟨_, (Op.spawn hs hidle).ops, .inr ⟨_, rfl⟩⟩
  | stop service ack =>
    rw [handleControl]
    obtain ⟨_, he⟩ | ⟨slot, hs, -, he⟩ := w.withSlot_cases service ack _ <;> rw [he]
    · exact ⟨w, .refl w, .inr ⟨_, rfl⟩⟩
    · cases hstop : slot.stop with
      | none => exact ⟨w, .refl w, .inr ⟨_, rfl⟩⟩
      | some stop =>
        refine ⟨_, (Op.ask hs ?_ hstop _).ops, .inl rfl⟩
        exact ⟨rfl, hstop.symm, rfl, rfl⟩
  | restart service ack =>
    rw [handleControl]
    obtain ⟨_, he⟩ | ⟨slot, hs, -, he⟩ := w.withSlot_cases service ack _ <;> rw [he]
    · exact ⟨w, .refl w, .inr ⟨_, rfl⟩⟩
    · cases hstop : slot.stop with
      | none =>
        have hidle : slot.handle = none := by rw [← h.stop_eq hs, hstop]
        exact ⟨_, (Op.spawn hs hidle).ops, .inr ⟨_, rfl⟩⟩
      | some stop =>
        refine ⟨_, (Op.ask hs ?_ hstop _).ops, .inl rfl⟩
        exact ⟨rfl, hstop.symm, rfl, rfl⟩

theorem Inv.send (h : w.Inv) (ack : ℕ) (result : Verdict) : (w.send ack result).Inv :=
  h.congr rfl rfl rfl rfl rfl rfl (List.Subset.refl _) rfl

theorem Inv.handleControl (h : w.Inv) (command : Control) : (w.handleControl command).Inv := by
  obtain ⟨w₁, hops, he | ⟨result, he⟩⟩ := handleControl_ops h command <;> rw [he]
  · exact h.ops hops
  · exact (h.ops hops).send _ result

end Stack

end Servicrab
