import Servicrab.Supervisor.Safety

/-!
# What an accepted command comes to

A Stop or Restart of a live service is accepted by filing its acknowledgement channel in the slot;
the report of the slot's task then answers it. What the report answers and does depends on two
flags of the slot that the command itself does not settle: `retired`, which a reload sets, and
`restart_when_stopped`, which both a reload and a Restart set and a Stop does not take back.

An acknowledgement channel is in one place at a time: with a command that is still queued, in a
slot, or among the answers. So a command is never answered twice, and while one is filed in a slot,
no other command touches that slot.

## Main definitions

* `Stack.AcksUnique`: acknowledgement channels are in one place at a time.
* `Stack.answersTo`.

## Main results

* `Stack.acksUnique_of_reachable`.
* `Stack.accepted_iff`: what the report of an accepted Stop or Restart does.
-/

open Std (ExtTreeMap)
open TransitionSystem (AnyStep)

namespace Servicrab

namespace Stack

variable {w w' w'' : Stack} {name other : ServiceName} {slot slot' : Slot} {ack : ℕ}

/-! ### The commands that are filed in slots -/

/-- The client that waits on the slot of a service. -/
def pendingAt (w : Stack) (name : ServiceName) : Option ℕ := w.slots[name]?.bind Slot.pending

theorem pendingAt_of_slot (hs : w.slots[name]? = some slot) : w.pendingAt name = slot.pending := by
  simp [pendingAt, hs]

theorem pendingAt_insert (h : w'.slots = w.slots.insert name slot) (other : ServiceName) :
    w'.pendingAt other = if other = name then slot.pending else w.pendingAt other := by
  rw [pendingAt, h, TreeMap.getElem?_insert]
  split_ifs <;> rfl

theorem pendingAt_setSlot_request (stop : ℕ) (reason : ShutdownReason) (other : ServiceName) :
    ((w.setSlot name slot).request stop reason).pendingAt other =
      if other = name then slot.pending else w.pendingAt other :=
  pendingAt_insert rfl other

theorem pendingAt_erase (h : w'.slots = w.slots.erase name) (other : ServiceName) :
    w'.pendingAt other = if other = name then none else w.pendingAt other := by
  rw [pendingAt, h, TreeMap.getElem?_erase]
  split_ifs <;> rfl

/-- No slot has a client waiting that did not wait on it before. -/
def PendingKept (w w' : Stack) : Prop :=
  ∀ name ack, w'.pendingAt name = some ack → w.pendingAt name = some ack

theorem PendingKept.of_slots_eq (h : w'.slots = w.slots) : PendingKept w w' := by
  intro name ack hp
  rwa [pendingAt, h] at hp

theorem PendingKept.trans (h : PendingKept w w') (h' : PendingKept w' w'') : PendingKept w w'' :=
  fun name ack hp => h name ack (h' name ack hp)

theorem PendingKept.insert (h : w'.slots = w.slots.insert name slot')
    (hp : slot'.pending = none ∨ slot'.pending = w.pendingAt name) : PendingKept w w' := by
  intro other ack hack
  rw [pendingAt_insert h] at hack
  split_ifs at hack with he
  · obtain hp | hp := hp
    · rw [hp] at hack
      cases hack
    · rw [he, ← hp, hack]
  · exact hack

theorem PendingKept.foldl {f : Stack → ServiceName → Stack} (hf : ∀ s name, PendingKept s (f s name))
    (l : List ServiceName) (w : Stack) : PendingKept w (l.foldl f w) :=
  List.foldlRecOn (motive := PendingKept w) l f (.of_slots_eq rfl) fun s hs name _ =>
    hs.trans (hf s name)

theorem pendingKept_removeService (w : Stack) (name : ServiceName) :
    PendingKept w (w.removeService name) := by
  unfold removeService
  split
  · exact .of_slots_eq rfl
  · rename_i slot hs
    split
    · exact .insert rfl (.inr (pendingAt_of_slot hs).symm)
    · intro other ack hack
      rw [pendingAt_erase rfl] at hack
      split_ifs at hack
      exact hack

theorem pendingKept_insertSlot (w : Stack) (name : ServiceName) (service : Service) :
    PendingKept w (w.insertSlot name service) := by
  have hslots : (w.insertSlot name service).slots =
      w.slots.insert name ⟨service, [], w.cells.length, none, none, false, false, none⟩ := by
    simp only [insertSlot, slots_debugAssert, cells_debugAssert]
  exact .insert hslots (.inl rfl)

theorem pendingKept_addService (w : Stack) (config : Config) (name : ServiceName) :
    PendingKept w (w.addService config name) := by
  unfold addService
  split
  · exact .of_slots_eq rfl
  · rename_i service _
    split
    · rename_i slot hs
      have hassert : PendingKept w
          (w.debugAssert slot.retired (.revivedSlotIsRetired name)) :=
        .of_slots_eq (slots_debugAssert ..)
      refine hassert.trans (.insert rfl (.inr ?_))
      rw [pendingAt, slots_debugAssert, hs]
      rfl
    · exact pendingKept_insertSlot w name service

theorem pendingKept_changeService (w : Stack) (config : Config) (name : ServiceName) :
    PendingKept w (w.changeService config name) := by
  unfold changeService
  split
  · rename_i hs
    split <;> exact .insert rfl (.inr (pendingAt_of_slot hs).symm)
  · exact .of_slots_eq rfl

theorem pendingKept_spawn (hs : w.slots[name]? = some slot) : PendingKept w (w.spawn name slot) :=
  .insert rfl (.inr (pendingAt_of_slot hs).symm)

theorem pendingKept_spawnAdded (w : Stack) (name : ServiceName) :
    PendingKept w (w.spawnAdded name) := by
  unfold spawnAdded
  split
  · rename_i slot hs
    split_ifs
    · exact .of_slots_eq rfl
    · exact pendingKept_spawn hs
  · exact .of_slots_eq rfl

theorem pendingKept_rewireDependencies (w : Stack) : PendingKept w w.rewireDependencies := by
  intro name ack hack
  simp only [pendingAt, rewireDependencies, ExtTreeMap.getElem?_map] at hack ⊢
  cases hs : w.slots[name]? with
  | none => simp [hs] at hack
  | some slot =>
    simp only [hs, Option.map_some, Option.bind_some] at hack ⊢
    split at hack <;> exact hack

theorem pendingKept_reload (w : Stack) (config : ValidConfig) (plan : List ServiceName) :
    PendingKept w (w.reload config plan).1 := by
  unfold reload
  split
  · exact .of_slots_eq rfl
  · have h₁ : PendingKept w { w with config := config, plan := plan } := .of_slots_eq rfl
    exact ((((h₁.trans (.foldl pendingKept_removeService _ _)).trans
      (.foldl (fun s => pendingKept_addService s config.1) _ _)).trans
      (.foldl (fun s => pendingKept_changeService s config.1) _ _)).trans
      (pendingKept_rewireDependencies _)).trans (.foldl pendingKept_spawnAdded _ _)

/-- A command is answered at once, or it is filed in a slot where no other is. -/
theorem handleControl_pending (h : w.Inv) (command : Control) :
    ((∃ result, (w.handleControl command).answers =
        w.answers ++ [(command.intoAck, result)]) ∧
      PendingKept w (w.handleControl command)) ∨
    ((w.handleControl command).answers = w.answers ∧ ∃ name, w.pendingAt name = none ∧
      ∀ other, (w.handleControl command).pendingAt other =
        if other = name then some command.intoAck else w.pendingAt other) := by
  have hsend : ∀ {w₁ : Stack} {result : Verdict}, w₁.answers = w.answers → PendingKept w w₁ →
      (∃ result', (w₁.send command.intoAck result).answers =
        w.answers ++ [(command.intoAck, result')]) ∧
      PendingKept w (w₁.send command.intoAck result) := fun ha hp =>
    ⟨⟨_, by rw [send, ha]⟩, hp.trans (.of_slots_eq rfl)⟩
  cases command with
  | reload config plan ack =>
    exact .inl (hsend (ops_reload h config plan).frame.answers_eq
      (pendingKept_reload w config plan.1))
  | start service ack =>
    rw [handleControl]
    obtain ⟨_, he⟩ | ⟨slot, hs, -, he⟩ := w.withSlot_cases service ack _ <;> rw [he]
    · exact .inl (hsend rfl (.of_slots_eq rfl))
    · split_ifs
      · exact .inl (hsend rfl (.of_slots_eq rfl))
      · exact .inl (hsend rfl (pendingKept_spawn hs))
  | stop service ack =>
    rw [handleControl]
    obtain ⟨_, he⟩ | ⟨slot, hs, hfree, he⟩ := w.withSlot_cases service ack _ <;> rw [he]
    · exact .inl (hsend rfl (.of_slots_eq rfl))
    · cases slot.stop with
      | none => exact .inl (hsend rfl (.of_slots_eq rfl))
      | some stop =>
        exact .inr ⟨rfl, service, (pendingAt_of_slot hs).trans hfree,
          pendingAt_setSlot_request stop _⟩
  | restart service ack =>
    rw [handleControl]
    obtain ⟨_, he⟩ | ⟨slot, hs, hfree, he⟩ := w.withSlot_cases service ack _ <;> rw [he]
    · exact .inl (hsend rfl (.of_slots_eq rfl))
    · cases slot.stop with
      | none => exact .inl (hsend rfl (pendingKept_spawn hs))
      | some stop =>
        exact .inr ⟨rfl, service, (pendingAt_of_slot hs).trans hfree,
          pendingAt_setSlot_request stop _⟩

/-! ### Where acknowledgement channels are -/

/-- The acknowledgement channels of the queued commands. -/
def queuedAcks (w : Stack) : List ℕ := w.control.map Control.intoAck

/-- The acknowledgement channels that were sent an answer. -/
def answeredAcks (w : Stack) : List ℕ := w.answers.map Prod.fst

/-- Every acknowledgement channel is in one place: in the queue, in a slot, or answered. -/
structure AcksUnique (w : Stack) : Prop where
  queued_nodup : w.queuedAcks.Nodup
  queued_lt : ∀ {ack : ℕ}, ack ∈ w.queuedAcks → ack < w.nextAck
  pending_lt : ∀ {name : ServiceName} {ack : ℕ}, w.pendingAt name = some ack → ack < w.nextAck
  answered_lt : ∀ {ack : ℕ}, ack ∈ w.answeredAcks → ack < w.nextAck
  queued_pending : ∀ {name : ServiceName} {ack : ℕ},
    w.pendingAt name = some ack → ack ∉ w.queuedAcks
  queued_answered : ∀ {ack : ℕ}, ack ∈ w.queuedAcks → ack ∉ w.answeredAcks
  pending_answered : ∀ {name : ServiceName} {ack : ℕ},
    w.pendingAt name = some ack → ack ∉ w.answeredAcks
  pending_inj : ∀ {name name' : ServiceName} {ack : ℕ},
    w.pendingAt name = some ack → w.pendingAt name' = some ack → name = name'

/-- Channels may be given up. -/
theorem AcksUnique.of_le (h : w.AcksUnique) (hqueued : w'.queuedAcks.Sublist w.queuedAcks)
    (hpending : PendingKept w w') (hanswered : w'.answeredAcks = w.answeredAcks)
    (hnext : w'.nextAck = w.nextAck) : w'.AcksUnique where
  queued_nodup := h.queued_nodup.sublist hqueued
  queued_lt hm := hnext ▸ h.queued_lt (hqueued.subset hm)
  pending_lt hp := hnext ▸ h.pending_lt (hpending _ _ hp)
  answered_lt hm := hnext ▸ h.answered_lt (hanswered ▸ hm)
  queued_pending hp hm := h.queued_pending (hpending _ _ hp) (hqueued.subset hm)
  queued_answered hm hm' := h.queued_answered (hqueued.subset hm) (hanswered ▸ hm')
  pending_answered hp hm := h.pending_answered (hpending _ _ hp) (hanswered ▸ hm)
  pending_inj hp hp' := h.pending_inj (hpending _ _ hp) (hpending _ _ hp')

/-- A channel that is in no place may be answered. -/
theorem AcksUnique.answer (h : w.AcksUnique) (ack : ℕ) (hqueued : w'.queuedAcks = w.queuedAcks)
    (hpending : PendingKept w w') (hanswered : w'.answeredAcks = w.answeredAcks ++ [ack])
    (hnext : w'.nextAck = w.nextAck) (hlt : ack < w.nextAck) (hfree : ack ∉ w.queuedAcks)
    (hfree' : ∀ name, w'.pendingAt name ≠ some ack) : w'.AcksUnique where
  queued_nodup := hqueued ▸ h.queued_nodup
  queued_lt hm := hnext ▸ h.queued_lt (hqueued ▸ hm)
  pending_lt hp := hnext ▸ h.pending_lt (hpending _ _ hp)
  answered_lt hm := by
    rw [hanswered, List.mem_append, List.mem_singleton] at hm
    rw [hnext]
    obtain hm | rfl := hm
    exacts [h.answered_lt hm, hlt]
  queued_pending hp hm := h.queued_pending (hpending _ _ hp) (hqueued ▸ hm)
  queued_answered hm hm' := by
    rw [hqueued] at hm
    rw [hanswered, List.mem_append, List.mem_singleton] at hm'
    obtain hm' | rfl := hm'
    exacts [h.queued_answered hm hm', hfree hm]
  pending_answered hp hm := by
    rw [hanswered, List.mem_append, List.mem_singleton] at hm
    obtain hm | rfl := hm
    exacts [h.pending_answered (hpending _ _ hp) hm, hfree' _ hp]
  pending_inj hp hp' := h.pending_inj (hpending _ _ hp) (hpending _ _ hp')

/-- A channel that is in no place may be filed in a slot. -/
theorem AcksUnique.accept (h : w.AcksUnique) (hqueued : w'.queuedAcks = w.queuedAcks)
    (hpending : ∀ other, w'.pendingAt other = if other = name then some ack else w.pendingAt other)
    (hanswered : w'.answeredAcks = w.answeredAcks) (hnext : w'.nextAck = w.nextAck)
    (hlt : ack < w.nextAck) (hqueue : ack ∉ w.queuedAcks) (hanswer : ack ∉ w.answeredAcks)
    (hfiled : ∀ other, w.pendingAt other ≠ some ack) : w'.AcksUnique := by
  have hold : ∀ {other : ServiceName} {ack' : ℕ}, w'.pendingAt other = some ack' →
      other = name ∧ ack' = ack ∨ other ≠ name ∧ w.pendingAt other = some ack' := by
    intro other ack' hp
    rw [hpending] at hp
    split_ifs at hp with he
    · exact .inl ⟨he, (Option.some.inj hp).symm⟩
    · exact .inr ⟨he, hp⟩
  constructor
  case queued_nodup => exact hqueued ▸ h.queued_nodup
  case queued_lt => exact fun hm => hnext ▸ h.queued_lt (hqueued ▸ hm)
  case answered_lt => exact fun hm => hnext ▸ h.answered_lt (hanswered ▸ hm)
  case queued_answered => exact fun hm hm' => h.queued_answered (hqueued ▸ hm) (hanswered ▸ hm')
  case pending_lt =>
    intro other ack' hp
    rw [hnext]
    obtain ⟨-, rfl⟩ | ⟨-, hp⟩ := hold hp
    exacts [hlt, h.pending_lt hp]
  case queued_pending =>
    intro other ack' hp
    rw [hqueued]
    obtain ⟨-, rfl⟩ | ⟨-, hp⟩ := hold hp
    exacts [hqueue, h.queued_pending hp]
  case pending_answered =>
    intro other ack' hp
    rw [hanswered]
    obtain ⟨-, rfl⟩ | ⟨-, hp⟩ := hold hp
    exacts [hanswer, h.pending_answered hp]
  case pending_inj =>
    intro name₁ name₂ ack' hp₁ hp₂
    obtain ⟨rfl, rfl⟩ | ⟨-, hp₁⟩ := hold hp₁ <;> obtain ⟨he, he'⟩ | ⟨-, hp₂⟩ := hold hp₂
    · exact he.symm
    · exact absurd hp₂ (hfiled _)
    · exact absurd (he' ▸ hp₁) (hfiled _)
    · exact h.pending_inj hp₁ hp₂

theorem AcksUnique.control (hI : w.Inv) (h : w.AcksUnique)
    (hstep : w.step .control = some w') : w'.AcksUnique := by
  obtain ⟨command, rest, hcontrol, rfl⟩ := step_control hstep
  have hI' := hI.takeCommand rest
  have hqueued : w.queuedAcks = command.intoAck :: rest.map Control.intoAck := by
    rw [queuedAcks, hcontrol, List.map_cons]
  have hmem : command.intoAck ∈ w.queuedAcks := hqueued ▸ List.mem_cons_self
  have hfree : command.intoAck ∉ rest.map Control.intoAck :=
    (List.nodup_cons.mp (hqueued ▸ h.queued_nodup)).1
  have hrest : { w with control := rest }.AcksUnique :=
    h.of_le (by rw [hqueued]; exact List.sublist_cons_self _ _) (.of_slots_eq rfl) rfl rfl
  have hframe : ({ w with control := rest }.handleControl command).queuedAcks =
      rest.map Control.intoAck ∧
      ({ w with control := rest }.handleControl command).nextAck = w.nextAck := by
    obtain ⟨w₁, hops, he | ⟨result, he⟩⟩ := handleControl_ops hI' command <;> rw [he] <;>
      exact ⟨congrArg _ hops.frame.control_eq, hops.frame.nextAck_eq⟩
  obtain ⟨⟨result, ha⟩, hp⟩ | ⟨ha, name, -, hp⟩ := handleControl_pending hI' command
  · refine hrest.answer command.intoAck hframe.1 hp ?_ hframe.2 (h.queued_lt hmem) hfree
      fun name hname => ?_
    · rw [answeredAcks, ha, List.map_append]
      rfl
    · exact h.queued_pending (w := w) (hp name _ hname) hmem
  · refine hrest.accept hframe.1 hp ?_ hframe.2 (h.queued_lt hmem) hfree
      (h.queued_answered hmem) fun other hother => h.queued_pending (w := w) hother hmem
    rw [answeredAcks, ha]
    rfl

/-- A report answers the command that was filed in the slot, if one was, and clears the slot. -/
theorem ReportEffect.pending {rest : List (ℕ × ServiceReport)} {reports : List ServiceReport}
    {left : Option (Option ShutdownReason)}
    (h : ReportEffect w rest name slot reports left w') :
    (∃ result, w'.answers = w.answers ++ slot.answers (.ok result)) ∧
      (∀ other, w'.pendingAt other = if other = name then none else w.pendingAt other) ∧
      w'.control = w.control ∧ w'.nextAck = w.nextAck := by
  cases h with
  | removed => exact ⟨⟨_, rfl⟩, pendingAt_erase rfl, rfl, rfl⟩
  | respawned | stopped =>
    exact ⟨⟨_, rfl⟩, fun other => (pendingAt_insert rfl other).trans rfl, rfl, rfl⟩

theorem AcksUnique.report (hI : w.Inv) (h : w.AcksUnique) (hstep : w.step .report = some w') :
    w'.AcksUnique := by
  obtain ⟨task, report, rest, slot, reports, left, -, hs, -, heffect⟩ := hI.step_report hstep
  obtain ⟨⟨result, ha⟩, hp, hcontrol, hnext⟩ := heffect.pending
  have hqueued : w'.queuedAcks = w.queuedAcks := congrArg (List.map Control.intoAck) hcontrol
  have hkept : PendingKept w w' := by
    intro other ack hack
    rw [hp] at hack
    split_ifs at hack
    exact hack
  cases hslot : slot.pending with
  | none =>
    refine h.of_le (hqueued ▸ List.Sublist.refl _) hkept ?_ hnext
    rw [answeredAcks, ha, Slot.answers, hslot, List.append_nil]
    rfl
  | some ack =>
    have hpend : w.pendingAt report.service = some ack := (pendingAt_of_slot hs).trans hslot
    refine h.answer ack hqueued hkept ?_ hnext (h.pending_lt hpend)
      (h.queued_pending hpend) fun other hother => ?_
    · rw [answeredAcks, ha, Slot.answers, hslot, List.map_append]
      rfl
    · have he := h.pending_inj (hkept other ack hother) hpend
      rw [hp, if_pos he] at hother
      cases hother

theorem AcksUnique.submit (h : w.AcksUnique) {command : Control}
    (hstep : w.step (.submit command) = some w') : w'.AcksUnique := by
  simp only [step] at hstep
  split_ifs at hstep with hack
  cases hstep
  have hqueued : ∀ {ack : ℕ}, ack ∈ w.queuedAcks ++ [command.intoAck] →
      ack ∈ w.queuedAcks ∨ ack = w.nextAck := by
    intro ack hm
    rwa [List.mem_append, List.mem_singleton, hack] at hm
  have hmap : Stack.queuedAcks { w with
      control := w.control ++ [command], nextAck := w.nextAck + 1 } =
      w.queuedAcks ++ [command.intoAck] := by
    rw [queuedAcks, List.map_append]
    rfl
  constructor
  case queued_nodup =>
    rw [hmap, hack]
    refine List.Nodup.append h.queued_nodup (List.nodup_singleton _) ?_
    intro ack hm hm'
    rw [List.mem_singleton.mp hm'] at hm
    exact lt_irrefl _ (h.queued_lt hm)
  case queued_lt =>
    intro ack hm
    rw [hmap] at hm
    obtain hm | rfl := hqueued hm
    exacts [Nat.lt_succ_of_lt (h.queued_lt hm), Nat.lt_succ_self _]
  case pending_lt => exact fun hp => Nat.lt_succ_of_lt (h.pending_lt hp)
  case answered_lt => exact fun hm => Nat.lt_succ_of_lt (h.answered_lt hm)
  case queued_pending =>
    intro other ack hp hm
    rw [hmap] at hm
    obtain hm | rfl := hqueued hm
    exacts [h.queued_pending hp hm, lt_irrefl _ (h.pending_lt hp)]
  case queued_answered =>
    intro ack hm hm'
    rw [hmap] at hm
    obtain hm | rfl := hqueued hm
    exacts [h.queued_answered hm hm', lt_irrefl _ (h.answered_lt hm')]
  exacts [h.pending_answered, h.pending_inj]

/-- The queue of commands is touched by two moves only. -/
theorem step_control_eq {action : StackAction} (hI : w.Inv) (hstep : w.step action = some w')
    (hsubmit : ∀ command, action ≠ .submit command) (hcontrol : action ≠ .control) :
    w'.control = w.control ∧ w'.nextAck = w.nextAck := by
  cases action with
  | submit command => exact absurd rfl (hsubmit command)
  | control => exact absurd rfl hcontrol
  | report =>
    obtain ⟨_, _, _, _, _, _, -, -, -, heffect⟩ := hI.step_report hstep
    exact heffect.pending.2.2
  | finish task result =>
    obtain ⟨_, -, -, rfl⟩ := finishTask_cases hstep
    exact ⟨rfl, rfl⟩
  | interrupt | idle =>
    simp only [step] at hstep
    split_ifs at hstep
    cases hstep
    exact ⟨rfl, rfl⟩
  | write | store | emit =>
    cases hstep
    exact ⟨rfl, rfl⟩

theorem AcksUnique.step (hI : w.Inv) (h : w.AcksUnique) {action : StackAction}
    (hstep : w.step action = some w') : w'.AcksUnique := by
  by_cases hsubmit : ∃ command, action = .submit command
  · obtain ⟨command, rfl⟩ := hsubmit
    exact h.submit hstep
  by_cases hcontrol : action = .control
  · subst hcontrol
    exact h.control hI hstep
  by_cases hreport : action = .report
  · subst hreport
    exact h.report hI hstep
  obtain ⟨hc, hn⟩ := step_control_eq hI hstep (fun c he => hsubmit ⟨c, he⟩) hcontrol
  have hquiet := step_quiet hstep hcontrol hreport
  refine h.of_le ?_ (.of_slots_eq hquiet.slots_eq) ?_ hn
  · rw [queuedAcks, queuedAcks, hc]
  · rw [answeredAcks, answeredAcks, hquiet.answers_eq]

/-- Acknowledgement channels are only ever created. -/
theorem step_nextAck (hI : w.Inv) {action : StackAction} (hstep : w.step action = some w') :
    w.nextAck ≤ w'.nextAck := by
  by_cases hsubmit : ∃ command, action = .submit command
  · obtain ⟨command, rfl⟩ := hsubmit
    obtain ⟨-, hstep⟩ := Option.ite_none_right_eq_some.mp hstep
    cases hstep
    exact Nat.le_succ _
  by_cases hcontrol : action = .control
  · subst hcontrol
    obtain ⟨_, _, _, _, -, hops, rfl⟩ := hI.ops_control hstep
    exact hops.frame.nextAck_eq.ge
  · exact (step_control_eq hI hstep (fun command he => hsubmit ⟨command, he⟩) hcontrol).2.ge

/-- The loop answers at most one command at a time, and none that was answered before. -/
theorem step_answers (hI : w.Inv) (h : w.AcksUnique) {action : StackAction}
    (hstep : w.step action = some w') :
    w'.answers = w.answers ∨ ∃ ack result, w'.answers = w.answers ++ [(ack, result)] ∧
      ack ∉ w.answeredAcks ∧ w.left = none := by
  have hlooping : ∀ {u : Stack}, (w.step .control = some u ∨ w.step .report = some u) →
      w.left = none := by
    intro u hu
    by_contra hleft
    obtain ⟨reason, hleft⟩ := Option.ne_none_iff_exists'.mp hleft
    have hnot : w.looping = false := by simp [looping, hleft]
    rcases hu with hu | hu <;> simp [step, hnot] at hu
  by_cases hcontrol : action = .control
  · subst hcontrol
    obtain ⟨command, rest, hqueue, rfl⟩ := step_control hstep
    obtain ⟨⟨result, ha⟩, -⟩ | ⟨ha, -⟩ := handleControl_pending (hI.takeCommand rest) command
    · refine .inr ⟨command.intoAck, result, ha, h.queued_answered ?_, hlooping (.inl hstep)⟩
      rw [queuedAcks, hqueue]
      exact List.mem_cons_self
    · exact .inl ha
  by_cases hreport : action = .report
  · subst hreport
    obtain ⟨_, _, _, slot, _, _, -, hs, -, heffect⟩ := hI.step_report hstep
    obtain ⟨⟨result, ha⟩, -⟩ := heffect.pending
    cases hslot : slot.pending with
    | none =>
      left
      rw [ha, Slot.answers, hslot, List.append_nil]
    | some ack =>
      refine .inr ⟨ack, .ok result, ?_, ?_, hlooping (.inr hstep)⟩
      · rw [ha, Slot.answers, hslot]
      · exact h.pending_answered ((pendingAt_of_slot hs).trans hslot)
  · exact .inl (step_quiet hstep hcontrol hreport).answers_eq

/-- No command was sent yet, and none is filed. -/
def Unasked (w : Stack) : Prop :=
  w.control = [] ∧ w.answers = [] ∧ ∀ name, w.pendingAt name = none

theorem Unasked.of_kept (h : w.Unasked) (hcontrol : w'.control = w.control)
    (hanswers : w'.answers = w.answers) (hpending : PendingKept w w') : w'.Unasked := by
  refine ⟨hcontrol.trans h.1, hanswers.trans h.2.1, fun name => ?_⟩
  rw [Option.eq_none_iff_forall_ne_some]
  intro ack hack
  have hold := hpending name ack hack
  rw [h.2.2 name] at hold
  cases hold

theorem unasked_initial (options : StackOptions) (config : ValidConfig) (plan : List ServiceName)
    (stopped : Finset ServiceName) : (Stack.initial options config plan stopped).Unasked := by
  refine initial_induction ⟨rfl, rfl, fun name => by simp [pendingAt, Stack.empty]⟩
    (fun w name h => ?_) (fun w h => h.of_kept rfl rfl (pendingKept_rewireDependencies w))
    (fun w name h => ?_)
  · unfold insertPlanned
    split
    · refine h.of_kept ?_ ?_ (pendingKept_insertSlot w name _) <;>
        rw [insertSlot, debugAssert_eq]
    · exact h
  · unfold startService publishStopped
    split_ifs
    · split
      · exact h
      · exact h.of_kept rfl rfl (.of_slots_eq rfl)
    · split
      · rename_i slot hs
        exact h.of_kept rfl rfl (pendingKept_spawn hs)
      · exact h

/-- Every acknowledgement channel is in one place, in every reachable state. -/
theorem acksUnique_of_reachable {C : Stack → StackAction → Stack → Prop}
    (h : stackSystem.Reachable C w) : w.AcksUnique := by
  refine h.invariant ?_ fun hu hI _ hstep => hI.step (inv_of_reachable hu) hstep
  rintro w₀ ⟨options, config, plan, stopped, rfl⟩
  obtain ⟨hcontrol, hanswers, hpending⟩ := unasked_initial options config plan.1 stopped
  constructor <;> simp [queuedAcks, answeredAcks, hcontrol, hanswers, hpending]

/-- No command is answered twice, in every reachable state. -/
theorem nodup_answeredAcks {C : Stack → StackAction → Stack → Prop}
    (h : stackSystem.Reachable C w) : w.answeredAcks.Nodup := by
  refine h.invariant (I := fun w => w.answeredAcks.Nodup) ?_ fun hu hI _ hstep => ?_
  · rintro w₀ ⟨options, config, plan, stopped, rfl⟩
    simp [answeredAcks, (unasked_initial options config plan.1 stopped).2.1]
  · obtain ha | ⟨ack, result, ha, hfresh, -⟩ :=
      step_answers (inv_of_reachable hu) (acksUnique_of_reachable hu) hstep
    · rwa [answeredAcks, ha]
    · rw [answeredAcks, ha, List.map_append]
      exact hI.append (List.nodup_singleton _) (by simpa using hfresh)

/-! ### While a command is filed -/

/-- A command never touches a slot in which another one is filed. -/
theorem handleControl_of_pending (hs : w.slots[name]? = some slot) (hp : slot.pending.isSome)
    (command : Control) : (w.handleControl command).slots[name]? = some slot := by
  have hbusy : w.busySlot ≠ none := fun hnone => by
    rw [(busySlot_eq_none w).mp hnone name slot hs] at hp
    cases hp
  have hne : ∀ {service : ServiceName} {slot' : Slot}, w.slots[service]? = some slot' →
      slot'.pending = none → name ≠ service := by
    rintro service slot' hs' hfree rfl
    obtain rfl := Option.some.inj (hs.symm.trans hs')
    rw [hfree] at hp
    cases hp
  cases command with
  | reload config plan ack =>
    obtain ⟨busy, hbusy⟩ := Option.ne_none_iff_exists'.mp hbusy
    simp only [handleControl, reload, hbusy]
    exact hs
  | start service ack =>
    rw [handleControl]
    obtain ⟨_, he⟩ | ⟨slot', hs', hfree, he⟩ := w.withSlot_cases service ack _ <;> rw [he]
    · exact hs
    · split_ifs
      · exact hs
      · exact (TreeMap.getElem?_insert_of_ne (hne hs' hfree) _).trans hs
  | stop service ack =>
    rw [handleControl]
    obtain ⟨_, he⟩ | ⟨slot', hs', hfree, he⟩ := w.withSlot_cases service ack _ <;> rw [he]
    · exact hs
    · cases slot'.stop with
      | none => exact hs
      | some stop => exact (TreeMap.getElem?_insert_of_ne (hne hs' hfree) _).trans hs
  | restart service ack =>
    rw [handleControl]
    obtain ⟨_, he⟩ | ⟨slot', hs', hfree, he⟩ := w.withSlot_cases service ack _ <;> rw [he]
    · exact hs
    · cases slot'.stop with
      | none => exact (TreeMap.getElem?_insert_of_ne (hne hs' hfree) _).trans hs
      | some stop => exact (TreeMap.getElem?_insert_of_ne (hne hs' hfree) _).trans hs

/-- As long as the task of a slot is outstanding, nothing happens to the slot once a command is
filed in it. -/
theorem Inv.filed_step (h : w.Inv) {task : ℕ} (hs : w.slots[name]? = some slot)
    (hp : slot.pending.isSome) (hhandle : slot.handle = some task) {action : StackAction}
    (hstep : w.step action = some w') (hout : w'.Outstanding task name) :
    w'.slots[name]? = some slot := by
  by_cases hcontrol : action = .control
  · subst hcontrol
    obtain ⟨command, rest, -, rfl⟩ := step_control hstep
    exact handleControl_of_pending (w := { w with control := rest }) hs hp command
  by_cases hreport : action = .report
  · subst hreport
    have hlive := (h.step hstep).live_iff.mpr hout
    obtain ⟨t, report, rest, slot', reports, left, -, hs', hhandle', heffect⟩ := h.step_report hstep
    by_cases hname : name = report.service
    · -- The report would be the task's own, after which the task is not outstanding.
      subst hname
      obtain ⟨_, ht, -⟩ := h.live_iff.mp ((live_of_slot hs).trans hhandle)
      have hlt : task < w.tasks.length := (List.getElem?_eq_some_iff.mp ht).1
      cases heffect with
      | removed =>
        rw [live_erase (w := w) rfl, if_pos rfl] at hlive
        cases hlive
      | respawned =>
        rw [live_insert (w := w) rfl, if_pos rfl] at hlive
        exact absurd (Option.some.inj hlive) hlt.ne'
      | stopped =>
        rw [live_insert (w := w) rfl, if_pos rfl] at hlive
        cases hlive
    · cases heffect with
      | removed => exact (TreeMap.getElem?_erase_of_ne hname).trans hs
      | respawned | stopped => exact (TreeMap.getElem?_insert_of_ne hname _).trans hs
  · rw [(step_quiet hstep hcontrol hreport).slots_eq, hs]

theorem filed_of_steps {C : Stack → StackAction → Stack → Prop}
    (hw : stackSystem.Reachable C w) {task : ℕ}
    (hs : w.slots[name]? = some slot) (hp : slot.pending.isSome) (hhandle : slot.handle = some task)
    (hrun : stackSystem.Steps C w w') (hout : w'.Outstanding task name) :
    w'.slots[name]? = some slot := by
  obtain ⟨_, ht, -⟩ := (inv_of_reachable hw).live_iff.mp ((live_of_slot hs).trans hhandle)
  have hlt : task < w.tasks.length := (List.getElem?_eq_some_iff.mp ht).1
  have hmain := hrun.invariant
    (I := fun u => task < u.tasks.length ∧ (u.Outstanding task name → u.slots[name]? = some slot))
    ⟨hlt, fun _ => hs⟩ fun hsteps hI _ hstep => by
      have hu := inv_of_reachable (hw.steps hsteps)
      refine ⟨hI.1.trans_le (step_grows hu hstep).1.length_le, fun hv => ?_⟩
      exact hu.filed_step (hI.2 (hv.of_step hu hstep hI.1)) hp hhandle hstep hv
  exact hmain.2 hout

/-! ### The answer -/

/-- What was sent on an acknowledgement channel. -/
def answersTo (w : Stack) (ack : ℕ) : List Verdict :=
  (w.answers.filter fun answer => answer.1 = ack).map Prod.snd

/-- Between two states the service got a new task, which it still has. -/
def Respawned (w w' : Stack) (name : ServiceName) : Prop :=
  ∃ task, w'.live name = some task ∧ w.tasks.length ≤ task

theorem mem_answersTo {result : Verdict} : result ∈ w.answersTo ack ↔ (ack, result) ∈ w.answers := by
  simp [answersTo, List.mem_map, List.mem_filter]

theorem answersTo_of_notMem (h : ack ∉ w.answeredAcks) : w.answersTo ack = [] := by
  have hfilter : w.answers.filter (fun answer => answer.1 = ack) = [] := by
    rw [List.filter_eq_nil_iff]
    intro answer hmem he
    exact h (List.mem_map.mpr ⟨answer, hmem, of_decide_eq_true he⟩)
  rw [answersTo, hfilter, List.map_nil]

theorem answersTo_append {result : Verdict} (h : ack ∉ w.answeredAcks)
    (ha : w'.answers = w.answers ++ [(ack, result)]) : w'.answersTo ack = [result] := by
  have hold := answersTo_of_notMem h
  rw [answersTo] at hold ⊢
  rw [ha, List.filter_append, List.map_append, hold]
  simp

/-- What the report of a task does to the command filed in its slot. -/
theorem report_answers (h : w.Inv) (hacks : w.AcksUnique) {task : ℕ} {report : ServiceReport}
    {rest : List (ℕ × ServiceReport)} (hqueue : w.reportQueue = (task, report) :: rest)
    (hs : w.slots[report.service]? = some slot) (hp : slot.pending = some ack)
    (hstep : w.step .report = some w') :
    (slot.retired ∧ w'.answersTo ack = [.ok .stopped] ∧ w'.live report.service = none) ∨
    (¬ slot.retired ∧ slot.restartWhenStopped ∧ w'.answersTo ack = [.ok .restarted] ∧
      Respawned w w' report.service) ∨
    (¬ slot.retired ∧ ¬ slot.restartWhenStopped ∧ w'.answersTo ack = [.ok .stopped] ∧
      w'.live report.service = none) := by
  have hfree : ack ∉ w.answeredAcks := hacks.pending_answered ((pendingAt_of_slot hs).trans hp)
  obtain ⟨t, r, _, slot', _, _, hqueue', hs', -, heffect⟩ := h.step_report hstep
  rw [hqueue] at hqueue'
  cases hqueue'
  obtain rfl := Option.some.inj (hs.symm.trans hs')
  cases heffect with
  | removed hretired =>
    refine .inl ⟨hretired, answersTo_append hfree (by simp [Slot.answers, hp]), ?_⟩
    rw [live_erase (w := w) rfl, if_pos rfl]
  | respawned hretired hrestart =>
    refine .inr (.inl ⟨by simp [hretired], hrestart,
      answersTo_append hfree (by simp [Slot.answers, hp]), _, ?_, le_refl _⟩)
    rw [live_insert (w := w) rfl, if_pos rfl]
  | stopped hretired hrestart =>
    refine .inr (.inr ⟨by simp [hretired], by simp [hrestart],
      answersTo_append hfree (by simp [Slot.answers, hp]), ?_⟩)
    rw [live_insert (w := w) rfl, if_pos rfl]

/-- A Stop or a Restart of a live slot that tracks no command is filed in it. -/
theorem handleControl_accept (ack : ℕ) (hs : w.slots[name]? = some slot) {task : ℕ}
    (hlive : slot.stop = some task) (hfree : slot.pending = none) :
    (w.handleControl (.stop name ack)).slots[name]? = some { slot with pending := some ack } ∧
      (w.handleControl (.restart name ack)).slots[name]? =
        some { slot with restartWhenStopped := true, pending := some ack } := by
  have hfree' : slot.pending.isSome = false := by rw [hfree]; rfl
  constructor <;>
    simp only [handleControl, withSlot, hs, hfree', hlive, Bool.false_eq_true, if_false, request,
      setSlot, TreeMap.getElem?_insert, if_true]

/-- **What an accepted command comes to.** A Stop of a live service that was accepted is answered
with Stopped, once, and leaves the service without a task, exactly when the slot was not already
due to be restarted, or was to go away. A Restart that was accepted is answered with Restarted,
once, and leaves the service with a new task, exactly when the slot was not to go away. -/
theorem accepted_iff {w₁ w₂ w₃ : Stack} {task : ℕ} {report : ServiceReport}
    {rest : List (ℕ × ServiceReport)} (hw : stackSystem.Reachable AnyStep w)
    (hs : w.slots[name]? = some slot) (hlive : slot.stop = some task) (hfree : slot.pending = none)
    (hcontrol : w.step .control = some w₁) (hrun : stackSystem.Steps AnyStep w₁ w₂)
    (hqueue : w₂.reportQueue = (task, report) :: rest) (hreport : w₂.step .report = some w₃) :
    (w.control.head? = some (.stop name ack) →
      (w₃.answersTo ack = [.ok .stopped] ∧ w₃.live name = none ↔
        slot.retired ∨ ¬ slot.restartWhenStopped)) ∧
    (w.control.head? = some (.restart name ack) →
      (w₃.answersTo ack = [.ok .restarted] ∧ Respawned w₂ w₃ name ↔ ¬ slot.retired)) := by
  have hI := inv_of_reachable hw
  have hw₁ : stackSystem.Reachable AnyStep w₁ := hw.step (a := .control) trivial hcontrol
  have hw₂ := hw₁.steps hrun
  have hI₂ := inv_of_reachable hw₂
  have hhandle : slot.handle = some task := by rw [← hI.stop_eq hs, hlive]
  -- The report is one of this service, and its task is outstanding until it is taken.
  obtain ⟨spawned, htask, hname, -⟩ := hI.live_iff.mp ((live_of_slot hs).trans hhandle)
  have htask₂ : w₂.tasks[task]? = some spawned := by
    have hpre := (step_grows hI hcontrol).1.trans (steps_grow hw₁ hrun).1
    rw [getElem?_of_isPrefix hpre (List.getElem?_eq_some_iff.mp htask).1, htask]
  have hservice : report.service = name := by
    obtain ⟨spawned', htask', hname'⟩ := hI₂.queue_service (hqueue ▸ List.mem_cons_self)
    obtain rfl := Option.some.inj (htask₂.symm.trans htask')
    exact hname'.symm.trans hname
  have hout : w₂.Outstanding task name := ⟨spawned, htask₂, hname, .inr (by simp [hqueue])⟩
  have hmain : ∀ {slot₁ : Slot}, w₁.slots[name]? = some slot₁ → slot₁.pending = some ack →
      slot₁.handle = some task → _ := fun hs₁ hp hh =>
    report_answers hI₂ (acksUnique_of_reachable hw₂) hqueue
      (hservice ▸ filed_of_steps hw₁ hs₁ (by rw [hp]; rfl) hh hrun hout) hp hreport
  rw [hservice] at hmain
  obtain ⟨command, queued, hhead, rfl⟩ := step_control hcontrol
  rw [hhead, List.head?_cons]
  obtain ⟨hstop, hrestart⟩ := handleControl_accept (w := { w with control := queued }) ack hs
    hlive hfree
  constructor
  · intro he
    cases he
    obtain ⟨hr, ha, hl⟩ | ⟨hr, hf, ha, -⟩ | ⟨-, hf, ha, hl⟩ := hmain hstop rfl hhandle
    · exact ⟨fun _ => .inl hr, fun _ => ⟨ha, hl⟩⟩
    · refine ⟨fun h => absurd (ha.symm.trans h.1) (by simp), fun h => ?_⟩
      exact h.elim (fun h => absurd h hr) fun h => absurd hf h
    · exact ⟨fun _ => .inr hf, fun _ => ⟨ha, hl⟩⟩
  · intro he
    cases he
    obtain ⟨hr, ha, -⟩ | ⟨hr, -, ha, hl⟩ | ⟨-, hf, -⟩ := hmain hrestart rfl hhandle
    · exact ⟨fun h => absurd (ha.symm.trans h.1) (by simp), fun h => absurd hr h⟩
    · exact ⟨fun _ => hr, fun _ => ⟨ha, hl⟩⟩
    · exact absurd rfl hf

/-! ### Two runs of the sample stack -/

/-- The first task of the first service ends, as it was asked to. -/
def sampleEnd : StackAction := .finish 0 (.finished (.stopped .requested))

/-- The report of that end. -/
def sampleReport : ServiceReport := ⟨⟨"db"⟩, .finished (.stopped .requested)⟩

/-- A check along a run of the sample stack, in which a command is taken, the first task ends and its
report is handled. -/
theorem exists_of_checked (actions : List StackAction)
    (check : Stack → Stack → Stack → Stack → Slot → Bool)
    (h : ((stackSystem.run sampleStack actions).bind fun w =>
      (w.step .control).bind fun w₁ => (stackSystem.run w₁ [sampleEnd]).bind fun w₂ =>
        (w₂.step .report).bind fun w₃ =>
          w.slots[(⟨"db"⟩ : ServiceName)]?.map (check w w₁ w₂ w₃)) = some true) :
    ∃ (w w₁ w₂ w₃ : Stack) (slot : Slot), stackSystem.Reachable AnyStep w ∧
      w.slots[(⟨"db"⟩ : ServiceName)]? = some slot ∧ w.step .control = some w₁ ∧
      stackSystem.Steps AnyStep w₁ w₂ ∧ w₂.step .report = some w₃ ∧ check w w₁ w₂ w₃ slot := by
  obtain ⟨w, hw, h⟩ := Option.bind_eq_some_iff.mp h
  obtain ⟨w₁, hw₁, h⟩ := Option.bind_eq_some_iff.mp h
  obtain ⟨w₂, hw₂, h⟩ := Option.bind_eq_some_iff.mp h
  obtain ⟨w₃, hw₃, h⟩ := Option.bind_eq_some_iff.mp h
  obtain ⟨slot, hs, hcheck⟩ := Option.map_eq_some_iff.mp h
  have hreach : stackSystem.Reachable AnyStep w :=
    (TransitionSystem.Reachable.initial init_sampleStack).steps (TransitionSystem.steps_of_run hw)
  exact ⟨w, w₁, w₂, w₃, slot, hreach, hs, hw₁, TransitionSystem.steps_of_run hw₂, hw₃, hcheck⟩

theorem accepted_iff_sampleStop : ∃ w : Stack,
    w.answersTo 0 = [.ok .stopped] ∧ w.live ⟨"db"⟩ = none := by
  obtain ⟨w, w₁, w₂, w₃, slot, hreach, hs, hw₁, hsteps, hw₃, hcheck⟩ :=
    exists_of_checked [.submit (.stop ⟨"db"⟩ 0)]
      (fun w _ w₂ _ slot => decide (slot.stop = some 0 ∧ slot.pending = none ∧
        slot.restartWhenStopped = false ∧ w.control.head? = some (.stop ⟨"db"⟩ 0) ∧
        w₂.reportQueue = [(0, sampleReport)])) (by decide +kernel)
  obtain ⟨hlive, hfree, hflag, hhead, hqueue⟩ := of_decide_eq_true hcheck
  have hmain := (accepted_iff hreach hs hlive hfree hw₁ hsteps hqueue hw₃).1 hhead
  exact ⟨w₃, hmain.mpr (.inr (by rw [hflag]; decide))⟩

/-- A reload that changes a service, and a Stop of it before its task has ended: the Stop is
accepted, and the report answers it with Restarted and starts the service again. -/
theorem stop_of_changed_restarted : ∃ (w w₁ w₂ w₃ : Stack) (slot : Slot),
    stackSystem.Reachable AnyStep w ∧ w.control.head? = some (.stop ⟨"db"⟩ 1) ∧
      w.slots[(⟨"db"⟩ : ServiceName)]? = some slot ∧ slot.stop = some 0 ∧ slot.pending = none ∧
      w.step .control = some w₁ ∧ stackSystem.Steps AnyStep w₁ w₂ ∧
      w₂.reportQueue = [(0, sampleReport)] ∧ w₂.step .report = some w₃ ∧
      w₃.answersTo 1 = [.ok .restarted] ∧ Respawned w₂ w₃ ⟨"db"⟩ := by
  obtain ⟨w, w₁, w₂, w₃, slot, hreach, hs, hw₁, hsteps, hw₃, hcheck⟩ :=
    exists_of_checked
      [.submit (.reload changedConfig changedPlan 0), .control, .submit (.stop ⟨"db"⟩ 1)]
      (fun w _ w₂ w₃ slot => decide (slot.stop = some 0 ∧ slot.pending = none ∧
        w.control.head? = some (.stop ⟨"db"⟩ 1) ∧ w₂.reportQueue = [(0, sampleReport)] ∧
        w₃.answersTo 1 = [.ok .restarted] ∧ w₃.live ⟨"db"⟩ = some 2 ∧
        w₂.tasks.length = 2)) (by decide +kernel)
  obtain ⟨hlive, hfree, hhead, hqueue, hanswer, hnew, hlen⟩ := of_decide_eq_true hcheck
  exact ⟨w, w₁, w₂, w₃, slot, hreach, hhead, hs, hlive, hfree, hw₁, hsteps, hqueue, hw₃, hanswer,
    2, hnew, hlen.le⟩

end Stack

end Servicrab
