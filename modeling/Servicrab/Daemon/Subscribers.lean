import Servicrab.Core.Replay
import Servicrab.Daemon.Stream

/-!
# What a subscriber is told

The results about the event stream: what is written to a subscriber accounts for every event since
it subscribed, and the events it is offered are those that change the registry.

## Main definitions

* `Streaming.Inv`: the invariant of the stream and its subscribers.
* `Streaming.Continues`: what a run without a reload adds to the registry and to the stream.
* `Streaming.KeepsUp`, `Streaming.NoSync`: the guards.

## Main results

* `Streaming.subscriber_accounts`: what a subscriber was written accounts for all events.
* `Streaming.written_of_keepsUp`: a subscriber that keeps up misses nothing.
* `Streaming.replay_snapshot`: a snapshot and the stream make up the registry.
-/

open Broadcast (Accounts GapsBehind Holds Receipt)
open TransitionSystem (AnyStep)

namespace Servicrab

/-! ### One subscriber -/

namespace Subscriber

variable {sub sub' : Subscriber} {all : List ServiceEvent} {event : ServiceEvent}
  {stream : Broadcast ServiceEvent}

/-- What the connection of a subscriber does by itself, given the stream. -/
inductive Moves (stream : Broadcast ServiceEvent) (sub : Subscriber) : Subscriber → Prop
  | greet (h : sub.phase = .greeting) (alive : Bool) : Moves stream sub (sub.write Server.hello alive)
  | take (h : sub.phase = .receiving) {receipt : Receipt ServiceEvent} {next : ℕ}
      (hrecv : stream.recv sub.next = some (receipt, next)) : Moves stream sub (sub.take receipt next)
  | write {response : Protocol.Response} (h : sub.phase = .writing response) (alive : Bool) :
      Moves stream sub (sub.write response alive)

/-- What it received accounts for what it was offered so far, and its position in the stream is where
the rest of that begins. -/
def Sound (sub : Subscriber) (all : List ServiceEvent) : Prop :=
  GapsBehind streamBacklog sub.offered.length sub.received ∧
    ∃ handled pending, sub.offered = handled ++ pending ∧ Accounts handled sub.received ∧
      (sub.isLive → ∃ before, all = before ++ sub.offered ∧
        sub.next = before.length + handled.length)

/-- What is still to be written of what it is told. -/
def Due (sub : Subscriber) (due : List Protocol.Response) : Prop :=
  match sub.phase with
  | .greeting => due = [Server.hello]
  | .receiving => due = []
  | .writing response => due = [response]
  | .gone => due.length ≤ 1

/-- Everything it was told is written, but for what is due. -/
def Told (sub : Subscriber) : Prop :=
  ∃ due, sub.Due due ∧
    sub.written ++ due = Server.hello :: sub.received.filterMap sub.filter.response

theorem isLive_of_moves (h : Moves stream sub sub') : sub.isLive := by
  cases h with
  | greet h | take h | write h => simp [isLive, h]

theorem sound_new (filter : Filter) (all : List ServiceEvent) : (new filter all.length).Sound all :=
  ⟨Broadcast.gapsBehind_nil, [], [], rfl, .nil, fun _ => ⟨all, (List.append_nil all).symm, rfl⟩⟩

theorem told_new (filter : Filter) (next : ℕ) : (new filter next).Told :=
  ⟨[Server.hello], rfl, rfl⟩

theorem Sound.write (h : sub.Sound all) (hlive : sub.isLive) (response : Protocol.Response)
    (alive : Bool) : (sub.write response alive).Sound all := by
  obtain ⟨hgaps, handled, pending, hoffered, haccounts, hplace⟩ := h
  cases alive
  · exact ⟨hgaps, handled, pending, hoffered, haccounts, fun _ => hplace hlive⟩
  · exact ⟨hgaps, handled, pending, hoffered, haccounts, fun _ => hplace hlive⟩

theorem Sound.offer (h : sub.Sound all) (event : ServiceEvent) :
    (sub.offer event).Sound (all ++ [event]) := by
  obtain ⟨hgaps, handled, pending, hoffered, haccounts, hplace⟩ := h
  rw [Subscriber.offer]
  split_ifs with hlive
  · refine ⟨hgaps.mono (by simp), handled, pending ++ [event], ?_, haccounts, fun _ => ?_⟩
    · simp [hoffered]
    · obtain ⟨before, rfl, hnext⟩ := hplace hlive
      exact ⟨before, List.append_assoc _ _ _, hnext⟩
  · exact ⟨hgaps, handled, pending, hoffered, haccounts, fun h => absurd h hlive⟩

/-- What is received is the next of what is pending, or tells how much of it is skipped. -/
theorem Sound.take (h : sub.Sound all) (hlive : sub.isLive) (hholds : Holds streamBacklog stream all)
    {receipt : Receipt ServiceEvent} {next : ℕ} (hrecv : stream.recv sub.next = some (receipt, next)) :
    (sub.take receipt next).Sound all := by
  obtain ⟨hgaps, handled, pending, hoffered, haccounts, hplace⟩ := h
  obtain ⟨before, hall, hnext⟩ := hplace hlive
  have hlength : all.length = before.length + (handled.length + pending.length) := by
    rw [hall, hoffered, List.length_append, List.length_append]
  rcases hholds.recv_cases hrecv with ⟨missed, rfl, rfl, hpos, hend⟩ | ⟨event, rfl, rfl, hevent, -⟩
  · have hmissed : (pending.take missed).length = missed := by
      rw [List.length_take]
      omega
    refine ⟨hgaps.concat fun n hn => ?_, handled ++ pending.take missed, pending.drop missed, ?_, ?_,
      fun _ => ⟨before, hall, ?_⟩⟩
    · obtain rfl := Receipt.lagged.inj hn
      refine ⟨hpos, ?_⟩
      show _ ≤ sub.offered.length
      rw [haccounts.span_sum, hoffered, List.length_append]
      omega
    · show sub.offered = _
      rw [List.append_assoc, List.take_append_drop, hoffered]
    · have hlagged : Accounts (handled ++ pending.take missed)
          (sub.received ++ [.lagged (pending.take missed).length]) :=
        haccounts.lagged fun hnil => by rw [hnil, List.length_nil] at hmissed; omega
      rwa [hmissed] at hlagged
    · show sub.next + missed = _
      rw [List.length_append, hmissed, hnext, Nat.add_assoc]
  · have hhead : pending[0]? = some event := by
      rw [hall, hoffered, hnext, List.getElem?_append_right (Nat.le_add_right _ _),
        Nat.add_sub_cancel_left, List.getElem?_append_right (Nat.le_refl _), Nat.sub_self] at hevent
      exact hevent
    obtain ⟨rest, rfl⟩ : ∃ rest, pending = event :: rest := by
      cases pending with
      | nil => simp at hhead
      | cons first rest => exact ⟨rest, by rw [Option.some.inj hhead]⟩
    refine ⟨hgaps.concat fun _ => nofun, handled ++ [event], rest, ?_, haccounts.value event,
      fun _ => ⟨before, hall, ?_⟩⟩
    · exact hoffered.trans (List.append_cons handled event rest)
    · show sub.next + 1 = _
      rw [List.length_append, List.length_singleton, hnext, Nat.add_assoc]

theorem Told.write (h : sub.Told) {response : Protocol.Response} (hdue : ∀ due, sub.Due due →
    due = [response]) (alive : Bool) : (sub.write response alive).Told := by
  obtain ⟨due, hd, htold⟩ := h
  obtain rfl := hdue due hd
  cases alive
  · exact ⟨[response], Nat.le_refl 1, htold⟩
  · exact ⟨[], rfl, (List.append_nil _).trans htold⟩

theorem Told.offer (h : sub.Told) (event : ServiceEvent) : (sub.offer event).Told := by
  rw [Subscriber.offer]
  split_ifs <;> exact h

theorem Told.take (h : sub.Told) (hphase : sub.phase = .receiving) (receipt : Receipt ServiceEvent)
    (next : ℕ) : (sub.take receipt next).Told := by
  obtain ⟨due, hdue, htold⟩ := h
  simp only [Due, hphase] at hdue
  subst hdue
  rw [List.append_nil] at htold
  have hfilterMap : (sub.received ++ [receipt]).filterMap sub.filter.response =
      sub.received.filterMap sub.filter.response ++ (sub.filter.response receipt).toList := by
    rw [List.filterMap_append]
    cases hresponse : sub.filter.response receipt <;> simp [hresponse]
  cases hresponse : sub.filter.response receipt with
  | none =>
    refine ⟨[], ?_, ?_⟩
    · simp only [Due, Subscriber.take, hresponse]
    · show sub.written ++ [] =
        Server.hello :: (sub.received ++ [receipt]).filterMap sub.filter.response
      rw [hfilterMap, hresponse, htold]
      rfl
  | some response =>
    refine ⟨[response], ?_, ?_⟩
    · simp only [Due, Subscriber.take, hresponse]
    · show sub.written ++ [response] =
        Server.hello :: (sub.received ++ [receipt]).filterMap sub.filter.response
      rw [hfilterMap, hresponse, htold]
      rfl

/-- What a connection does keeps both. -/
theorem Sound.moves (h : sub.Sound all) (hholds : Holds streamBacklog stream all)
    (hmoves : Moves stream sub sub') : sub'.Sound all := by
  have hlive := isLive_of_moves hmoves
  cases hmoves with
  | greet _ alive => exact h.write hlive _ alive
  | take _ hrecv => exact h.take hlive hholds hrecv
  | write _ alive => exact h.write hlive _ alive

theorem Told.moves (h : sub.Told) (hmoves : Moves stream sub sub') : sub'.Told := by
  cases hmoves with
  | greet hphase alive => exact h.write (fun due hdue => by simp_all [Due]) alive
  | take hphase hrecv => exact h.take hphase _ _
  | write hphase alive => exact h.write (fun due hdue => by simp_all [Due]) alive

end Subscriber

/-! ### The stream -/

namespace Streaming

variable {s s' : Streaming} {all : List ServiceEvent} {action : StreamAction}

/-- The stream retains the last of these events, and every subscriber is told about those that were
sent since it subscribed. -/
structure Inv (s : Streaming) (all : List ServiceEvent) : Prop where
  holds : Holds streamBacklog s.stream all
  sound : ∀ sub ∈ s.subscribers, sub.Sound all
  told : ∀ sub ∈ s.subscribers, sub.Told

theorem inv_initial (config : Config) (plan : List ServiceName) : (initial config plan).Inv [] :=
  ⟨Broadcast.holds_new streamBacklog, nofun, nofun⟩

/-- The stream is not closed as long as there is a subscriber. -/
theorem hasSender_of_isLive {k : ℕ} {sub : Subscriber} (hsub : s.subscribers[k]? = some sub)
    (hlive : sub.isLive) : s.hasSender := by
  have hany : s.subscribers.any Subscriber.isLive :=
    List.any_eq_true.mpr ⟨sub, List.mem_of_getElem? hsub, hlive⟩
  rw [hasSender, hany, Bool.or_true]

/-- The event that is folded, but not sent yet. -/
def inHand (s : Streaming) : List ServiceEvent :=
  match s.collector with
  | .sending event => [event]
  | _ => []

/-- What a step does to the registry, the stream and the subscribers. -/
inductive Change (s : Streaming) : StreamAction → Streaming → Prop
  | quiet {action : StreamAction} {s' : Streaming} (hregistry : s'.registry = s.registry)
      (hfolded : s'.folded = s.folded) (hstream : s'.stream = s.stream)
      (hsubscribers : s'.subscribers = s.subscribers) (hinHand : s'.inHand = s.inHand) :
      Change s action s'
  | fold {event : ServiceEvent} (h : s.collector = .applying event) (now : Instant) :
      Change s (.apply now) { s with
        registry := s.registry.apply now event
        folded := s.folded ++ [(now, event)]
        collector := .sending event }
  | sync (config : ValidConfig) (names : List ServiceName) :
      Change s (.sync config names) { s with registry := syncRegistry s.registry config.1 names }
  | send {event : ServiceEvent} (h : s.collector = .sending event) :
      Change s .send { s.broadcast event with collector := .receiving }
  | subscribe (filter : Filter) :
      Change s (.subscribe filter)
        { s with subscribers := s.subscribers ++ [.new filter s.stream.tail] }
  | move {action : StreamAction} {k : ℕ} {sub sub' : Subscriber}
      (hsub : s.subscribers[k]? = some sub) (h : sub.Moves s.stream sub') :
      Change s action { s with subscribers := s.subscribers.set k sub' }

theorem change_of_step (h : s.step action = some s') : s.Change action s' := by
  cases action with
  | publish event =>
    simp only [step] at h
    split at h <;> cases h
    exact .quiet rfl rfl rfl rfl rfl
  | receive =>
    simp only [step] at h
    split at h
    · rename_i hphase _
      cases h
      exact .quiet rfl rfl rfl rfl (by simp [inHand, hphase])
    · rename_i hphase _
      split at h <;> cases h
      exact .quiet rfl rfl rfl rfl (by simp [inHand, hphase])
    · cases h
  | apply now =>
    simp only [step] at h
    split at h <;> cases h
    exact .fold ‹_› now
  | hangUp | release =>
    cases h
    exact .quiet rfl rfl rfl rfl rfl
  | sync config names =>
    cases h
    exact .sync config names
  | send =>
    simp only [step] at h
    split at h <;> cases h
    exact .send ‹_›
  | subscribe filter =>
    cases h
    exact .subscribe filter
  | greet k alive =>
    simp only [step] at h
    split at h
    · rename_i hsub
      split at h <;> cases h
      exact .move hsub (.greet ‹_› alive)
    · cases h
  | write k alive =>
    simp only [step] at h
    split at h
    · rename_i hsub
      split at h <;> cases h
      exact .move hsub (.write ‹_› alive)
    · cases h
  | next k =>
    simp only [step] at h
    split at h
    · rename_i sub hsub
      split at h
      · rename_i hphase
        have hlive : sub.isLive := by simp [Subscriber.isLive, hphase]
        simp only [receiveAt, hasSender_of_isLive hsub hlive, if_true] at h
        split at h <;> cases h
        exact .move hsub (.take hphase ‹_›)
      · cases h
    · cases h

/-- An event that nobody receives is not retained. -/
theorem inv_broadcast (h : s.Inv all) (event : ServiceEvent) (collector : CollectorPhase) :
    ∃ all', Inv { s.broadcast event with collector := collector } all' := by
  by_cases hlive : s.subscribers.any Subscriber.isLive
  · refine ⟨all ++ [event], ?_, List.forall_mem_map.mpr fun sub hsub => (h.sound sub hsub).offer event,
      List.forall_mem_map.mpr fun sub hsub => (h.told sub hsub).offer event⟩
    show Holds streamBacklog (if s.subscribers.any Subscriber.isLive then _ else _) _
    rw [if_pos hlive]
    exact h.holds.send event
  · have hoffer : s.subscribers.map (Subscriber.offer event) = s.subscribers := by
      refine (List.map_congr_left fun sub hsub => ?_).trans (List.map_id _)
      exact if_neg fun h => hlive (List.any_eq_true.mpr ⟨sub, hsub, h⟩)
    refine ⟨all, ?_, ?_, ?_⟩
    · show Holds streamBacklog (if s.subscribers.any Subscriber.isLive then _ else _) _
      rw [if_neg hlive]
      exact h.holds
    · show ∀ sub ∈ s.subscribers.map (Subscriber.offer event), sub.Sound all
      rw [hoffer]
      exact h.sound
    · show ∀ sub ∈ s.subscribers.map (Subscriber.offer event), sub.Told
      rw [hoffer]
      exact h.told

/-- Every step keeps the invariant. -/
theorem Inv.step (h : s.Inv all) (hstep : s.step action = some s') : ∃ all', s'.Inv all' := by
  cases change_of_step hstep with
  | quiet _ _ hstream hsubscribers _ =>
    exact ⟨all, hstream ▸ h.holds, hsubscribers ▸ h.sound, hsubscribers ▸ h.told⟩
  | fold | sync => exact ⟨all, h.holds, h.sound, h.told⟩
  | send => exact inv_broadcast h _ .receiving
  | subscribe filter =>
    refine ⟨all, h.holds, List.forall_mem_append.mpr ⟨h.sound, List.forall_mem_singleton.mpr ?_⟩,
      List.forall_mem_append.mpr ⟨h.told, List.forall_mem_singleton.mpr (Subscriber.told_new _ _)⟩⟩
    rw [h.holds.tail]
    exact Subscriber.sound_new filter all
  | move hsub hmoves =>
    have hmem := List.mem_of_getElem? hsub
    refine ⟨all, h.holds, fun other hother => ?_, fun other hother => ?_⟩
    · rcases List.mem_or_eq_of_mem_set hother with hother | rfl
      · exact h.sound other hother
      · exact (h.sound _ hmem).moves h.holds hmoves
    · rcases List.mem_or_eq_of_mem_set hother with hother | rfl
      · exact h.told other hother
      · exact (h.told _ hmem).moves hmoves

theorem inv_of_reachable (h : streamSystem.Reachable AnyStep s) : ∃ all, s.Inv all := by
  refine h.invariant (I := fun s => ∃ all, s.Inv all) ?_ ?_
  · rintro _ ⟨config, plan, rfl⟩
    exact ⟨[], inv_initial config.1 plan.1⟩
  · rintro _ _ _ _ ⟨_, hI⟩ _ hstep
    exact hI.step hstep

/-- **What a subscriber is written accounts for all events.** Whatever the interleaving, it is
written the handshake, and then, in their order, the events it asked for of those that were sent since
it subscribed, but for what is still to come and for stretches of which it is told exactly how long
they are. Such a gap is only announced when more events were pending than the stream retains. -/
theorem subscriber_accounts (h : streamSystem.Reachable AnyStep s) {sub : Subscriber}
    (hsub : sub ∈ s.subscribers) :
    (∃ due, sub.Due due ∧
      sub.written ++ due = Server.hello :: sub.received.filterMap sub.filter.response) ∧
    (∃ handled pending, sub.offered = handled ++ pending ∧ Accounts handled sub.received) ∧
    GapsBehind streamBacklog sub.offered.length sub.received := by
  obtain ⟨all, hI⟩ := inv_of_reachable h
  obtain ⟨hgaps, handled, pending, hoffered, haccounts, -⟩ := hI.sound sub hsub
  exact ⟨hI.told sub hsub, ⟨handled, pending, hoffered, haccounts⟩, hgaps⟩

/-- The collector of the sample stack. -/
def sample : Streaming := initial sampleConfig.1 samplePlan.1

theorem init_sample : streamSystem.init sample := ⟨sampleConfig, samplePlan, rfl⟩

/-- A client subscribes while an event is in hand, and is told of it. -/
def sampleRun : List StreamAction :=
  [.publish ⟨⟨"web"⟩, .started 7⟩, .receive, .apply 5, .subscribe ⟨∅, true⟩, .send, .greet 0 true,
    .next 0, .write 0 true]

theorem subscriber_accounts_sample : ∃ (s : Streaming) (sub : Subscriber),
    s.subscribers = [sub] ∧ sub.written.length = 2 ∧
      (∃ handled pending, sub.offered = handled ++ pending ∧ Accounts handled sub.received) := by
  have hrun : (streamSystem.run sample sampleRun).map (fun s =>
      s.subscribers.map fun sub => sub.written.length) = some [2] := by decide +kernel
  obtain ⟨s, hs, hwritten⟩ := Option.map_eq_some_iff.mp hrun
  obtain ⟨sub, hsub, hlength⟩ := List.map_eq_singleton_iff.mp hwritten
  have hmem : sub ∈ s.subscribers := hsub ▸ List.mem_singleton_self sub
  exact ⟨s, sub, hsub, hlength, (subscriber_accounts
    ((TransitionSystem.Reachable.initial init_sample).steps (TransitionSystem.steps_of_run hs))
    hmem).2.1⟩

/-! ### A subscriber that keeps up -/

/-- The guard that a subscriber is never further behind than the stream retains. -/
def KeepsUp (k : ℕ) (_ : Streaming) (_ : StreamAction) (s' : Streaming) : Prop :=
  ∀ sub, s'.subscribers[k]? = some sub → sub.behind ≤ streamBacklog

/-- Where a subscriber comes from in a step. -/
theorem subscriber_of_change (h : s.Change action s') {k : ℕ} {sub' : Subscriber}
    (hsub' : s'.subscribers[k]? = some sub') :
    (s.subscribers.length ≤ k ∧ ∃ filter, sub' = .new filter s.stream.tail) ∨
    ∃ sub, s.subscribers[k]? = some sub ∧
      (sub' = sub ∨ sub.Moves s.stream sub' ∨ ∃ event, sub' = sub.offer event) := by
  cases h with
  | quiet _ _ _ hsubscribers _ => exact .inr ⟨sub', hsubscribers ▸ hsub', .inl rfl⟩
  | fold | sync => exact .inr ⟨sub', hsub', .inl rfl⟩
  | send h =>
    rename_i event
    have hmap : (s.subscribers.map (Subscriber.offer event))[k]? = some sub' := hsub'
    rw [List.getElem?_map] at hmap
    obtain ⟨sub, hsub, rfl⟩ := Option.map_eq_some_iff.mp hmap
    exact .inr ⟨sub, hsub, .inr (.inr ⟨event, rfl⟩)⟩
  | subscribe filter =>
    have happend : (s.subscribers ++ [Subscriber.new filter s.stream.tail])[k]? = some sub' := hsub'
    rcases Nat.lt_or_ge k s.subscribers.length with hlt | hle
    · rw [List.getElem?_append_left hlt] at happend
      exact .inr ⟨sub', happend, .inl rfl⟩
    · rw [List.getElem?_append_right hle] at happend
      exact .inl ⟨hle, filter, (List.mem_singleton.mp (List.mem_of_getElem? happend))⟩
  | move hsub hmoves =>
    rename_i j sub _
    have hset : (s.subscribers.set j _)[k]? = some sub' := hsub'
    by_cases hjk : j = k
    · subst hjk
      rw [List.getElem?_set_self (List.getElem?_eq_some_iff.mp hsub).1] at hset
      exact .inr ⟨sub, hsub, .inr (.inl (Option.some.inj hset ▸ hmoves))⟩
    · rw [List.getElem?_set_ne hjk] at hset
      exact .inr ⟨sub', hset, .inl rfl⟩

/-- A subscriber that keeps up is told of no gap. -/
theorem lagged_notMem_of_keepsUp {k : ℕ} (h : streamSystem.Reachable (KeepsUp k) s) :
    ∀ sub, s.subscribers[k]? = some sub →
      sub.behind ≤ streamBacklog ∧ ∀ missed, .lagged missed ∉ sub.received := by
  refine h.invariant (I := fun s => ∀ sub : Subscriber, s.subscribers[k]? = some sub →
      sub.behind ≤ streamBacklog ∧ ∀ missed, .lagged missed ∉ sub.received) ?_ ?_
  · rintro _ ⟨config, plan, rfl⟩ sub hsub
    simp [initial] at hsub
  · intro u action v hu hI hkeeps hstep sub' hsub'
    refine ⟨hkeeps sub' hsub', ?_⟩
    obtain ⟨all, hinv⟩ := inv_of_reachable (hu.anyStep.step trivial hstep)
    rcases subscriber_of_change (change_of_step hstep) hsub' with ⟨-, filter, rfl⟩ | ⟨sub, hsub, hcase⟩
    · exact fun _ => List.not_mem_nil
    · have hsub'' := hI sub hsub
      rcases hcase with rfl | hmoves | ⟨event, rfl⟩
      · exact hsub''.2
      · cases hmoves with
        | greet _ alive | write _ alive => cases alive <;> exact hsub''.2
        | take hphase hrecv =>
          rename_i receipt next
          intro missed hmem
          rcases List.mem_append.mp hmem with hmem | hmem
          · exact hsub''.2 missed hmem
          · -- The gap would only be announced to a subscriber that is further behind.
            obtain ⟨hpos, hbehind⟩ := (hinv.sound _ (List.mem_of_getElem? hsub')).1
              sub.received missed [] (by rw [List.mem_singleton.mp hmem]; rfl)
            have hle : sub.offered.length - (sub.received.map Receipt.span).sum ≤ streamBacklog :=
              hsub''.1
            have hoffered : (sub.take receipt next).offered.length = sub.offered.length := rfl
            omega
      · have hreceived : (sub.offer event).received = sub.received := by
          rw [Subscriber.offer]
          split_ifs <;> rfl
        rw [hreceived]
        exact hsub''.2

/-- A subscriber that keeps up misses nothing: as long as it is never more events behind than
the stream retains, it is written the handshake, and then each event it asked for, once and in order,
of those that were sent since it subscribed, but for what is still to come. -/
theorem written_of_keepsUp {k : ℕ} (h : streamSystem.Reachable (KeepsUp k) s) {sub : Subscriber}
    (hsub : s.subscribers[k]? = some sub) :
    ∃ handled pending due, sub.offered = handled ++ pending ∧ sub.Due due ∧
      sub.written ++ due =
        Server.hello :: (handled.filter sub.filter.wants).map Filter.eventResponse := by
  obtain ⟨all, hI⟩ := inv_of_reachable h.anyStep
  obtain ⟨due, hdue, htold⟩ := hI.told sub (List.mem_of_getElem? hsub)
  obtain ⟨-, handled, pending, hoffered, haccounts, -⟩ := hI.sound sub (List.mem_of_getElem? hsub)
  refine ⟨handled, pending, due, hoffered, hdue, htold.trans (congrArg (Server.hello :: ·) ?_)⟩
  rw [haccounts.values_eq (lagged_notMem_of_keepsUp h sub hsub).2, List.filterMap_map,
    ← List.filterMap_eq_map, List.filterMap_filter]
  rfl

/-- Whether no subscriber is too far behind after a step. -/
def allKeepUp (s : Streaming) (action : StreamAction) : Bool :=
  (s.step action).all fun s' => s'.subscribers.all fun sub => sub.behind ≤ streamBacklog

theorem keepsUp_of_allKeepUp {k : ℕ} (s : Streaming) (action : StreamAction) (s' : Streaming)
    (h : allKeepUp s action) (hstep : s.step action = some s') : KeepsUp k s action s' := by
  intro sub hsub
  rw [allKeepUp, hstep, Option.all_some] at h
  exact of_decide_eq_true (List.all_eq_true.mp h sub (List.mem_of_getElem? hsub))

/-! ### The stream and the registry -/

/-- The guard that no reload request synchronises the registry. -/
def NoSync (_ : Streaming) (action : StreamAction) (_ : Streaming) : Prop :=
  ∀ config names, action ≠ .sync config names

/-- What was folded and sent between two states: the events that were sent are those that were
folded, but for the one that is in hand, and every subscriber was offered them. -/
structure Continues (s t : Streaming) (more : List (Instant × ServiceEvent))
    (sent : List ServiceEvent) : Prop where
  folded : t.folded = s.folded ++ more
  registry : t.registry = s.registry.applyAll more
  inHand : s.inHand ++ more.map Prod.snd = sent ++ t.inHand
  length : s.subscribers.length ≤ t.subscribers.length
  old : ∀ k < s.subscribers.length, ∀ sub', t.subscribers[k]? = some sub' → sub'.isLive →
    ∃ sub, s.subscribers[k]? = some sub ∧ sub.isLive ∧ sub'.offered = sub.offered ++ sent
  fresh : ∀ k ≥ s.subscribers.length, ∀ sub', t.subscribers[k]? = some sub' → sub'.isLive →
    sub'.offered <:+ sent

variable {t u : Streaming} {more : List (Instant × ServiceEvent)} {sent : List ServiceEvent}

theorem Continues.refl (s : Streaming) : Continues s s [] [] where
  folded := (List.append_nil _).symm
  registry := rfl
  inHand := List.append_nil _
  length := Nat.le_refl _
  old _ _ sub' hsub' hlive := ⟨sub', hsub', hlive, (List.append_nil _).symm⟩
  fresh _ hk _ hsub' _ := absurd (List.getElem?_eq_some_iff.mp hsub').1 (Nat.not_lt.mpr hk)

/-- What is unchanged on both sides. -/
theorem Continues.of_subscribers (h : Continues s t more sent) (hregistry : u.registry = t.registry)
    (hfolded : u.folded = t.folded) (hinHand : u.inHand = t.inHand)
    (hlength : t.subscribers.length ≤ u.subscribers.length)
    (hsubscribers : ∀ (k : ℕ) (sub' : Subscriber), u.subscribers[k]? = some sub' → sub'.isLive →
      (t.subscribers.length ≤ k ∧ sub'.offered = []) ∨
      ∃ sub, t.subscribers[k]? = some sub ∧ sub.isLive ∧ sub'.offered = sub.offered) :
    Continues s u more sent where
  folded := hfolded.trans h.folded
  registry := hregistry.trans h.registry
  inHand := hinHand ▸ h.inHand
  length := h.length.trans hlength
  old k hk sub' hsub' hlive := by
    rcases hsubscribers k sub' hsub' hlive with ⟨hle, -⟩ | ⟨sub, hsub, hlive', hoffered⟩
    · exact absurd (h.length.trans hle) (Nat.not_le.mpr hk)
    · exact hoffered ▸ h.old k hk sub hsub hlive'
  fresh k hk sub' hsub' hlive := by
    rcases hsubscribers k sub' hsub' hlive with ⟨-, hoffered⟩ | ⟨sub, hsub, hlive', hoffered⟩
    · exact hoffered ▸ List.nil_suffix
    · exact hoffered ▸ h.fresh k hk sub hsub hlive'

theorem offered_of_moves {stream : Broadcast ServiceEvent} {sub sub' : Subscriber}
    (h : sub.Moves stream sub') : sub'.offered = sub.offered := by
  cases h with
  | greet _ alive | write _ alive => cases alive <;> rfl
  | take => rfl

theorem Continues.change (h : Continues s t more sent) (hchange : t.Change action u)
    (hsync : NoSync t action u) : ∃ more sent, Continues s u more sent := by
  cases hchange with
  | quiet hregistry hfolded _ hsubscribers hinHand =>
    exact ⟨more, sent, h.of_subscribers hregistry hfolded hinHand (hsubscribers ▸ Nat.le_refl _)
      fun k sub' hsub' hlive => .inr ⟨sub', hsubscribers ▸ hsub', hlive, rfl⟩⟩
  | fold hphase now =>
    rename_i event
    have hinHand : t.inHand = [] := by simp [Streaming.inHand, hphase]
    refine ⟨more ++ [(now, event)], sent, ?_, ?_, ?_, h.length, h.old, h.fresh⟩
    · exact (congrArg (· ++ [(now, event)]) h.folded).trans (List.append_assoc _ _ _)
    · rw [StatusRegistry.applyAll_append, ← h.registry]
      rfl
    · rw [List.map_append, ← List.append_assoc, h.inHand, hinHand, List.append_nil]
      rfl
  | sync config names => exact absurd rfl (hsync config names)
  | send hphase =>
    rename_i event
    have hinHand : t.inHand = [event] := by simp [Streaming.inHand, hphase]
    have hsubscribers : ∀ (k : ℕ) (sub' : Subscriber),
        (t.subscribers.map (Subscriber.offer event))[k]? = some sub' → sub'.isLive →
        ∃ sub, t.subscribers[k]? = some sub ∧ sub.isLive ∧ sub'.offered = sub.offered ++ [event] := by
      intro k sub' hsub' hlive
      rw [List.getElem?_map] at hsub'
      obtain ⟨sub, hsub, rfl⟩ := Option.map_eq_some_iff.mp hsub'
      rw [Subscriber.offer] at hlive ⊢
      split_ifs at hlive ⊢ with hlive'
      · exact ⟨sub, hsub, hlive', rfl⟩
      · exact absurd hlive hlive'
    refine ⟨more, sent ++ [event], h.folded, h.registry, ?_, ?_, fun k hk sub' hsub' hlive => ?_,
      fun k hk sub' hsub' hlive => ?_⟩
    · rw [h.inHand, hinHand]
      exact (List.append_nil _).symm
    · exact h.length.trans (List.length_map _).symm.le
    · obtain ⟨sub, hsub, hlive', hoffered⟩ := hsubscribers k sub' hsub' hlive
      obtain ⟨first, hfirst, hlive₀, hoffered'⟩ := h.old k hk sub hsub hlive'
      exact ⟨first, hfirst, hlive₀, by rw [hoffered, hoffered', List.append_assoc]⟩
    · obtain ⟨sub, hsub, hlive', hoffered⟩ := hsubscribers k sub' hsub' hlive
      obtain ⟨before, hbefore⟩ := h.fresh k hk sub hsub hlive'
      exact ⟨before, by rw [hoffered, ← List.append_assoc, hbefore]⟩
  | subscribe filter =>
    refine ⟨more, sent, h.of_subscribers rfl rfl rfl ?_ fun k sub' hsub' hlive => ?_⟩
    · show t.subscribers.length ≤ (t.subscribers ++ [_]).length
      exact (Nat.le_add_right _ _).trans List.length_append.symm.le
    · rcases subscriber_of_change (.subscribe filter) hsub' with ⟨hle, filter, rfl⟩ | ⟨sub, hsub, -⟩
      · exact .inl ⟨hle, rfl⟩
      · have happend : (t.subscribers ++ [Subscriber.new filter t.stream.tail])[k]? = some sub' := hsub'
        rw [List.getElem?_append_left (List.getElem?_eq_some_iff.mp hsub).1] at happend
        exact .inr ⟨sub', happend, hlive, rfl⟩
  | move hsub hmoves =>
    rename_i j sub moved
    refine ⟨more, sent, h.of_subscribers rfl rfl rfl (List.length_set).symm.le
      fun k sub' hsub' hlive => .inr ?_⟩
    have hset : (t.subscribers.set j moved)[k]? = some sub' := hsub'
    by_cases hjk : j = k
    · subst hjk
      rw [List.getElem?_set_self (List.getElem?_eq_some_iff.mp hsub).1] at hset
      obtain rfl := Option.some.inj hset
      exact ⟨sub, hsub, Subscriber.isLive_of_moves hmoves, offered_of_moves hmoves⟩
    · rw [List.getElem?_set_ne hjk] at hset
      exact ⟨sub', hset, hlive, rfl⟩

theorem exists_continues (h : streamSystem.Steps NoSync s t) : ∃ more sent, Continues s t more sent :=
  h.invariant (I := fun t => ∃ more sent, Continues s t more sent) ⟨[], [], .refl s⟩
    fun _ ⟨_, _, hI⟩ hsync hstep => hI.change (change_of_step hstep) hsync

/-- **A snapshot and the stream make up the registry.** Let a client subscribe, at any point of a run
without a reload, and read the registry at some later point. The events that are sent from its
subscription on, together with the one that the collector has folded but not sent yet, are some of the
last that were folded, and folding them over what was read gives the registry as it is now: those
that it had seen already change nothing. -/
theorem replay_snapshot {s₀ s t : Streaming} (hs : streamSystem.Steps NoSync s₀ s)
    (ht : streamSystem.Steps NoSync s t) (h₀ : s₀.inHand = []) {k : ℕ}
    (hk : s₀.subscribers.length ≤ k) (hks : k < s.subscribers.length) {sub : Subscriber}
    (hsub : t.subscribers[k]? = some sub) (hlive : sub.isLive) :
    ∃ replayed, replayed <:+ t.folded ∧ replayed.map Prod.snd = sub.offered ++ t.inHand ∧
      s.registry.applyAll replayed = t.registry := by
  obtain ⟨more, sent, hmore⟩ := exists_continues hs
  obtain ⟨more', sent', hmore'⟩ := exists_continues ht
  obtain ⟨sub', hsub', hlive', hoffered⟩ := hmore'.old k hks sub hsub hlive
  obtain ⟨before, hbefore⟩ := hmore.fresh k hk sub' hsub' hlive'
  have hinHand : more.map Prod.snd = sent ++ s.inHand := by
    rw [← hmore.inHand, h₀, List.nil_append]
  have hevents : (more ++ more').map Prod.snd = before ++ (sub.offered ++ t.inHand) := by
    rw [List.map_append, hinHand, List.append_assoc, hmore'.inHand, ← hbefore, hoffered]
    simp only [List.append_assoc]
  have hlength : before.length ≤ more.length := by
    rw [← List.length_map Prod.snd, hinHand, ← hbefore, List.append_assoc, List.length_append]
    exact Nat.le_add_right _ _
  -- What was folded before the subscription is left out.
  refine ⟨more.drop before.length ++ more', ?_, ?_, ?_⟩
  · rw [hmore'.folded, hmore.folded, List.append_assoc]
    exact ⟨s₀.folded ++ more.take before.length, by
      simp only [List.append_assoc, ← List.append_assoc (more.take _), List.take_append_drop]⟩
  · rw [← List.drop_append_of_le_length hlength, List.map_drop, hevents, List.drop_left]
  · have hagain := s₀.registry.applyAll_again (more.take before.length) (more.drop before.length)
    rw [List.take_append_drop, ← hmore.registry] at hagain
    rw [StatusRegistry.applyAll_append, hagain, hmore'.registry]

/-- The event was folded before the subscription, and is folded again over the snapshot. -/
theorem replay_snapshot_sample : ∃ (s t : Streaming) (sub : Subscriber),
    t.subscribers = [sub] ∧ s.registry.services[(⟨"web"⟩ : ServiceName)]?.isSome ∧
      ∃ replayed, replayed <:+ t.folded ∧ replayed.map Prod.snd = sub.offered ++ t.inHand ∧
        s.registry.applyAll replayed = t.registry := by
  have hnoSync : ∀ action ∈ sampleRun, ∀ u v, NoSync u action v := by
    intro action haction u v config names heq
    subst heq
    simp [sampleRun] at haction
  have hrun : (streamSystem.run sample (sampleRun.take 4)).bind (fun s =>
      (streamSystem.run s (sampleRun.drop 4)).map fun t =>
        (s.subscribers.length, t.subscribers.map Subscriber.isLive,
          s.registry.services[(⟨"web"⟩ : ServiceName)]?.isSome)) = some (1, [true], true) := by
    decide +kernel
  obtain ⟨s, hs, hrun⟩ := Option.bind_eq_some_iff.mp hrun
  obtain ⟨t, ht, hfacts⟩ := Option.map_eq_some_iff.mp hrun
  simp only [Prod.mk.injEq] at hfacts
  obtain ⟨hlength, hlive, hweb⟩ := hfacts
  obtain ⟨sub, hsub, hlive⟩ := List.map_eq_singleton_iff.mp hlive
  have hget : t.subscribers[0]? = some sub := by rw [hsub]; rfl
  exact ⟨s, t, sub, hsub, hweb, replay_snapshot
    (TransitionSystem.steps_of_run_of_forall
      (fun action haction => hnoSync action (List.mem_of_mem_take haction)) hs)
    (TransitionSystem.steps_of_run_of_forall
      (fun action haction => hnoSync action (List.mem_of_mem_drop haction)) ht)
    rfl (Nat.zero_le 0) (hlength ▸ Nat.one_pos) hget hlive⟩

end Streaming

end Servicrab
