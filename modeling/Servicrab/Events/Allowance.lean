import Servicrab.Events.Channel
import Servicrab.Library.Tally

/-!
# The allowance for log lines

Every reservation is held by a log line in the queue, by a `send` that is under way, or by the
receiver until it has given it back. The reservations of lines that are refused come on top of the
allowance, those of the others never do.

What a sender is asked to send is on the channel, in its hand, or refused; the lines refused are
counted by a report, by the drop counter, or are still to be counted.

## Main definitions

* `EventChannel.Reserved`, `EventChannel.Accounted`: the invariants.
* `EventChannel.Bounded`: what they come to.

## Main results

* `EventChannel.bounded_of_reachable`.
-/

open TransitionSystem (AnyStep)

namespace Servicrab

namespace SendPhase

/-- Whether the reservation of a line that was admitted is held. -/
@[simp] def granted : SendPhase → ℕ
  | .checking _ | .enqueueing _ | .failing _ => 1
  | .swapping _ admitted | .publishing _ _ _ admitted => admitted.toNat
  | _ => 0

/-- Whether the reservation of a line that was refused is held. -/
@[simp] def overdrawn : SendPhase → ℕ
  | .refusing _ => 1
  | _ => 0

/-- The event that is still to be put on the channel. -/
@[simp] def inHand : SendPhase → List ServiceEvent
  | .called event | .checking event | .enqueueing event | .failing event => [event]
  | .swapping event admitted | .publishing event _ _ admitted => if admitted then [event] else []
  | _ => []

/-- The event that the `send` in progress was called with. -/
def event : SendPhase → Option ServiceEvent
  | .idle | .gone => none
  | .called event | .refusing event | .dropping event | .checking event | .swapping event _
  | .publishing event _ _ _ | .enqueueing event | .failing event => some event

/-- The services of the refused lines that no counter and no report on the channel counts. -/
@[simp] def pending : SendPhase → List ServiceName
  | .refusing event | .dropping event => [event.service]
  | .publishing _ _ lines _ => lines
  | _ => []

/-- Only log lines get past the first step, and a report gives the number of lines it counts. As long
as the receiver lives no `send` fails. -/
def Sound : SendPhase → Prop
  | .idle | .gone | .called _ => True
  | .refusing event | .dropping event | .checking event | .swapping event _
  | .enqueueing event => event.kind.isLog
  | .publishing event count lines _ => event.kind.isLog ∧ count = lines.length
  | .failing _ => False

end SendPhase

/-- The number of lines that a report on the channel says were dropped. -/
def Posted.count (p : Posted) : ℕ :=
  match p.report, p.event.kind with
  | some _, .logLinesDropped count => count
  | _, _ => 0

namespace EventChannel

/-- Everything that was put on the channel. -/
def posted (s : EventChannel) : List Posted := s.received ++ s.channel

/-- The number of log lines in the queue. -/
def logs (s : EventChannel) : ℕ := s.channel.countP fun p => p.event.kind.isLog

/-- Every sender is in a sound phase, and the drop counter counts the lines it should. -/
structure Sound (s : EventChannel) : Prop where
  phase : ∀ sender ∈ s.senders, sender.phase.Sound
  dropped_eq : s.dropped = s.unreported.length

/-- Every reservation has its holder, and those of admitted lines are within the allowance. -/
structure Reserved (s : EventChannel) : Prop where
  queued_eq : s.queued = s.logs + tally (·.phase.granted) s.senders +
    tally (·.phase.overdrawn) s.senders + s.owing.toNat
  le : s.logs + tally (·.phase.granted) s.senders + s.owing.toNat ≤ maxQueuedLogLines

variable {s s' : EventChannel} {i : ℕ} {sender : Sender} {action : ChannelAction}

theorem sound_afterReport {event : ServiceEvent} (hlog : event.kind.isLog) (admitted : Bool) :
    (afterReport event admitted).Sound := by
  cases admitted
  · trivial
  · exact hlog

theorem Sound.advanced (hS : s.Sound) (hget : s.senders[i]? = some sender)
    (h : s.Advanced i sender s') : s'.Sound := by
  have hold := hS.phase sender (List.mem_of_getElem? hget)
  have hnew (b : Sender) (hb : b.phase.Sound) :
      ∀ sender ∈ s.senders.set i b, sender.phase.Sound := by
    intro sender hmem
    rcases List.mem_or_eq_of_mem_set hmem with hmem | rfl
    · exact hS.phase sender hmem
    · exact hb
  cases h with
  | passed | failed | enqueued => exact ⟨hnew _ trivial, hS.dropped_eq⟩
  | refused hphase hlog => exact ⟨hnew _ hlog, hS.dropped_eq⟩
  | admitted hphase hlog hroom hnext =>
    refine ⟨hnew _ ?_, hS.dropped_eq⟩
    rcases hnext with rfl | rfl <;> exact hlog
  | tookBack hphase =>
    rw [hphase] at hold
    exact ⟨hnew _ hold, hS.dropped_eq⟩
  | counted hphase hnext =>
    rw [hphase] at hold
    refine ⟨hnew _ ?_, by simp [goTo, hS.dropped_eq]⟩
    rcases hnext with rfl | rfl
    · exact hold
    · trivial
  | checked hphase hnext =>
    rw [hphase] at hold
    refine ⟨hnew _ ?_, hS.dropped_eq⟩
    rcases hnext with rfl | rfl <;> exact hold
  | foundNone hphase =>
    rw [hphase] at hold
    exact ⟨hnew _ (sound_afterReport hold _), rfl⟩
  | tookDrops hphase =>
    rw [hphase] at hold
    exact ⟨hnew _ ⟨hold, hS.dropped_eq⟩, rfl⟩
  | reported hphase =>
    rw [hphase] at hold
    exact ⟨hnew _ (sound_afterReport hold.1 _), hS.dropped_eq⟩

theorem tally_senders (hget : s.senders[i]? = some sender) (f : Sender → ℕ) :
    tally f s.senders = f sender + tally f (s.senders.eraseIdx i) := tally_eq_add hget

theorem tally_goTo (hget : s.senders[i]? = some sender) {t : EventChannel}
    (hsenders : t.senders = s.senders) (new : Sender) (phase : SendPhase) (f : Sender → ℕ) :
    tally f (t.goTo i new phase).senders =
      f { new with phase := phase } + tally f (s.senders.eraseIdx i) := by
  rw [← tally_set hget, ← hsenders]
  rfl

/-- A sender gets to another phase: what is reserved changes along with what holds reservations, and
the admitted lines do not get more, but for one as long as there is room. -/
theorem Reserved.goTo (hR : s.Reserved) (hget : s.senders[i]? = some sender) {t : EventChannel}
    {new : Sender} {phase : SendPhase} (hsenders : t.senders = s.senders)
    (howing : t.owing = s.owing)
    (hqueued : t.queued - s.queued = (t.logs + phase.granted + phase.overdrawn : ℤ) -
      (s.logs + sender.phase.granted + sender.phase.overdrawn))
    (hle : (t.logs + phase.granted : ℤ) ≤ s.logs + sender.phase.granted ∨
      (t.logs + phase.granted : ℤ) ≤ s.logs + sender.phase.granted + 1 ∧
        s.queued < maxQueuedLogLines) : (t.goTo i new phase).Reserved := by
  have hold := tally_senders hget
  have hnew := tally_goTo hget hsenders new phase
  have hlogs : (t.goTo i new phase).logs = t.logs := rfl
  have howing' : (t.goTo i new phase).owing = s.owing := howing
  have hq : (t.goTo i new phase).queued = t.queued := rfl
  obtain ⟨hqueued₀, hle₀⟩ := hR
  constructor <;> simp only [hold, hnew, hlogs, howing', hq] at * <;> omega

theorem Reserved.advanced (hR : s.Reserved) (hS : s.Sound) (hget : s.senders[i]? = some sender)
    (h : s.Advanced i sender s') : s'.Reserved := by
  have hold := hS.phase sender (List.mem_of_getElem? hget)
  cases h with
  | passed hphase hlog =>
    refine hR.goTo hget rfl rfl ?_ (.inl ?_) <;> simp [hphase, logs, Posted.own, hlog]
  | refused hphase => refine hR.goTo hget rfl rfl ?_ (.inl ?_) <;> simp [hphase, logs]
  | admitted hphase hlog hroom hnext =>
    rcases hnext with rfl | rfl
    · refine hR.goTo hget rfl rfl ?_ (.inr ⟨?_, hroom⟩) <;> simp [hphase, logs]
    · refine hR.goTo hget rfl rfl ?_ (.inr ⟨?_, hroom⟩) <;> simp [hphase, logs]
  | tookBack hphase | failed hphase | tookDrops hphase =>
    refine hR.goTo hget rfl rfl ?_ (.inl ?_) <;> simp [hphase, logs]
  | @foundNone _ admitted hphase =>
    refine hR.goTo hget rfl rfl ?_ (.inl ?_) <;> cases admitted <;> simp [hphase, logs]
  | counted hphase hnext | checked hphase hnext =>
    rcases hnext with rfl | rfl
    · refine hR.goTo hget rfl rfl ?_ (.inl ?_) <;> simp [hphase, logs]
    · refine hR.goTo hget rfl rfl ?_ (.inl ?_) <;> simp [hphase, logs]
  | @reported _ _ _ admitted hphase =>
    refine hR.goTo hget rfl rfl ?_ (.inl ?_) <;> cases admitted <;>
      simp [hphase, logs, Posted.drops]
  | enqueued hphase =>
    rw [hphase] at hold
    have hlog : (_ : EventKind).isLog = true := hold
    refine hR.goTo hget rfl rfl ?_ (.inl ?_) <;> simp [hphase, logs, Posted.own, hlog]

/-- The events of a sender that were put on the channel, in this order. -/
def postedBy (s : EventChannel) (i : ℕ) : List ServiceEvent :=
  (s.posted.filter fun p => p.sender = i ∧ p.report = none).map (·.event)

/-- What became of the events that a sender was asked to send: those on the channel are in the order
in which they were sent, and only log lines were refused. -/
structure Served (sender : Sender) (posted : List ServiceEvent) : Prop where
  sublist : (posted ++ sender.phase.inHand).Sublist sender.offered
  perm : sender.offered.Perm (posted ++ sender.phase.inHand ++ sender.refused)
  refused_log : ∀ event ∈ sender.refused, event.kind.isLog

theorem served_new : Served .new [] := ⟨.refl _, .refl _, by simp [Sender.new]⟩

/-- Nothing but the phase changes, and the event in hand stays there. -/
theorem Served.goTo {posted : List ServiceEvent} (h : Served sender posted) {phase : SendPhase}
    (hphase : phase.inHand = sender.phase.inHand) : Served { sender with phase := phase } posted := by
  refine ⟨?_, ?_, h.refused_log⟩ <;> simp only [hphase]
  · exact h.sublist
  · exact h.perm

/-- The event in hand is put on the channel. -/
theorem Served.enqueue {posted : List ServiceEvent} (h : Served sender posted)
    {event : ServiceEvent} (hphase : sender.phase.inHand = [event]) :
    Served { sender with phase := .idle } (posted ++ [event]) := by
  obtain ⟨hsublist, hperm, hlog⟩ := h
  rw [hphase] at hsublist hperm
  exact ⟨by simpa using hsublist, by simpa using hperm, hlog⟩

/-- The event in hand, a log line, is refused. -/
theorem Served.refuse {posted : List ServiceEvent} (h : Served sender posted)
    {event : ServiceEvent} (hphase : sender.phase = .called event) (hlog : event.kind.isLog) :
    Served ⟨.refusing event, sender.offered, sender.refused ++ [event]⟩ posted := by
  obtain ⟨hsublist, hperm, hrefused⟩ := h
  rw [hphase] at hsublist hperm
  refine ⟨?_, ?_, ?_⟩
  · simpa using (List.sublist_append_left posted [event]).trans hsublist
  · refine hperm.trans ?_
    simp only [SendPhase.inHand, List.append_nil, List.append_assoc]
    exact (List.perm_append_comm).append_left posted
  · intro e hmem
    rcases List.mem_append.mp hmem with hmem | hmem
    · exact hrefused e hmem
    · obtain rfl := List.mem_singleton.mp hmem
      exact hlog

/-- What is known of the events that were sent. -/
structure Accounted (s : EventChannel) : Prop where
  posted_lt : ∀ p ∈ s.posted, p.sender < s.senders.length
  served : ∀ i sender, s.senders[i]? = some sender → Served sender (s.postedBy i)

/-- One sender gets to another phase, and the channel may take something from it. -/
theorem Accounted.goTo (hA : s.Accounted) (hget : s.senders[i]? = some sender) {t : EventChannel}
    {new : Sender} {phase : SendPhase} {l : List Posted} (hsenders : t.senders = s.senders)
    (hposted : t.posted = s.posted ++ l) (hl : ∀ p ∈ l, p.sender = i)
    (hnew : Served { new with phase := phase }
      (s.postedBy i ++ (l.filter fun p => p.report = none).map (·.event))) :
    (t.goTo i new phase).Accounted := by
  obtain ⟨hi, -⟩ := List.getElem?_eq_some_iff.mp hget
  have hpostedBy (j : ℕ) : (t.goTo i new phase).postedBy j =
      s.postedBy j ++ (l.filter fun p => p.sender = j ∧ p.report = none).map (·.event) := by
    show (t.posted.filter _).map _ = _
    rw [hposted, List.filter_append, List.map_append]
    rfl
  constructor
  · intro p hmem
    have hmem : p ∈ s.posted ++ l := hposted ▸ hmem
    rw [show (t.goTo i new phase).senders.length = s.senders.length by
      simp [EventChannel.goTo, hsenders]]
    rcases List.mem_append.mp hmem with hmem | hmem
    · exact hA.posted_lt p hmem
    · rw [hl p hmem]
      exact hi
  · intro j sender' hget'
    rw [hpostedBy]
    by_cases hj : i = j
    · subst hj
      rw [show (t.goTo i new phase).senders = s.senders.set i { new with phase := phase } by
        simp [EventChannel.goTo, hsenders], List.getElem?_set_self hi] at hget'
      obtain rfl := Option.some.inj hget'
      have hfilter : (l.filter fun p => p.sender = i ∧ p.report = none) =
          l.filter fun p => p.report = none :=
        List.filter_congr fun p hp => by simp [hl p hp]
      rw [hfilter]
      exact hnew
    · rw [show (t.goTo i new phase).senders = s.senders.set i { new with phase := phase } by
        simp [EventChannel.goTo, hsenders], List.getElem?_set_ne hj] at hget'
      have hfilter : (l.filter fun p => p.sender = j ∧ p.report = none) = [] := by
        rw [List.filter_eq_nil_iff]
        intro p hp
        simp [hl p hp, hj]
      rw [hfilter]
      simpa using hA.served j sender' hget'

theorem Accounted.advanced (hA : s.Accounted) (hS : s.Sound) (hget : s.senders[i]? = some sender)
    (h : s.Advanced i sender s') : s'.Accounted := by
  have hsound := hS.phase sender (List.mem_of_getElem? hget)
  have hserved := hA.served i sender hget
  have hsame {phase : SendPhase} (hphase : phase.inHand = sender.phase.inHand) :
      Served { sender with phase := phase } (s.postedBy i ++ []) := by
    rw [List.append_nil]
    exact hserved.goTo hphase
  cases h with
  | @passed event hphase | @enqueued event hphase =>
    refine hA.goTo hget (l := [.own i event]) rfl (by simp [posted]) (by simp [Posted.own]) ?_
    have hnew : Served _ (s.postedBy i ++ [event]) := hserved.enqueue (by simp [hphase])
    exact hnew
  | refused hphase hlog =>
    refine hA.goTo hget (l := []) rfl (by simp [posted]) (by simp) ?_
    rw [List.filter_nil, List.map_nil, List.append_nil]
    exact hserved.refuse hphase hlog
  | admitted hphase hlog hroom hnext =>
    refine hA.goTo hget (l := []) rfl (by simp [posted]) (by simp) (hsame ?_)
    rcases hnext with rfl | rfl <;> simp [hphase]
  | tookBack hphase | tookDrops hphase =>
    exact hA.goTo hget (l := []) rfl (by simp [posted]) (by simp) (hsame (by simp [hphase]))
  | failed hphase =>
    rw [hphase] at hsound
    exact hsound.elim
  | counted hphase hnext | checked hphase hnext =>
    refine hA.goTo hget (l := []) rfl (by simp [posted]) (by simp) (hsame ?_)
    rcases hnext with rfl | rfl <;> simp [hphase]
  | @foundNone _ admitted hphase =>
    refine hA.goTo hget (l := []) rfl (by simp [posted]) (by simp) (hsame ?_)
    cases admitted <;> simp [hphase]
  | @reported event count lines admitted hphase =>
    refine hA.goTo hget (l := [.drops i event.service count lines]) rfl (by simp [posted])
      (by simp [Posted.drops]) ?_
    refine hsame ?_
    cases admitted <;> simp [hphase]

/-- The lines whose loss is reported on the channel, or is still to be reported, by weight. -/
def lost (s : EventChannel) (w : ServiceName → ℕ) : ℕ :=
  tally (fun p => tally w (p.report.getD [])) s.posted + tally w s.unreported

/-- Every line that was refused is counted once: by a report on the channel, by the drop counter, or
by a `send` under way. -/
def Counted (s : EventChannel) : Prop :=
  ∀ w : ServiceName → ℕ, tally (fun sender => tally (fun event => w event.service) sender.refused)
    s.senders = s.lost w + tally (fun sender => tally w sender.phase.pending) s.senders

/-- A sender gets to another phase, and what it refused is counted elsewhere. -/
theorem Counted.goTo (hC : s.Counted) (hget : s.senders[i]? = some sender) {t : EventChannel}
    {new : Sender} {phase : SendPhase} (hsenders : t.senders = s.senders)
    (hlost : ∀ w : ServiceName → ℕ, tally (fun event => w event.service) new.refused +
      (s.lost w + tally w sender.phase.pending) =
        tally (fun event => w event.service) sender.refused +
          (t.lost w + tally w phase.pending)) : (t.goTo i new phase).Counted := by
  intro w
  have heq := hC w
  have hw := hlost w
  have hsame : (t.goTo i new phase).lost w = t.lost w := rfl
  simp only [tally_senders hget, tally_goTo hget hsenders, hsame] at heq ⊢
  omega

theorem Counted.advanced (hC : s.Counted) (hS : s.Sound) (hget : s.senders[i]? = some sender)
    (h : s.Advanced i sender s') : s'.Counted := by
  cases h with
  | passed hphase | enqueued hphase | failed hphase =>
    refine hC.goTo hget rfl fun w => ?_
    simp [lost, posted, hphase, Posted.own]
  | refused hphase =>
    refine hC.goTo hget rfl fun w => ?_
    simp only [lost, posted, hphase, SendPhase.pending, tally_append, tally_cons, tally_nil]
    omega
  | admitted hphase hlog hroom hnext =>
    refine hC.goTo hget rfl fun w => ?_
    rcases hnext with rfl | rfl <;> simp [lost, posted, hphase]
  | tookBack hphase =>
    refine hC.goTo hget rfl fun w => ?_
    simp [lost, posted, hphase]
  | counted hphase hnext =>
    refine hC.goTo hget rfl fun w => ?_
    rcases hnext with rfl | rfl <;> simp [lost, posted, hphase, Nat.add_assoc]
  | checked hphase hnext =>
    refine hC.goTo hget rfl fun w => ?_
    rcases hnext with rfl | rfl <;> simp [lost, posted, hphase]
  | @foundNone _ admitted hphase hnone =>
    refine hC.goTo hget rfl fun w => ?_
    have hnil : s.unreported = [] := by
      rw [← List.length_eq_zero_iff, ← hS.dropped_eq, hnone]
    cases admitted <;> simp [lost, posted, hphase, hnil]
  | tookDrops hphase =>
    refine hC.goTo hget rfl fun w => ?_
    simp [lost, posted, hphase]
  | @reported _ _ _ admitted hphase =>
    refine hC.goTo hget rfl fun w => ?_
    cases admitted <;> simp [lost, posted, hphase, Posted.drops] <;> omega

/-- Every report says how many lines it counts. -/
def ReportsCount (s : EventChannel) : Prop :=
  ∀ p ∈ s.posted, ∀ lines ∈ p.report, p.event.kind = .logLinesDropped lines.length

theorem ReportsCount.append {t : EventChannel} (h : s.ReportsCount) {p : Posted}
    (hposted : t.posted = s.posted ++ [p])
    (hp : ∀ lines ∈ p.report, p.event.kind = .logLinesDropped lines.length) : t.ReportsCount := by
  intro q hmem
  rw [hposted] at hmem
  rcases List.mem_append.mp hmem with hmem | hmem
  · exact h q hmem
  · obtain rfl := List.mem_singleton.mp hmem
    exact hp

theorem ReportsCount.advanced (h : s.ReportsCount) (hS : s.Sound)
    (hget : s.senders[i]? = some sender) (hadvanced : s.Advanced i sender s') :
    s'.ReportsCount := by
  have hsound := hS.phase sender (List.mem_of_getElem? hget)
  cases hadvanced with
  | @passed event | @enqueued event =>
    refine h.append (p := .own i event) (by simp [posted, goTo]) ?_
    simp [Posted.own]
  | @reported event count lines admitted hphase =>
    rw [hphase] at hsound
    refine h.append (p := .drops i event.service count lines) (by simp [posted, goTo]) ?_
    rintro lines' hlines
    obtain rfl : lines = lines' := Option.some.inj hlines
    exact congrArg EventKind.logLinesDropped hsound.2
  | _ => exact h

/-- The invariant, as long as the receiver lives. -/
structure Kept (s : EventChannel) : Prop where
  sound : s.Sound
  reserved : s.Reserved
  accounted : s.Accounted
  counted : s.Counted
  reports : s.ReportsCount

theorem kept_new : new.Kept where
  sound := ⟨by simp [new, Sender.new, SendPhase.Sound], rfl⟩
  reserved := ⟨by simp [new, Sender.new, logs, SendPhase.granted, SendPhase.overdrawn],
    by simp [new, Sender.new, logs, SendPhase.granted, maxQueuedLogLines]⟩
  accounted := by
    refine ⟨by simp [posted, new], fun i sender hget => ?_⟩
    obtain rfl : sender = .new := by
      have hmem := List.mem_of_getElem? hget
      simpa [new] using hmem
    exact served_new
  counted w := by simp [new, Sender.new, lost, posted, SendPhase.pending]
  reports := by simp [ReportsCount, posted, new]

/-- A sender is asked to send an event. -/
theorem Served.offer {posted : List ServiceEvent} (h : Served sender posted)
    (hidle : sender.phase = .idle) (event : ServiceEvent) :
    Served ⟨.called event, sender.offered ++ [event], sender.refused⟩ posted := by
  obtain ⟨hsublist, hperm, hlog⟩ := h
  rw [hidle] at hsublist hperm
  simp only [SendPhase.inHand, List.append_nil] at hsublist hperm
  refine ⟨hsublist.append (.refl [event]), ?_, hlog⟩
  refine (hperm.append_right [event]).trans ?_
  simp only [SendPhase.inHand, List.append_assoc]
  exact (List.perm_append_comm).append_left posted

/-- A sender that is not sending is called, or dropped: nothing is reserved, put on the channel or
refused. -/
theorem Kept.goTo (hK : s.Kept) (hget : s.senders[i]? = some sender)
    (hidle : sender.phase = .idle) {offered : List ServiceEvent} {phase : SendPhase}
    (hphase : phase = .gone ∨ ∃ event, phase = .called event)
    (hserved : Served ⟨phase, offered, sender.refused⟩ (s.postedBy i)) :
    (s.goTo i { sender with offered := offered } phase).Kept := by
  refine ⟨⟨fun other hmem => ?_, hK.sound.dropped_eq⟩, ?_, ?_, ?_, hK.reports⟩
  · rcases List.mem_or_eq_of_mem_set hmem with hmem | rfl
    · exact hK.sound.phase other hmem
    · rcases hphase with rfl | ⟨event, rfl⟩ <;> trivial
  · refine hK.reserved.goTo hget rfl rfl ?_ (.inl ?_) <;>
      rcases hphase with rfl | ⟨event, rfl⟩ <;> simp [hidle]
  · refine hK.accounted.goTo hget (l := []) rfl (by simp) (by simp) ?_
    simpa using hserved
  · refine hK.counted.goTo hget rfl fun w => ?_
    rcases hphase with rfl | ⟨event, rfl⟩ <;> simp [hidle]

theorem Kept.clone (hK : s.Kept) : Kept { s with senders := s.senders ++ [.new] } where
  sound := by
    refine ⟨fun sender hmem => ?_, hK.sound.dropped_eq⟩
    rcases List.mem_append.mp hmem with hmem | hmem
    · exact hK.sound.phase sender hmem
    · obtain rfl := List.mem_singleton.mp hmem
      trivial
  reserved := by
    obtain ⟨hqueued, hle⟩ := hK.reserved
    exact ⟨by simpa [logs, Sender.new] using hqueued, by simpa [logs, Sender.new] using hle⟩
  accounted := by
    refine ⟨fun p hmem => ?_, fun j sender hget => ?_⟩
    · have hlt := hK.accounted.posted_lt p hmem
      simp only [List.length_append, List.length_singleton]
      omega
    · show Served sender (s.postedBy j)
      rcases lt_or_ge j s.senders.length with hj | hj
      · rw [List.getElem?_append_left hj] at hget
        exact hK.accounted.served j sender hget
      · -- Nobody but the new sender has this position, and it has sent nothing.
        have hnil : s.postedBy j = [] := by
          rw [postedBy, List.map_eq_nil_iff, List.filter_eq_nil_iff]
          intro p hmem
          have hlt := hK.accounted.posted_lt p hmem
          have hne : p.sender ≠ j := by omega
          simp [hne]
        rw [List.getElem?_append_right hj] at hget
        obtain rfl := List.mem_singleton.mp (List.mem_of_getElem? hget)
        rw [hnil]
        exact served_new
  counted w := by simpa [Sender.new, lost, posted] using hK.counted w
  reports := hK.reports

theorem Kept.receive (hK : s.Kept) {p : Posted} {rest : List Posted}
    (hchannel : s.channel = p :: rest) (howing : s.owing = false) :
    Kept { s with
      channel := rest
      received := s.received ++ [p]
      owing := p.event.kind.isLog } := by
  have hposted : s.posted = (s.received ++ [p]) ++ rest := by simp [posted, hchannel]
  have hpostedBy (j : ℕ) : s.postedBy j =
      (((s.received ++ [p]) ++ rest).filter fun p => p.sender = j ∧ p.report = none).map
        (·.event) := by rw [postedBy, hposted]
  obtain ⟨hqueued, hle⟩ := hK.reserved
  have hlogs : s.logs = (rest.countP fun p => p.event.kind.isLog) + p.event.kind.isLog.toNat := by
    rw [logs, hchannel, List.countP_cons]
    cases p.event.kind.isLog <;> rfl
  simp only [hlogs, howing] at hqueued hle
  refine ⟨⟨hK.sound.phase, hK.sound.dropped_eq⟩, ⟨?_, ?_⟩, ⟨?_, ?_⟩, fun w => ?_, ?_⟩
  · simp only [logs] at *
    simp at hqueued ⊢
    omega
  · simp [logs] at hle ⊢
    omega
  · intro q hmem
    exact hK.accounted.posted_lt q (hposted ▸ hmem)
  · intro j sender hget
    have hserved := hK.accounted.served j sender hget
    rw [hpostedBy] at hserved
    exact hserved
  · have heq := hK.counted w
    rw [lost, hposted] at heq
    exact heq
  · intro q hmem
    exact hK.reports q (hposted ▸ hmem)

theorem Kept.stepped (hK : s.Kept) (h : s.Stepped action s') : s'.Kept := by
  cases h with
  | clone => exact hK.clone
  | send hget hidle =>
    refine hK.goTo hget hidle (.inr ⟨_, rfl⟩) ?_
    exact (hK.accounted.served _ _ hget).offer hidle _
  | advance hget h =>
    exact ⟨hK.sound.advanced hget h, hK.reserved.advanced hK.sound hget h,
      hK.accounted.advanced hK.sound hget h, hK.counted.advanced hK.sound hget h,
      hK.reports.advanced hK.sound hget h⟩
  | drop hget hidle =>
    refine hK.goTo hget hidle (.inl rfl) ?_
    exact (hK.accounted.served _ _ hget).goTo (by simp [hidle])
  | receive hchannel howing => exact hK.receive hchannel howing
  | release howing =>
    obtain ⟨hqueued, hle⟩ := hK.reserved
    refine ⟨⟨hK.sound.phase, hK.sound.dropped_eq⟩, ⟨?_, ?_⟩,
      ⟨hK.accounted.posted_lt, hK.accounted.served⟩, hK.counted, hK.reports⟩
    · simp [howing, logs] at hqueued ⊢
      omega
    · simp [howing, logs] at hle ⊢
      omega

theorem kept_of_reachable {C : EventChannel → ChannelAction → EventChannel → Prop}
    (h : channelSystem.Reachable C s) (hopen : s.isOpen) : s.Kept := by
  refine h.invariant (I := fun s => s.isOpen → s.Kept) ?_ ?_ hopen
  · rintro s₀ rfl -
    exact kept_new
  · intro u action v _ hK _ hstep hopen
    obtain ⟨hopen, hstepped⟩ := stepped_of_step hstep hopen
    exact (hK hopen).stepped hstepped

/-! ### The receiver drains the channel -/

theorem run_receive (hopen : s.isOpen) (howing : s.owing = false) {p : Posted} {rest : List Posted}
    (hchannel : s.channel = p :: rest) :
    channelSystem.step s .receive =
      some { s with
        channel := rest
        received := s.received ++ [p]
        owing := p.event.kind.isLog } := by
  show (if _ then _ else _) = _
  rw [if_pos ⟨hopen, howing⟩, hchannel]

/-- A receiver that lives can take, by itself, everything that was put on the channel. -/
theorem exists_drain {l : List Posted} : ∀ {s : EventChannel}, s.isOpen → s.owing = false →
    s.channel = l → ∃ actions t, (∀ a ∈ actions, a = .receive ∨ a = .release) ∧
      channelSystem.run s actions = some t ∧ t.received = s.received ++ l ∧ t.channel = [] ∧
        t.senders = s.senders ∧ t.isOpen := by
  induction l with
  | nil =>
    intro s hopen _ hchannel
    exact ⟨[], s, by simp, rfl, by simp, hchannel, rfl, hopen⟩
  | cons p rest ih =>
    intro s hopen howing hchannel
    have hreceive := run_receive hopen howing hchannel
    rcases hlog : p.event.kind.isLog
    · obtain ⟨actions, t, hactions, hrun, hreceived, hempty, hsenders, hopen⟩ :=
        ih (s := { s with channel := rest, received := s.received ++ [p], owing := false })
          hopen rfl rfl
      rw [hlog] at hreceive
      refine ⟨.receive :: actions, t, ?_, ?_, by simp [hreceived], hempty, hsenders, hopen⟩
      · simpa using hactions
      · rw [TransitionSystem.run_cons, hreceive]
        exact hrun
    · obtain ⟨actions, t, hactions, hrun, hreceived, hempty, hsenders, hopen⟩ :=
        ih (s := { s with
          queued := s.queued - 1
          channel := rest
          received := s.received ++ [p]
          owing := false }) hopen rfl rfl
      rw [hlog] at hreceive
      refine ⟨.receive :: .release :: actions, t, ?_, ?_, by simp [hreceived], hempty, hsenders, hopen⟩
      · simpa using hactions
      · rw [TransitionSystem.run_cons, hreceive]
        exact hrun

/-! ### The bound -/

/-- The events of a sender that the receiver was given, in this order. -/
def receivedBy (s : EventChannel) (i : ℕ) : List ServiceEvent :=
  (s.received.filter fun p => p.sender = i ∧ p.report = none).map (·.event)

/-- How the senders and the receiver fare, as long as the receiver lives: the queue is bounded and
its counter does not underflow; what a sender sends is put on the channel in this order, but for log
lines that are refused, and the receiver gets what is on the channel, in this order; the lines
refused are those that were reported and those of the drop counter. -/
structure Bounded (s : EventChannel) : Prop where
  logs_le : (s.logs : ℤ) ≤ maxQueuedLogLines
  queued_nonneg : 0 ≤ s.queued
  fate : ∀ (i : ℕ) (sender : Sender), s.senders[i]? = some sender →
    sender.offered.Perm (s.postedBy i ++ sender.phase.inHand ++ sender.refused) ∧
      ∀ event ∈ sender.refused, event.kind.isLog
  delivered : ∀ (i : ℕ) (sender : Sender), s.senders[i]? = some sender → sender.phase.inHand = [] →
    (s.postedBy i).filter (fun event => !event.kind.isLog) =
      sender.offered.filter fun event => !event.kind.isLog
  ordered : ∀ (i : ℕ) (sender : Sender), s.senders[i]? = some sender →
    (s.receivedBy i).Sublist sender.offered
  drains : ∃ actions t, (∀ a ∈ actions, a = .receive ∨ a = .release) ∧
    channelSystem.run s actions = some t ∧ t.received = s.posted ∧ t.channel = []
  counted : (∀ sender ∈ s.senders, sender.phase = .idle ∨ sender.phase = .gone) →
    tally (·.refused.length) s.senders = tally Posted.count s.posted + s.dropped

/-- What was sent and is neither in hand nor a log line is on the channel. -/
theorem Served.delivered {posted : List ServiceEvent} (h : Served sender posted)
    (hhand : sender.phase.inHand = []) :
    posted.filter (fun event => !event.kind.isLog) =
      sender.offered.filter fun event => !event.kind.isLog := by
  obtain ⟨hsublist, hperm, hlog⟩ := h
  simp only [hhand, List.append_nil] at hsublist hperm
  have hnone : sender.refused.filter (fun event => !event.kind.isLog) = [] := by
    rw [List.filter_eq_nil_iff]
    intro event hmem
    simp [hlog event hmem]
  have hlength := (hperm.filter fun event => !event.kind.isLog).length_eq
  rw [List.filter_append, hnone, List.append_nil] at hlength
  exact (hsublist.filter _).eq_of_length hlength.symm

theorem Kept.drains (hopen : s.isOpen) :
    ∃ actions t, (∀ a ∈ actions, a = .receive ∨ a = .release) ∧
      channelSystem.run s actions = some t ∧ t.received = s.posted ∧ t.channel = [] := by
  rcases howing : s.owing
  · obtain ⟨actions, t, hactions, hrun, hreceived, hempty, -⟩ := exists_drain hopen howing rfl
    exact ⟨actions, t, hactions, hrun, hreceived, hempty⟩
  · obtain ⟨actions, t, hactions, hrun, hreceived, hempty, -⟩ :=
      exists_drain (s := { s with queued := s.queued - 1, owing := false }) hopen rfl rfl
    refine ⟨.release :: actions, t, by simpa using hactions, ?_, hreceived, hempty⟩
    have hrelease : channelSystem.step s .release =
        some { s with queued := s.queued - 1, owing := false } := if_pos howing
    rw [TransitionSystem.run_cons, hrelease]
    exact hrun

theorem Kept.counted_eq (hK : s.Kept)
    (hquiet : ∀ sender ∈ s.senders, sender.phase = .idle ∨ sender.phase = .gone) :
    tally (·.refused.length) s.senders = tally Posted.count s.posted + s.dropped := by
  have heq := hK.counted fun _ => 1
  have hpending : tally (fun sender => tally (fun _ => 1) sender.phase.pending) s.senders = 0 := by
    refine tally_eq_zero fun sender hmem => ?_
    rcases hquiet sender hmem with h | h <;> simp [h]
  have hcount : tally (fun p => tally (fun _ => 1) (p.report.getD [])) s.posted =
      tally Posted.count s.posted := by
    refine tally_congr fun p hmem => ?_
    rcases hreport : p.report with _ | lines
    · simp [Posted.count, hreport]
    · simp [Posted.count, hreport, hK.reports p hmem lines hreport, tally_one]
  rw [hpending, lost, hcount, tally_one, ← hK.sound.dropped_eq] at heq
  simpa only [tally_one, Nat.add_zero] using heq

/-- **The event queue is bounded, and no loss is uncounted**, in every state of every run in which
the receiver lives. -/
theorem bounded_of_reachable (h : channelSystem.Reachable AnyStep s) (hopen : s.isOpen) :
    s.Bounded := by
  have hK := kept_of_reachable h hopen
  have hreserved := hK.reserved
  refine ⟨?_, ?_, fun i sender hget => ?_, fun i sender hget => ?_, fun i sender hget => ?_,
    Kept.drains hopen, hK.counted_eq⟩
  · have hle := hreserved.le
    omega
  · have heq := hreserved.queued_eq
    omega
  · have hserved := hK.accounted.served i sender hget
    exact ⟨hserved.perm, hserved.refused_log⟩
  · exact (hK.accounted.served i sender hget).delivered
  · have hserved := hK.accounted.served i sender hget
    have hreceived : (s.receivedBy i).Sublist (s.postedBy i) := by
      rw [receivedBy, postedBy, posted, List.filter_append, List.map_append]
      exact List.sublist_append_left _ _
    exact hreceived.trans ((List.sublist_append_left _ _).trans hserved.sublist)

/-- A line and a change of state are sent, and received. -/
def sendTwo : List ChannelAction :=
  [.send 0 ⟨⟨"db"⟩, .log .stdout "ready"⟩, .advance 0, .advance 0, .advance 0,
    .send 0 ⟨⟨"db"⟩, .state .running⟩, .advance 0, .receive, .release, .receive]

theorem bounded_sendTwo :
    ∃ s, channelSystem.run new sendTwo = some s ∧ s.received.length = 2 ∧ s.Bounded := by
  have hrun : (channelSystem.run new sendTwo).map (fun s =>
      decide (s.received.length = 2 ∧ s.isOpen)) = some true := by decide +kernel
  obtain ⟨s, hs, hfacts⟩ := Option.map_eq_some_iff.mp hrun
  obtain ⟨hlength, hopen⟩ := of_decide_eq_true hfacts
  exact ⟨s, hs, hlength, bounded_of_reachable ⟨_, rfl, TransitionSystem.steps_of_run hs⟩ hopen⟩

end EventChannel

end Servicrab
