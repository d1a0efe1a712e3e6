import Servicrab.Events.Reports

/-!
# Whose losses are reported

The drop counter is shared by all senders of a channel, and it is swapped for zero, and reported
under its own name, by whichever sender comes by. When each swap finds lines of the sender's own
service only, the lines of each service that were delivered and those that were reported as dropped
add up to the lines sent, unless nothing came after the last line that was refused: neither a line
for which much of the allowance is free again, nor a report that was due already.

## Main definitions

* `EventChannel.linesSent`, `EventChannel.linesDelivered`, `EventChannel.linesReported`.
* `EventChannel.Drained`, `EventChannel.SendsLogs`, `EventChannel.Attributed`.
* `EventChannel.lossMarks`: what a run does to the drop counter, step by step.

## Main results

* `EventChannel.lines_add_up_iff`.
-/

open TransitionSystem (AnyStep)

namespace Servicrab

/-- The number of lines of a service that a report says were dropped. -/
def Posted.countFor (p : Posted) (service : ServiceName) : ℕ :=
  match p.event.kind with
  | .logLinesDropped count => if p.event.service = service then count else 0
  | _ => 0

/-- Whether the event is a log line of the service. -/
def ServiceEvent.IsLineOf (event : ServiceEvent) (service : ServiceName) : Prop :=
  event.kind.isLog ∧ event.service = service

instance (event : ServiceEvent) (service : ServiceName) : Decidable (event.IsLineOf service) :=
  inferInstanceAs (Decidable (_ ∧ _))

namespace EventChannel

variable (s : EventChannel)

/-- The number of log lines of a service that were sent. -/
def linesSent (service : ServiceName) : ℕ :=
  tally (fun sender => sender.offered.countP fun event => event.IsLineOf service) s.senders

/-- The number of log lines of a service that the receiver was given. -/
def linesDelivered (service : ServiceName) : ℕ :=
  s.received.countP fun p => p.event.IsLineOf service

/-- The number of lines that the receiver was told were dropped, in the name of a service. -/
def linesReported (service : ServiceName) : ℕ := tally (·.countFor service) s.received

/-- All senders are gone, and a receiver that has lived throughout has drained the channel. -/
structure Drained : Prop where
  isOpen : s.isOpen
  gone : ∀ sender ∈ s.senders, sender.phase = .gone
  channel_eq : s.channel = []

/-- What a step of a sender does to the drop counter, or may do. -/
inductive LossMark
  /-- A line that was refused is counted. -/
  | refused
  /-- A line was sent while more than half of the allowance was free: the counter is read. -/
  | letUp
  /-- The counter is swapped for zero. -/
  | reported
  deriving DecidableEq

/-- What the next step does to the drop counter. -/
def lossMarks (s : EventChannel) : ChannelAction → List LossMark
  | .advance i =>
    match s.senders[i]?.map Sender.phase with
    | some (.dropping _) => [.refused]
    | some (.checking _) => [.letUp]
    | some (.swapping _ _) => [.reported]
    | _ => []
  | _ => []

/-- Only log lines are sent. -/
def SendsLogs (_ : EventChannel) (action : ChannelAction) (_ : EventChannel) : Prop :=
  ∀ i event, action = .send i event → event.kind.isLog

/-- A sender that is about to swap the drop counter for zero finds lines of its own service only. -/
def Attributed (s : EventChannel) (action : ChannelAction) (_ : EventChannel) : Prop :=
  ∀ (i : ℕ) (sender : Sender) (event : ServiceEvent) (admitted : Bool), action = .advance i →
    s.senders[i]? = some sender → sender.phase = .swapping event admitted →
      ∀ line ∈ s.unreported, line = event.service

/-- The steps of a run in which log lines are sent, and each swap finds lines of one service. -/
def SendsAttributed (s : EventChannel) (action : ChannelAction) (s' : EventChannel) : Prop :=
  s.SendsLogs action s' ∧ s.Attributed action s'

variable {s} {s' : EventChannel} {action : ChannelAction} {i : ℕ} {sender : Sender}

/-- The sender that a step is about, if it is still there, is asked to send log lines only. -/
theorem offered_isLog {C : EventChannel → ChannelAction → EventChannel → Prop}
    (hC : ∀ s a s', C s a s' → s.SendsLogs a s') (h : channelSystem.Reachable C s)
    (hopen : s.isOpen) : ∀ sender ∈ s.senders, ∀ event ∈ sender.offered, event.kind.isLog := by
  refine h.invariant (I := fun s => s.isOpen → ∀ sender ∈ s.senders, ∀ event ∈ sender.offered,
    event.kind.isLog) ?_ ?_ hopen
  · rintro s₀ rfl -
    simp [new, Sender.new]
  · intro u action v _ ih hguard hstep hopen
    obtain ⟨hopen, hstepped⟩ := stepped_of_step hstep hopen
    have hold := ih hopen
    have hset {j : ℕ} {b : Sender} (hb : ∀ event ∈ b.offered, event.kind.isLog) :
        ∀ sender ∈ u.senders.set j b, ∀ event ∈ sender.offered, event.kind.isLog := by
      intro sender hmem
      rcases List.mem_or_eq_of_mem_set hmem with hmem | rfl
      · exact hold sender hmem
      · exact hb
    cases hstepped with
    | clone =>
      intro sender hmem
      rcases List.mem_append.mp hmem with hmem | hmem
      · exact hold sender hmem
      · obtain rfl := List.mem_singleton.mp hmem
        simp [Sender.new]
    | @send j event sender hget =>
      refine hset fun e hmem => ?_
      rcases List.mem_append.mp hmem with hmem | hmem
      · exact hold sender (List.mem_of_getElem? hget) e hmem
      · obtain rfl := List.mem_singleton.mp hmem
        exact hC _ _ _ hguard j e rfl
    | advance hget hadvanced =>
      have hoffered := hold _ (List.mem_of_getElem? hget)
      cases hadvanced <;> exact hset hoffered
    | drop hget =>
      have hoffered := hold _ (List.mem_of_getElem? hget)
      exact hset hoffered
    | receive | release => exact hold

/-- The reports on the channel, and those about to be put there, count lines of the service they
name. -/
structure Named (s : EventChannel) : Prop where
  posted : ∀ p ∈ s.posted, ∀ lines ∈ p.report, ∀ line ∈ lines, line = p.event.service
  publishing : ∀ sender ∈ s.senders, ∀ event count lines admitted,
    sender.phase = .publishing event count lines admitted → ∀ line ∈ lines, line = event.service

theorem Named.goTo (hN : s.Named) {t : EventChannel} {new : Sender} {phase : SendPhase}
    (hsenders : t.senders = s.senders) (hposted : t.posted = s.posted)
    (hphase : ∀ event count lines admitted, phase = .publishing event count lines admitted →
      ∀ line ∈ lines, line = event.service) : (t.goTo i new phase).Named := by
  refine ⟨fun p hmem => hN.posted p (hposted ▸ hmem), fun other hmem => ?_⟩
  rcases List.mem_or_eq_of_mem_set hmem with hmem | rfl
  · exact hN.publishing other (hsenders ▸ hmem)
  · exact hphase

/-- One more event on the channel, from a sender that has nothing to publish any more. -/
theorem Named.push (hN : s.Named) {p : Posted} {new : Sender} {phase : SendPhase}
    (hp : ∀ lines ∈ p.report, ∀ line ∈ lines, line = p.event.service)
    (hphase : ∀ event count lines admitted, phase ≠ .publishing event count lines admitted) :
    ({ s with channel := s.channel ++ [p] }.goTo i new phase).Named := by
  refine ⟨fun q hmem => ?_, fun other hmem => ?_⟩
  · have hmem : q ∈ s.posted ++ [p] := by simpa [EventChannel.posted, EventChannel.goTo] using hmem
    rcases List.mem_append.mp hmem with hmem | hmem
    · exact hN.posted q hmem
    · obtain rfl := List.mem_singleton.mp hmem
      exact hp
  · rcases List.mem_or_eq_of_mem_set hmem with hmem | rfl
    · exact hN.publishing other hmem
    · exact fun event count lines admitted heq => absurd heq (hphase _ _ _ _)

theorem Named.advanced (hN : s.Named) (hget : s.senders[i]? = some sender)
    (hattributed : s.Attributed (.advance i) s') (h : s.Advanced i sender s') : s'.Named := by
  cases h with
  | passed | enqueued => exact hN.push (by simp [Posted.own]) (by simp)
  | refused | tookBack | failed => exact hN.goTo rfl rfl (by simp)
  | admitted _ _ _ hnext | counted _ hnext | checked _ hnext =>
    refine hN.goTo rfl rfl ?_
    rcases hnext with rfl | rfl <;> simp
  | @foundNone _ admitted =>
    refine hN.goTo rfl rfl ?_
    cases admitted <;> simp
  | tookDrops hphase =>
    refine hN.goTo rfl rfl ?_
    rintro event count lines admitted heq
    cases heq
    exact hattributed i sender _ _ rfl hget hphase
  | @reported event count lines admitted hphase =>
    refine hN.push ?_ (by cases admitted <;> simp)
    rintro lines' hlines
    obtain rfl : lines = lines' := Option.some.inj hlines
    have hlines := hN.publishing sender (List.mem_of_getElem? hget) event count lines admitted hphase
    exact hlines

theorem named_of_reachable (h : channelSystem.Reachable SendsAttributed s) (hopen : s.isOpen) :
    s.Named := by
  refine h.invariant (I := fun s => s.isOpen → s.Named) ?_ ?_ hopen
  · rintro s₀ rfl -
    exact ⟨by simp [EventChannel.posted, new], by simp [new, Sender.new]⟩
  · intro u action v _ hN hguard hstep hopen
    obtain ⟨hopen, hstepped⟩ := stepped_of_step hstep hopen
    have hN := hN hopen
    cases hstepped with
    | clone =>
      refine ⟨hN.posted, fun sender hmem => ?_⟩
      rcases List.mem_append.mp hmem with hmem | hmem
      · exact hN.publishing sender hmem
      · obtain rfl := List.mem_singleton.mp hmem
        simp [Sender.new]
    | send | drop => exact hN.goTo rfl rfl (by simp)
    | advance hget hadvanced => exact hN.advanced hget hguard.2 hadvanced
    | receive hchannel =>
      refine ⟨fun p hmem => hN.posted p ?_, hN.publishing⟩
      simpa [EventChannel.posted, hchannel] using hmem
    | release => exact ⟨hN.posted, hN.publishing⟩

/-! ### The sums -/

/-- What was sent is what was put on the channel and what was refused, once no sender has an event in
hand, by any weight. -/
theorem Accounted.tally_offered (hA : s.Accounted)
    (hhand : ∀ sender ∈ s.senders, sender.phase.inHand = []) (w : ServiceEvent → ℕ) :
    tally (fun sender => tally w sender.offered) s.senders =
      tally w ((s.posted.filter (·.report = none)).map (·.event)) +
        tally (fun sender => tally w sender.refused) s.senders := by
  have hown : ∀ p ∈ s.posted.filter (·.report = none), p.sender < s.senders.length :=
    fun p hmem => hA.posted_lt p (List.mem_filter.mp hmem).1
  have hposition : ∀ i ∈ Finset.range s.senders.length,
      s.senders[i]?.elim 0 (fun sender => tally w sender.offered) =
        tally (w ∘ Posted.event)
            ((s.posted.filter (·.report = none)).filter (Posted.sender · = i)) +
          s.senders[i]?.elim 0 fun sender => tally w sender.refused := by
    intro i hi
    have hget := List.getElem?_eq_getElem (Finset.mem_range.mp hi)
    have hserved := hA.served i _ hget
    have hperm := hserved.perm
    rw [hhand _ (List.mem_of_getElem? hget), List.append_nil] at hperm
    rw [hget, Option.elim_some, Option.elim_some, tally_perm hperm, tally_append, postedBy,
      tally_map, List.filter_filter]
    simp only [Bool.decide_and]
  rw [tally_eq_sum_range, Finset.sum_congr rfl hposition, Finset.sum_add_distrib,
    sum_tally_filter hown, ← tally_eq_sum_range, tally_map]

/-- Each line that was sent is delivered or refused. -/
theorem Kept.linesSent_eq (hK : s.Kept) (hdrained : s.Drained) (service : ServiceName) :
    s.linesSent service = s.linesDelivered service +
      tally (fun sender => tally (fun event => if event.service = service then 1 else 0)
        sender.refused) s.senders := by
  have hhand : ∀ sender ∈ s.senders, sender.phase.inHand = [] := by
    intro sender hmem
    rw [hdrained.gone sender hmem]
    rfl
  have heq := hK.accounted.tally_offered hhand fun event => if event.IsLineOf service then 1 else 0
  have hsent : tally (fun sender => tally (fun event => if event.IsLineOf service then 1 else 0)
      sender.offered) s.senders = s.linesSent service :=
    tally_congr fun sender _ => tally_ite _ _
  have hdelivered : tally (fun event => if event.IsLineOf service then 1 else 0)
      ((s.posted.filter (·.report = none)).map (·.event)) = s.linesDelivered service := by
    rw [tally_ite, List.countP_map, List.countP_filter, linesDelivered, EventChannel.posted,
      hdrained.channel_eq, List.append_nil]
    refine List.countP_congr fun p hmem => ?_
    have hreport : p.event.IsLineOf service → p.report = none := by
      rintro ⟨hlog, -⟩
      rcases hreport : p.report with _ | lines
      · rfl
      · have hposted : p ∈ s.posted := List.mem_append_left _ hmem
        rw [hK.reports p hposted lines hreport] at hlog
        cases hlog
    simpa using hreport
  have hrefused : tally (fun sender => tally (fun event => if event.IsLineOf service then 1 else 0)
      sender.refused) s.senders =
        tally (fun sender => tally (fun event => if event.service = service then 1 else 0)
          sender.refused) s.senders := by
    refine tally_congr fun sender hmem => tally_congr fun event hevent => ?_
    obtain ⟨i, hget⟩ := List.mem_iff_getElem?.mp hmem
    have hlog := (hK.accounted.served i sender hget).refused_log event hevent
    simp [ServiceEvent.IsLineOf, hlog]
  rw [← hsent, heq, hdelivered, hrefused]

/-- A report counts the lines of the service it names, and nothing else reports any. -/
theorem countFor_eq (hK : s.Kept) (hN : s.Named)
    (hlogs : ∀ sender ∈ s.senders, ∀ event ∈ sender.offered, event.kind.isLog)
    (service : ServiceName) : ∀ p ∈ s.posted, p.countFor service =
      tally (fun line => if line = service then 1 else 0) (p.report.getD []) := by
  intro p hmem
  rcases hreport : p.report with _ | lines
  · -- It is an event of its sender, which was asked to send log lines only.
    have hlog : p.event.kind.isLog := by
      have hget := List.getElem?_eq_getElem (hK.accounted.posted_lt p hmem)
      have hserved := hK.accounted.served p.sender _ hget
      refine hlogs _ (List.mem_of_getElem? hget) p.event (hserved.sublist.subset ?_)
      refine List.mem_append_left _ (List.mem_map.mpr ⟨p, ?_, rfl⟩)
      simp [hmem, hreport]
    unfold Posted.countFor
    split
    · rename_i heq
      rw [heq] at hlog
      cases hlog
    · rfl
  · have hnamed := hN.posted p hmem lines hreport
    have hall : tally (fun line => if line = service then 1 else 0) lines =
        tally (fun _ => if p.event.service = service then 1 else 0) lines :=
      tally_congr fun line hline => by rw [hnamed line hline]
    simp only [Posted.countFor, hK.reports p hmem lines hreport, Option.getD_some, hall]
    split_ifs
    · exact (tally_one lines).symm
    · exact (tally_eq_zero fun _ _ => rfl).symm

/-- The sums agree exactly when no line is left to be reported. -/
theorem lines_add_up_iff_dropped (h : channelSystem.Reachable SendsAttributed s)
    (hdrained : s.Drained) :
    (∀ service, s.linesDelivered service + s.linesReported service = s.linesSent service) ↔
      s.dropped = 0 := by
  have hK := kept_of_reachable h hdrained.isOpen
  have hN := named_of_reachable h hdrained.isOpen
  have hlogs := offered_isLog (fun _ _ _ hguard => hguard.1) h hdrained.isOpen
  have hone (service : ServiceName) : s.linesSent service = s.linesDelivered service +
      (s.linesReported service +
        tally (fun line => if line = service then 1 else 0) s.unreported) := by
    have hcounted := hK.counted fun line => if line = service then 1 else 0
    have hpending : tally (fun sender => tally (fun line => if line = service then 1 else 0)
        sender.phase.pending) s.senders = 0 := by
      refine tally_eq_zero fun sender hmem => ?_
      simp [hdrained.gone sender hmem]
    have hreported : tally (fun p => tally (fun line => if line = service then 1 else 0)
        (p.report.getD [])) s.posted = s.linesReported service := by
      rw [← tally_congr (countFor_eq hK hN hlogs service), EventChannel.posted,
        hdrained.channel_eq, List.append_nil]
      rfl
    rw [hK.linesSent_eq hdrained, hcounted, hpending, lost, hreported, Nat.add_zero]
  rw [hK.sound.dropped_eq, List.length_eq_zero_iff]
  constructor
  · intro hall
    by_contra hne
    obtain ⟨line, hline⟩ := List.exists_mem_of_ne_nil _ hne
    have hzero : tally (fun l => if l = line then 1 else 0) s.unreported = 0 := by
      have heq := hone line
      have hall := hall line
      omega
    rw [tally_ite, List.countP_eq_zero] at hzero
    simpa using hzero line hline
  · intro hnil service
    rw [hone service, hnil, tally_nil, Nat.add_zero]

/-! ### After the last line that was refused -/

/-- Some sender is about to swap the drop counter for zero. -/
def Due (s : EventChannel) : Prop :=
  ∃ (i : ℕ) (sender : Sender) (event : ServiceEvent) (admitted : Bool),
    s.senders[i]? = some sender ∧ sender.phase = .swapping event admitted

/-- A sender in another phase gets to the next one. -/
theorem Due.goTo (h : s.Due) (hget : s.senders[i]? = some sender)
    (hphase : ∀ event admitted, sender.phase ≠ .swapping event admitted) {t : EventChannel}
    (hsenders : t.senders = s.senders) (new : Sender) (phase : SendPhase) :
    (t.goTo i new phase).Due := by
  obtain ⟨j, other, event, admitted, hother, hswapping⟩ := h
  refine ⟨j, other, event, admitted, ?_, hswapping⟩
  have hne : i ≠ j := by
    rintro rfl
    obtain rfl := Option.some.inj (hget.symm.trans hother)
    exact hphase event admitted hswapping
  rw [EventChannel.goTo, hsenders, List.getElem?_set_ne hne, hother]

/-- A sender gets to where it swaps. -/
theorem due_goTo (hget : s.senders[i]? = some sender) {t : EventChannel}
    (hsenders : t.senders = s.senders) (new : Sender) (event : ServiceEvent) (admitted : Bool) :
    (t.goTo i new (.swapping event admitted)).Due := by
  refine ⟨i, { new with phase := .swapping event admitted }, event, admitted, ?_, rfl⟩
  rw [EventChannel.goTo, hsenders, List.getElem?_set_self (List.getElem?_eq_some_iff.mp hget).1]

/-- What a run has done to the drop counter: it counts lines exactly when a line was refused last, up
to a report that is due. -/
structure Marked (s : EventChannel) (marks : List LossMark) : Prop where
  pos : marks.getLast? = some .refused → 0 < s.dropped
  due : 0 < s.dropped → marks.getLast? = some .refused ∨ s.Due

/-- The counter stays as it is, and what was due is due. -/
theorem Marked.congr {marks : List LossMark} (h : s.Marked marks) {t : EventChannel}
    (hdropped : t.dropped = s.dropped) (hdue : s.Due → t.Due) : t.Marked marks where
  pos hlast := hdropped ▸ h.pos hlast
  due hpos := (h.due (hdropped ▸ hpos)).imp_right hdue

theorem Marked.advanced {marks : List LossMark} (h : s.Marked marks)
    (hget : s.senders[i]? = some sender) (hadvanced : s.Advanced i sender s') :
    s'.Marked (marks ++ s.lossMarks (.advance i)) := by
  cases hadvanced with
  | passed hphase | refused hphase | admitted hphase | tookBack hphase | reported hphase
  | enqueued hphase | failed hphase =>
    -- A step that leaves the counter alone.
    rw [show s.lossMarks (.advance i) = [] by simp [lossMarks, hget, hphase], List.append_nil]
    exact h.congr rfl fun hdue => hdue.goTo hget (by simp [hphase]) rfl _ _
  | counted hphase =>
    rw [show s.lossMarks (.advance i) = [.refused] by simp [lossMarks, hget, hphase]]
    exact ⟨fun _ => Nat.succ_pos _, fun _ => .inl (by simp)⟩
  | @checked event _ hphase _ hfound =>
    rw [show s.lossMarks (.advance i) = [.letUp] by simp [lossMarks, hget, hphase]]
    refine ⟨by simp, fun hpos => .inr ?_⟩
    obtain rfl := hfound hpos
    exact due_goTo hget rfl sender event true
  | foundNone hphase | tookDrops hphase =>
    rw [show s.lossMarks (.advance i) = [.reported] by simp [lossMarks, hget, hphase]]
    exact ⟨by simp, fun hpos => absurd hpos (Nat.lt_irrefl 0)⟩

theorem marked_of_run {actions : List ChannelAction} (hrun : channelSystem.run new actions = some s)
    (hopen : s.isOpen) : s.Marked (channelSystem.observed lossMarks new actions) := by
  have hinit : channelSystem.Reachable AnyStep new := .initial rfl
  have hnone : new.isOpen → new.Marked [] := fun _ => ⟨by simp, by simp [new]⟩
  refine TransitionSystem.observed_induction (I := fun s marks => s.isOpen → s.Marked marks)
    ?_ hinit hnone hrun hopen
  intro u action v marks _ ih hstep hopen
  obtain ⟨hopen, hstepped⟩ := stepped_of_step hstep hopen
  have hM := ih hopen
  cases hstepped with
  | clone =>
    refine (List.append_nil marks).symm ▸ hM.congr rfl ?_
    rintro ⟨i, sender, event, admitted, hget, hphase⟩
    refine ⟨i, sender, event, admitted, ?_, hphase⟩
    rw [List.getElem?_append_left (List.getElem?_eq_some_iff.mp hget).1, hget]
  | send hget hidle | drop hget hidle =>
    exact (List.append_nil marks).symm ▸
      hM.congr rfl fun hdue => hdue.goTo hget (by simp [hidle]) rfl _ _
  | advance hget hadvanced => exact hM.advanced hget hadvanced
  | receive | release => exact (List.append_nil marks).symm ▸ hM.congr rfl id

/-- **The losses of each service add up, but for those that are never reported**: in a run in which
log lines are sent and each swap of the drop counter finds lines of the sender's own service, once
all senders are gone and the channel is drained, the lines delivered and the lines reported as
dropped are the lines sent, for every service, if and only if the run did not leave it at a refused
line: the last one was followed by a line for which much of the allowance was free again, or by a
report that was due. -/
theorem lines_add_up_iff {actions : List ChannelAction}
    (hrun : channelSystem.run new actions = some s)
    (hguard : channelSystem.Throughout SendsAttributed new actions) (hdrained : s.Drained) :
    (∀ service, s.linesDelivered service + s.linesReported service = s.linesSent service) ↔
      (channelSystem.observed lossMarks new actions).getLast? ≠ some .refused := by
  have hM := marked_of_run hrun hdrained.isOpen
  have hdue : ¬ s.Due := by
    rintro ⟨i, sender, event, admitted, hget, hphase⟩
    rw [hdrained.gone sender (List.mem_of_getElem? hget)] at hphase
    cases hphase
  rw [lines_add_up_iff_dropped ⟨new, rfl, hguard.steps hrun⟩ hdrained]
  constructor
  · exact fun hzero hlast => (hM.pos hlast).ne' hzero
  · intro hlast
    by_contra hne
    exact hlast ((hM.due (Nat.pos_of_ne_zero hne)).resolve_right hdue)

/-! ### The channel of one service -/

/-- Only log lines of one service are sent, and the receiver lives on. -/
def SendsLinesOf (service : ServiceName) (_ : EventChannel) (action : ChannelAction)
    (_ : EventChannel) : Prop :=
  action ≠ .close ∧ ∀ i event, action = .send i event → event.IsLineOf service

/-- Everything that is being sent, and everything that was dropped, is of the service. -/
structure OfOne (service : ServiceName) (s : EventChannel) : Prop where
  unreported : ∀ line ∈ s.unreported, line = service
  senders : ∀ sender ∈ s.senders, ∀ event ∈ sender.phase.event, event.service = service

theorem OfOne.goTo {service : ServiceName} (h : s.OfOne service) {t : EventChannel} {new : Sender}
    {phase : SendPhase} (hunreported : ∀ line ∈ t.unreported, line = service)
    (hsenders : t.senders = s.senders) (hphase : ∀ event ∈ phase.event, event.service = service) :
    (t.goTo i new phase).OfOne service := by
  refine ⟨hunreported, fun other hmem => ?_⟩
  rcases List.mem_or_eq_of_mem_set hmem with hmem | rfl
  · exact h.senders other (hsenders ▸ hmem)
  · exact hphase

theorem OfOne.advanced {service : ServiceName} (h : s.OfOne service)
    (hget : s.senders[i]? = some sender) (hadvanced : s.Advanced i sender s') :
    s'.OfOne service := by
  have hevent := h.senders sender (List.mem_of_getElem? hget)
  cases hadvanced with
  | passed | enqueued | failed => exact h.goTo h.unreported rfl (by simp [SendPhase.event])
  | refused hphase | tookBack hphase =>
    rw [hphase] at hevent
    exact h.goTo h.unreported rfl hevent
  | admitted hphase _ _ hnext | checked hphase hnext =>
    rw [hphase] at hevent
    refine h.goTo h.unreported rfl ?_
    rcases hnext with rfl | rfl <;> exact hevent
  | counted hphase hnext =>
    rw [hphase] at hevent
    refine h.goTo (fun line hline => ?_) rfl ?_
    · rcases List.mem_append.mp hline with hline | hline
      · exact h.unreported line hline
      · exact List.mem_singleton.mp hline ▸ hevent _ rfl
    · rcases hnext with rfl | rfl
      · exact hevent
      · exact nofun
  | @foundNone _ admitted hphase =>
    rw [hphase] at hevent
    refine h.goTo (by simp) rfl ?_
    cases admitted
    · exact nofun
    · exact hevent
  | tookDrops hphase =>
    rw [hphase] at hevent
    exact h.goTo (by simp) rfl hevent
  | @reported _ _ _ admitted hphase =>
    rw [hphase] at hevent
    refine h.goTo h.unreported rfl ?_
    cases admitted
    · exact nofun
    · exact hevent

theorem ofOne_of_reachable {service : ServiceName}
    (h : channelSystem.Reachable (SendsLinesOf service) s) : s.isOpen ∧ s.OfOne service := by
  refine h.invariant (I := fun s => s.isOpen ∧ s.OfOne service) ?_ ?_
  · rintro s₀ rfl
    exact ⟨rfl, by simp [new], by simp [new, Sender.new, SendPhase.event]⟩
  · rintro u action v _ ⟨hopen, hO⟩ ⟨hclose, hlines⟩ hstep
    have hopen' : v.isOpen := (isOpen_step hclose hstep).trans hopen
    refine ⟨hopen', ?_⟩
    cases (stepped_of_step hstep hopen').2 with
    | clone =>
      refine ⟨hO.unreported, fun sender hmem => ?_⟩
      rcases List.mem_append.mp hmem with hmem | hmem
      · exact hO.senders sender hmem
      · obtain rfl := List.mem_singleton.mp hmem
        simp [Sender.new, SendPhase.event]
    | @send j event =>
      refine hO.goTo hO.unreported rfl ?_
      rintro _ ⟨⟩
      exact (hlines j event rfl).2
    | drop => exact hO.goTo hO.unreported rfl (by simp [SendPhase.event])
    | advance hget hadvanced => exact hO.advanced hget hadvanced
    | receive | release => exact ⟨hO.unreported, hO.senders⟩

/-- On a channel that one service uses, each swap finds lines of that service. -/
theorem sendsAttributed_of_linesOf {service : ServiceName} {actions : List ChannelAction}
    (h : channelSystem.Throughout (SendsLinesOf service) new actions) :
    channelSystem.Throughout SendsAttributed new actions := by
  refine h.of_guard (fun {u action v} hu ⟨_, hlines⟩ _ => ?_) (.initial rfl)
  obtain ⟨hopen, hO⟩ := ofOne_of_reachable hu
  refine ⟨fun i event he => (hlines i event he).1, ?_⟩
  rintro i sender event admitted - hget hphase line hline
  have hevent := hO.senders sender (List.mem_of_getElem? hget)
  rw [hphase] at hevent
  rw [hO.unreported line hline, hevent event rfl]

/-! ### Two runs -/

/-- The sample line is sent, with nothing in between. -/
theorem steps_sendNow (hget : s.senders[i]? = some sender) (hidle : sender.phase = .idle) :
    channelSystem.Steps (SendsLinesOf ⟨"db"⟩) s
      (s.sendNow i { sender with offered := sender.offered ++ [sampleLine] } sampleLine) := by
  obtain ⟨n, hn⟩ := exists_run_sendNow hget hidle sampleLine
  refine TransitionSystem.steps_of_run_of_forall (fun action hmem _ _ => ?_) hn
  rcases List.mem_cons.mp hmem with rfl | hadvance
  · refine ⟨nofun, ?_⟩
    rintro _ _ ⟨⟩
    decide
  · obtain rfl := List.eq_of_mem_replicate hadvance
    exact ⟨nofun, nofun⟩

theorem steps_filled {n : ℕ} (hn : n ≤ 1024) :
    channelSystem.Steps (SendsLinesOf ⟨"db"⟩) new (filled n) := by
  induction n with
  | zero => exact .refl _
  | succ n ih =>
    have hsteps := steps_sendNow (getElem?_senders_filled n) rfl
    rw [sendNow_filled (by omega)] at hsteps
    exact (ih (by omega)).trans hsteps

/-- The line that does not fit is refused. -/
theorem steps_flooded {n : ℕ} (hn : 1024 ≤ n) :
    channelSystem.Steps (SendsLinesOf ⟨"db"⟩) (filled n) (flooded n n 0) := by
  have hsteps := steps_sendNow (getElem?_senders_filled n) rfl
  rw [sendNow_filled_of_le hn] at hsteps
  exact hsteps

/-- The lines that are waiting are received. -/
theorem steps_drained (n waiting : ℕ) : ∀ taken, channelSystem.Steps (SendsLinesOf ⟨"db"⟩)
    (flooded n waiting taken) (flooded n 0 (taken + waiting)) := by
  induction waiting with
  | zero => exact fun _ => .refl _
  | succ waiting ih =>
    intro taken
    have hreceived : channelSystem.run (flooded n (waiting + 1) taken) [.receive, .release] =
        some (flooded n waiting (taken + 1)) := receiveNow_flooded n waiting taken
    rw [show taken + (waiting + 1) = taken + 1 + waiting by omega]
    exact (TransitionSystem.steps_of_run_of_forall (by simp [SendsLinesOf]) hreceived).trans
      (ih (taken + 1))

/-- One line more than the allowance is sent, and what was not refused is received. -/
theorem steps_flood : channelSystem.Steps (SendsLinesOf ⟨"db"⟩) new (flooded 1024 0 1024) := by
  have hdrained := steps_drained 1024 1024 0
  rw [Nat.zero_add] at hdrained
  exact ((steps_filled le_rfl).trans (steps_flooded le_rfl)).trans hdrained

/-- A further line is sent, for which all of the allowance is free again. It is received, after the
report of the one that was refused. -/
def sendOneMore : List ChannelAction :=
  .send 0 sampleLine :: List.replicate 5 (.advance 0) ++ [.drop 0, .receive, .receive, .release]

theorem sendsLinesOf_sendOneMore :
    ∀ action ∈ sendOneMore, ∀ u v, SendsLinesOf ⟨"db"⟩ u action v := by
  intro action hmem u v
  simp only [sendOneMore, List.cons_append, List.mem_cons, List.mem_append, List.mem_replicate,
    List.not_mem_nil, or_false] at hmem
  rcases hmem with rfl | ⟨-, rfl⟩ | rfl | rfl | rfl | rfl
  · refine ⟨nofun, ?_⟩
    rintro _ _ ⟨⟩
    decide
  all_goals exact ⟨nofun, nofun⟩

/-- A line is lost, and the sums agree, since another one came after it. -/
theorem lines_add_up_iff_sendOneMore : ∃ (actions : List ChannelAction) (s : EventChannel),
    channelSystem.run new actions = some s ∧ s.senders.map Sender.refused = [[sampleLine]] ∧
      ∀ service, s.linesDelivered service + s.linesReported service = s.linesSent service := by
  obtain ⟨before, hbefore, hlines⟩ := steps_flood.exists_run
  have hlast : ((channelSystem.run (flooded 1024 0 1024) sendOneMore).map fun s => decide (s.isOpen ∧
      (∀ sender ∈ s.senders, sender.phase = .gone) ∧ s.channel = [] ∧
        s.senders.map Sender.refused = [[sampleLine]])) = some true := by decide +kernel
  obtain ⟨s, hs, hfacts⟩ := Option.map_eq_some_iff.mp hlast
  obtain ⟨hopen, hgone, hchannel, hrefused⟩ := of_decide_eq_true hfacts
  have hrun : channelSystem.run new (before ++ sendOneMore) = some s := by
    rw [TransitionSystem.run_append, hbefore]
    exact hs
  have hguard : channelSystem.Throughout (SendsLinesOf ⟨"db"⟩) new (before ++ sendOneMore) :=
    hlines.append hbefore (TransitionSystem.throughout_of_forall sendsLinesOf_sendOneMore)
  refine ⟨before ++ sendOneMore, s, hrun, hrefused, (lines_add_up_iff hrun
    (sendsAttributed_of_linesOf hguard) ⟨hopen, hgone, hchannel⟩).mpr ?_⟩
  have hmarks : channelSystem.observed lossMarks (flooded 1024 0 1024) sendOneMore =
      [.letUp, .reported] := by decide +kernel
  simp [TransitionSystem.observed_append hbefore, hmarks]

theorem not_add_up_flooded (n : ℕ) :
    ¬ ∀ s, channelSystem.step (flooded n 0 n) (.drop 0) = some s → s.Drained →
      ∀ service, s.linesDelivered service + s.linesReported service = s.linesSent service := by
  intro hall
  have heq := hall ((flooded n 0 n).goTo 0 ⟨.idle, List.replicate (n + 1) sampleLine, [sampleLine]⟩
    .gone) rfl ⟨rfl, by simp [goTo, flooded], rfl⟩ ⟨"db"⟩
  have hreported : ∀ p ∈ List.replicate n (Posted.own 0 sampleLine), p.countFor ⟨"db"⟩ = 0 :=
    fun p hp => List.eq_of_mem_replicate hp ▸ rfl
  rw [linesReported, goTo, flooded, tally_eq_zero hreported] at heq
  simp [linesDelivered, linesSent, sampleLine, Posted.own, ServiceEvent.IsLineOf, EventKind.isLog,
    List.countP_replicate] at heq

/-- The sender of the refused line is dropped, and nobody is told. -/
theorem overfilled_not_reported :
    ¬ ∀ s, channelSystem.Reachable SendsLogs s → s.Drained →
      ∀ service, s.linesDelivered service + s.linesReported service = s.linesSent service := by
  intro hall
  have hlogs : channelSystem.Reachable SendsLogs (flooded 1024 0 1024) :=
    ⟨new, rfl, steps_flood.mono fun _ _ _ hguard i event he => (hguard.2 i event he).1⟩
  exact not_add_up_flooded 1024 fun s hs =>
    hall s (hlogs.step (by simp [SendsLogs]) hs)

end EventChannel

end Servicrab
