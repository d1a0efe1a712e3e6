import Servicrab.Events.Allowance

/-!
# Reports of dropped lines

A `send` with nothing in between, and how often the channel reports dropped lines then (`event.rs`).
There is a report for every so many refused lines, and one when a line is admitted while little is
queued. Each of the first kind uses up as many refused lines as it takes for the drop counter, which
starts from zero after every report. For the second kind some line was refused since the last report,
when the queue was full, so that the receiver must have taken half of the allowance out since then.

## Main definitions

* `EventChannel.sendNow`: `send` as one operation.
* `WholeOp`, `wholeSystem`: runs of whole operations.

## Main results

* `EventChannel.exists_run_of_wholeStep`: a whole operation is a run of steps.
* `EventChannel.reports_le`.
-/

namespace Servicrab

namespace EventChannel

variable (s : EventChannel)

/-- `report_drops` with nothing in between. -/
def reportDrops (i : ℕ) (event : ServiceEvent) : EventChannel :=
  let t := { s with dropped := 0, unreported := [] }
  if s.dropped = 0 then t else t.push (.drops i event.service s.dropped s.unreported)

/-- A refused line is counted, and with every so many of them there is a report. -/
def refuseNow (i : ℕ) (sender : Sender) (event : ServiceEvent) : EventChannel :=
  let t := { s with dropped := s.dropped + 1, unreported := s.unreported ++ [event.service] }
  if t.dropped % reportDropsEvery = 0 then (t.reportDrops i event).goTo i sender .idle
  else t.goTo i sender .idle

/-- The flood has let up when little was queued and lines were dropped. -/
def reportLetUp (queued : ℤ) (i : ℕ) (event : ServiceEvent) : EventChannel :=
  if queued < floodOverBelow ∧ 0 < s.dropped then s.reportDrops i event else s

/-- An admitted line is put on the channel, or the reservation is taken back. -/
def enqueueNow (i : ℕ) (sender : Sender) (event : ServiceEvent) : EventChannel :=
  if s.isOpen then (s.push (.own i event)).goTo i sender .idle
  else { s with queued := s.queued - 1 }.goTo i sender .idle

/-- `send` with nothing in between. -/
def sendNow (i : ℕ) (sender : Sender) (event : ServiceEvent) : EventChannel :=
  if !event.kind.isLog then (s.push (.own i event)).goTo i sender .idle
  else if maxQueuedLogLines ≤ s.queued then
    s.refuseNow i { sender with refused := sender.refused ++ [event] } event
  else
    ({ s with queued := s.queued + 1 }.reportLetUp s.queued i event).enqueueNow i sender event

/-- `recv` with nothing in between. -/
def receiveNow : Option EventChannel :=
  (s.step .receive).bind fun t => if t.owing then t.step .release else some t

end EventChannel

/-- A call of one of the parts of the channel, with nothing in between. -/
inductive WholeOp
  | clone (sender : ℕ)
  | send (sender : ℕ) (event : ServiceEvent)
  | drop (sender : ℕ)
  | receive
  | close
  deriving DecidableEq

namespace EventChannel

variable (s : EventChannel)

def wholeStep : WholeOp → Option EventChannel
  | .clone i => s.step (.clone i)
  | .send i event =>
    match s.senders[i]? with
    | some sender =>
      if sender.phase = .idle then
        some (s.sendNow i { sender with offered := sender.offered ++ [event] } event)
      else none
    | none => none
  | .drop i => s.step (.drop i)
  | .receive => s.receiveNow
  | .close => s.step .close

end EventChannel

/-- The runs of an event channel whose operations do not overlap. -/
def wholeSystem : TransitionSystem EventChannel WholeOp where
  init s := s = EventChannel.new
  step := EventChannel.wholeStep

namespace EventChannel

variable {s s' : EventChannel} {i : ℕ} {sender : Sender} {event : ServiceEvent}

/-! ### Whole operations are runs of steps -/

/-- A sender takes some steps of its `send`. -/
def Settles (i : ℕ) (s t : EventChannel) : Prop :=
  ∃ n, channelSystem.run s (List.replicate n (.advance i)) = some t

theorem Settles.trans {t : EventChannel} (h : Settles i s s') (h' : Settles i s' t) :
    Settles i s t := by
  obtain ⟨m, hm⟩ := h
  obtain ⟨n, hn⟩ := h'
  refine ⟨m + n, ?_⟩
  rw [List.replicate_add, TransitionSystem.run_append, hm]
  exact hn

/-- One step of a sender from where it got to. -/
theorem settles_of_advance {phase : SendPhase} (hi : i < s.senders.length)
    (h : (s.goTo i sender phase).advance i { sender with phase := phase } = some s') :
    Settles i (s.goTo i sender phase) s' := by
  have hget : (s.goTo i sender phase).senders[i]? = some { sender with phase := phase } :=
    List.getElem?_set_self hi
  refine ⟨1, ?_⟩
  rw [List.replicate_one, TransitionSystem.run_cons]
  show ((_ : Option Sender).bind _).bind _ = _
  rw [hget, Option.bind_some, h]
  rfl

@[simp] theorem goTo_goTo (s : EventChannel) (i : ℕ) (sender sender' : Sender)
    (phase phase' : SendPhase) :
    (s.goTo i sender phase).goTo i sender' phase' = s.goTo i sender' phase' := by
  simp [goTo]

@[simp] theorem goTo_phase (s : EventChannel) (i : ℕ) (sender : Sender) (phase phase' : SendPhase) :
    s.goTo i { sender with phase := phase } phase' = s.goTo i sender phase' := rfl

@[simp] theorem isOpen_goTo (s : EventChannel) (i : ℕ) (sender : Sender) (phase : SendPhase) :
    (s.goTo i sender phase).isOpen = s.isOpen := rfl

theorem push_goTo (s : EventChannel) (i : ℕ) (sender : Sender) (phase : SendPhase) (p : Posted) :
    (s.goTo i sender phase).push p = (s.push p).goTo i sender phase := by
  rw [push, push]
  split_ifs <;> first | rfl | contradiction

theorem length_push (s : EventChannel) (p : Posted) :
    (s.push p).senders.length = s.senders.length := by
  rw [push]
  split_ifs <;> rfl

theorem length_reportDrops (s : EventChannel) (i : ℕ) (event : ServiceEvent) :
    (s.reportDrops i event).senders.length = s.senders.length := by
  rw [reportDrops]
  split_ifs
  · rfl
  · exact length_push _ _

/-- `report_drops` runs through. -/
theorem settles_swapping (hi : i < s.senders.length) (admitted : Bool) :
    Settles i (s.goTo i sender (.swapping event admitted))
      ((s.reportDrops i event).goTo i sender (afterReport event admitted)) := by
  by_cases hnone : s.dropped = 0
  · refine settles_of_advance hi ?_
    simp [advance, takeDrops, reportDrops, hnone, goTo]
  · have htake : (s.goTo i sender (.swapping event admitted)).advance i
        { sender with phase := .swapping event admitted } =
          some ({ s with dropped := 0, unreported := [] }.goTo i sender
            (.publishing event s.dropped s.unreported admitted)) := by
      simp [advance, takeDrops, hnone, goTo]
    refine (settles_of_advance hi htake).trans (settles_of_advance hi ?_)
    simp [advance, reportDrops, hnone, push_goTo]

theorem settles_enqueueing (hi : i < s.senders.length) :
    Settles i (s.goTo i sender (.enqueueing event)) (s.enqueueNow i sender event) := by
  rw [enqueueNow]
  split_ifs with hopen
  · refine settles_of_advance hi ?_
    simp [advance, push_goTo, hopen]
  · have hfail : (s.goTo i sender (.enqueueing event)).advance i
        { sender with phase := .enqueueing event } = some (s.goTo i sender (.failing event)) := by
      simp [advance, hopen]
    refine (settles_of_advance hi hfail).trans (settles_of_advance hi ?_)
    exact congrArg some (goTo_goTo { s with queued := s.queued - 1 } i sender _ _ _)

theorem settles_refusing (hi : i < s.senders.length) :
    Settles i ({ s with queued := s.queued + 1 }.goTo i sender (.refusing event))
      (s.refuseNow i sender event) := by
  have hback : ({ s with queued := s.queued + 1 }.goTo i sender (.refusing event)).advance i
      { sender with phase := .refusing event } = some (s.goTo i sender (.dropping event)) := by
    simp [advance, goTo]
  have hcount : (s.goTo i sender (.dropping event)).advance i
      { sender with phase := .dropping event } = some
        ({ s with
          dropped := s.dropped + 1
          unreported := s.unreported ++ [event.service] }.goTo i sender
            (if (s.dropped + 1) % reportDropsEvery = 0 then .swapping event false else .idle)) :=
    congrArg some (goTo_goTo
      { s with dropped := s.dropped + 1, unreported := s.unreported ++ [event.service] } i sender
      _ _ _)
  have hsteps := (settles_of_advance (s := { s with queued := s.queued + 1 }) hi hback).trans
    (settles_of_advance hi hcount)
  rw [refuseNow]
  dsimp only
  split_ifs at hsteps ⊢
  · exact hsteps.trans (settles_swapping (s := { s with
      dropped := s.dropped + 1
      unreported := s.unreported ++ [event.service] }) hi false)
  · exact hsteps

theorem settles_admitted (hi : i < s.senders.length) (queued : ℤ) :
    Settles i
      (s.goTo i sender (if queued < floodOverBelow then .checking event else .enqueueing event))
      ((s.reportLetUp queued i event).enqueueNow i sender event) := by
  rw [reportLetUp]
  by_cases hlow : queued < floodOverBelow
  · rw [if_pos hlow]
    have hcheck : (s.goTo i sender (.checking event)).advance i
        { sender with phase := .checking event } = some (s.goTo i sender
          (if 0 < s.dropped then .swapping event true else .enqueueing event)) :=
      congrArg some (goTo_goTo s i sender _ _ _)
    have hstep := settles_of_advance hi hcheck
    by_cases hdropped : 0 < s.dropped
    · rw [if_pos hdropped] at hstep
      rw [if_pos ⟨hlow, hdropped⟩]
      exact hstep.trans ((settles_swapping hi true).trans
        (settles_enqueueing (hi.trans_eq (length_reportDrops s i event).symm)))
    · rw [if_neg hdropped] at hstep
      rw [if_neg fun h => hdropped h.2]
      exact hstep.trans (settles_enqueueing hi)
  · rw [if_neg hlow, if_neg fun h => hlow h.1]
    exact settles_enqueueing hi

theorem settles_sendNow (hi : i < s.senders.length) (sender : Sender) (event : ServiceEvent) :
    Settles i (s.goTo i sender (.called event)) (s.sendNow i sender event) := by
  rw [sendNow]
  by_cases hlog : event.kind.isLog
  · rw [if_neg (by simp [hlog])]
    by_cases hfull : maxQueuedLogLines ≤ s.queued
    · rw [if_pos hfull]
      refine (settles_of_advance hi ?_).trans (settles_refusing hi)
      simp [advance, hlog, reserve, goTo, hfull]
    · rw [if_neg hfull]
      refine (settles_of_advance hi ?_).trans
        (settles_admitted (s := { s with queued := s.queued + 1 }) hi s.queued)
      have hfull' : ¬ maxQueuedLogLines ≤ (s.goTo i sender (.called event)).queued := hfull
      simp only [advance, hlog, if_true, reserve, if_neg hfull']
      by_cases hlow : s.queued < floodOverBelow
      · have hlow' : (s.goTo i sender (.called event)).queued < floodOverBelow := hlow
        rw [if_pos hlow, if_pos hlow']
        exact congrArg some (goTo_goTo { s with queued := s.queued + 1 } i sender _ _ _)
      · have hlow' : ¬ (s.goTo i sender (.called event)).queued < floodOverBelow := hlow
        rw [if_neg hlow, if_neg hlow']
        exact congrArg some (goTo_goTo { s with queued := s.queued + 1 } i sender _ _ _)
  · rw [if_pos (by simp [hlog])]
    refine settles_of_advance hi ?_
    simp [advance, hlog, push_goTo]

/-- A whole `send` is a run of its steps. -/
theorem exists_run_sendNow (hget : s.senders[i]? = some sender) (hidle : sender.phase = .idle)
    (event : ServiceEvent) : ∃ n,
      channelSystem.run s (.send i event :: List.replicate n (.advance i)) =
        some (s.sendNow i { sender with offered := sender.offered ++ [event] } event) := by
  obtain ⟨hi, -⟩ := List.getElem?_eq_some_iff.mp hget
  obtain ⟨n, hn⟩ := settles_sendNow hi { sender with offered := sender.offered ++ [event] } event
  refine ⟨n, ?_⟩
  have hcall : channelSystem.step s (.send i event) =
      some (s.goTo i { sender with offered := sender.offered ++ [event] } (.called event)) := by
    simp [channelSystem, step, hget, hidle]
  rw [TransitionSystem.run_cons, hcall]
  exact hn

/-- **A whole operation is a run of steps.** -/
theorem exists_run_of_wholeStep {op : WholeOp} (h : s.wholeStep op = some s') :
    ∃ actions, channelSystem.run s actions = some s' := by
  have hone : ∀ {t : EventChannel} {action : ChannelAction}, t.step action = some s' →
      channelSystem.run t [action] = some s' := by
    intro t action hstep
    rw [TransitionSystem.run_cons]
    show (t.step action).bind _ = _
    rw [hstep]
    rfl
  cases op with
  | clone i => exact ⟨[.clone i], hone h⟩
  | drop i => exact ⟨[.drop i], hone h⟩
  | close => exact ⟨[.close], hone h⟩
  | receive =>
    obtain ⟨t, hreceive, hrest⟩ := Option.bind_eq_some_iff.mp h
    have hfirst : ∀ actions, channelSystem.run s (.receive :: actions) =
        channelSystem.run t actions := by
      intro actions
      rw [TransitionSystem.run_cons]
      show (s.step .receive).bind _ = _
      rw [hreceive]
      rfl
    split_ifs at hrest
    · exact ⟨[.receive, .release], (hfirst _).trans (hone hrest)⟩
    · exact ⟨[.receive], (hfirst _).trans hrest⟩
  | send i event =>
    simp only [wholeStep] at h
    split at h
    · rename_i sender hget
      obtain ⟨hidle, hsend⟩ := Option.ite_none_right_eq_some.mp h
      obtain rfl := Option.some.inj hsend
      obtain ⟨n, hn⟩ := exists_run_sendNow hget hidle event
      exact ⟨_, hn⟩
    · cases h

/-! ### What a report costs -/

/-- How many reports were put on the channel. -/
def reports (s : EventChannel) : ℕ := s.posted.countP fun p => p.report.isSome

/-- How many lines were refused. -/
def refusals (s : EventChannel) : ℕ := tally (·.refused.length) s.senders

/-- How many log lines the receiver was given. -/
def logsReceived (s : EventChannel) : ℕ := s.received.countP fun p => p.event.kind.isLog

/-- Each report of the first kind has used up as many refused lines as it takes, and those counted
since the last report come on top. Each of the second kind has used up as many received lines as half
of the allowance, and while there are lines to be reported those come on top that were received since
the queue was full. -/
def Charged (s : EventChannel) : Prop :=
  ∃ m n : ℕ, s.reports ≤ m + n ∧ reportDropsEvery * m + s.dropped ≤ s.refusals ∧
    (maxQueuedLogLines - floodOverBelow).toNat * n +
      (if s.dropped = 0 then 0 else (maxQueuedLogLines - s.queued).toNat) ≤ s.logsReceived

/-- What leaves the drop counter alone uses nothing up, and no more leaves the queue than is
received. -/
theorem Charged.keep (h : s.Charged) (hreports : s'.reports = s.reports)
    (hdropped : s'.dropped = s.dropped) (hrefusals : s'.refusals = s.refusals)
    (hqueued : s.queued + s.logsReceived ≤ s'.queued + s'.logsReceived)
    (hreceived : s.logsReceived ≤ s'.logsReceived) : s'.Charged := by
  obtain ⟨m, n, hmn, hm, hn⟩ := h
  refine ⟨m, n, hreports.trans_le hmn, by omega, ?_⟩
  rw [hdropped]
  split_ifs at hn ⊢ <;> omega

/-- Lines are refused when the queue is full. -/
theorem Charged.refuse (h : s.Charged) (hfull : maxQueuedLogLines ≤ s.queued)
    (hreports : s'.reports = s.reports) (hdropped : s'.dropped = s.dropped + 1)
    (hrefusals : s'.refusals = s.refusals + 1) (hqueued : s'.queued = s.queued)
    (hreceived : s'.logsReceived = s.logsReceived) : s'.Charged := by
  obtain ⟨m, n, hmn, hm, hn⟩ := h
  refine ⟨m, n, hreports.trans_le hmn, by omega, ?_⟩
  rw [hdropped, if_neg (Nat.succ_ne_zero _)]
  split_ifs at hn <;> omega

/-- A report is sent when enough lines were refused, or when little is queued. -/
theorem Charged.report (h : s.Charged) (hpos : 0 < s.dropped)
    (hdue : s.dropped % reportDropsEvery = 0 ∨ s.queued < floodOverBelow)
    (hreports : s'.reports ≤ s.reports + 1) (hdropped : s'.dropped = 0)
    (hrefusals : s'.refusals = s.refusals) (hreceived : s'.logsReceived = s.logsReceived) :
    s'.Charged := by
  obtain ⟨m, n, hmn, hm, hn⟩ := h
  rw [if_neg (Nat.pos_iff_ne_zero.mp hpos)] at hn
  rcases hdue with hmany | hlow
  · have hle : reportDropsEvery ≤ s.dropped := Nat.le_of_dvd hpos (Nat.dvd_of_mod_eq_zero hmany)
    refine ⟨m + 1, n, by omega, ?_, ?_⟩
    · rw [hdropped, hrefusals, Nat.mul_add, Nat.mul_one]
      omega
    · rw [if_pos hdropped]
      omega
  · refine ⟨m, n + 1, by omega, by omega, ?_⟩
    rw [if_pos hdropped, Nat.mul_add, Nat.mul_one]
    omega

/-! ### What each operation costs -/

theorem reports_push_own (s : EventChannel) (i : ℕ) (event : ServiceEvent) :
    (s.push (.own i event)).reports = s.reports := by
  rw [push]
  split_ifs
  · simp [reports, posted, Posted.own]
  · rfl

theorem reports_reportDrops (s : EventChannel) (i : ℕ) (event : ServiceEvent) :
    (s.reportDrops i event).reports ≤ s.reports + 1 := by
  rw [reportDrops, push]
  split_ifs
  · exact Nat.le_succ _
  · simp [reports, posted, Posted.drops, Nat.add_assoc]
  · exact Nat.le_succ _

/-- Putting something on the channel changes the channel only. -/
theorem push_eq (s : EventChannel) (p : Posted) : ∃ l, s.push p = { s with channel := l } := by
  rw [push]
  split_ifs
  · exact ⟨_, rfl⟩
  · exact ⟨s.channel, rfl⟩

/-- A report of dropped lines changes the channel and the drop counter only. -/
theorem reportDrops_eq (s : EventChannel) (i : ℕ) (event : ServiceEvent) :
    ∃ l, s.reportDrops i event = { s with channel := l, dropped := 0, unreported := [] } := by
  rw [reportDrops]
  split_ifs
  · exact ⟨s.channel, rfl⟩
  · obtain ⟨l, hl⟩ := push_eq { s with dropped := 0, unreported := [] }
      (.drops i event.service s.dropped s.unreported)
    exact ⟨l, hl⟩

/-- A sender goes on, having refused as many lines as before. -/
theorem refusals_goTo {t : EventChannel} (hget : s.senders[i]? = some sender)
    (hsenders : t.senders = s.senders) (new : Sender) (phase : SendPhase) :
    (t.goTo i new phase).refusals + sender.refused.length = s.refusals + new.refused.length := by
  have hold := tally_senders hget (·.refused.length)
  have hnew := tally_goTo hget hsenders new phase (·.refused.length)
  rw [refusals, refusals, hold, hnew]
  dsimp only
  omega

/-- Putting an admitted line on the channel, or not, is no report. -/
theorem enqueueNow_eq (s : EventChannel) (i : ℕ) (sender : Sender) (event : ServiceEvent) :
    ∃ t : EventChannel, s.enqueueNow i sender event = t.goTo i sender .idle ∧
      t.reports = s.reports ∧ t.dropped = s.dropped ∧ t.received = s.received ∧
      t.senders = s.senders ∧ s.queued ≤ t.queued + 1 := by
  rw [enqueueNow]
  split_ifs
  · obtain ⟨l, hl⟩ := push_eq s (.own i event)
    have hreports := reports_push_own s i event
    rw [hl] at hreports ⊢
    exact ⟨_, rfl, hreports, rfl, rfl, rfl, by simp⟩
  · exact ⟨_, rfl, rfl, rfl, rfl, rfl, by simp⟩

variable {sender' : Sender}

/-- A whole `send` of a line that is refused. -/
theorem Charged.refuseNow (h : s.Charged) (hget : s.senders[i]? = some sender)
    (hrefused : sender'.refused = sender.refused ++ [event]) (hfull : maxQueuedLogLines ≤ s.queued) :
    (s.refuseNow i sender' event).Charged := by
  have hlength : sender'.refused.length = sender.refused.length + 1 := by rw [hrefused]; simp
  have hcounted : ({ s with
      dropped := s.dropped + 1
      unreported := s.unreported ++ [event.service] }.goTo i sender' .idle).Charged := by
    have hrefusals := refusals_goTo (t := { s with
      dropped := s.dropped + 1
      unreported := s.unreported ++ [event.service] }) hget rfl sender' .idle
    exact h.refuse hfull rfl rfl (by omega) rfl rfl
  rw [EventChannel.refuseNow]
  split_ifs with hmany
  · have hreports := reports_reportDrops { s with
      dropped := s.dropped + 1
      unreported := s.unreported ++ [event.service] } i event
    obtain ⟨l, hl⟩ := reportDrops_eq { s with
      dropped := s.dropped + 1
      unreported := s.unreported ++ [event.service] } i event
    rw [hl] at hreports ⊢
    exact hcounted.report (Nat.succ_pos _) (.inl hmany) hreports rfl rfl rfl
  · exact hcounted

theorem Charged.sendNow (h : s.Charged) (hget : s.senders[i]? = some sender)
    (hrefused : sender'.refused = sender.refused) (event : ServiceEvent) :
    (s.sendNow i sender' event).Charged := by
  have hlength : sender'.refused.length = sender.refused.length := by rw [hrefused]
  rw [EventChannel.sendNow]
  split_ifs with hlog hfull
  · obtain ⟨l, hl⟩ := push_eq s (.own i event)
    have hreports := reports_push_own s i event
    have hrefusals := refusals_goTo (t := s.push (.own i event)) hget (by rw [hl]) sender' .idle
    refine h.keep hreports ?_ (by omega) ?_ ?_
    · rw [hl]
      rfl
    · rw [hl]
      exact le_rfl
    · rw [hl]
      exact le_rfl
  · exact h.refuseNow hget (by rw [hrefused]) hfull
  · rw [reportLetUp]
    split_ifs with hdue
    · have hreport := reports_reportDrops { s with queued := s.queued + 1 } i event
      obtain ⟨l, hl⟩ := reportDrops_eq { s with queued := s.queued + 1 } i event
      rw [hl] at hreport ⊢
      obtain ⟨t, ht, hreports, hdropped, hreceived, hsenders, -⟩ := enqueueNow_eq
        { s with queued := s.queued + 1, channel := l, dropped := 0, unreported := [] } i sender' event
      have hrefusals := refusals_goTo hget hsenders sender' .idle
      rw [ht]
      refine h.report hdue.2 (.inr hdue.1) (hreports.trans_le hreport) hdropped (by omega) ?_
      exact congrArg (List.countP _) hreceived
    · obtain ⟨t, ht, hreports, hdropped, hreceived, hsenders, hqueued⟩ :=
        enqueueNow_eq { s with queued := s.queued + 1 } i sender' event
      have hrefusals := refusals_goTo hget hsenders sender' .idle
      have hlogs : (t.goTo i sender' .idle).logsReceived = s.logsReceived :=
        congrArg (List.countP _) hreceived
      rw [ht]
      refine h.keep hreports hdropped (by omega) ?_ hlogs.ge
      rw [hlogs]
      have hle : s.queued ≤ (t.goTo i sender' .idle).queued := by
        show s.queued ≤ t.queued
        dsimp only at hqueued
        omega
      omega

theorem Charged.receiveNow (h : s.Charged) (hreceive : s.receiveNow = some s') : s'.Charged := by
  obtain ⟨t, hfirst, hrest⟩ := Option.bind_eq_some_iff.mp hreceive
  simp only [step] at hfirst
  split_ifs at hfirst
  split at hfirst
  · rename_i p rest hchannel
    obtain rfl := Option.some.inj hfirst
    have hreports : ∀ (t : EventChannel), t.channel = rest → t.received = s.received ++ [p] →
        t.reports = s.reports := by
      intro t hrest hreceived
      rw [reports, reports, posted, posted, hrest, hreceived, hchannel, List.append_assoc]
      rfl
    have hlogs : ∀ (t : EventChannel), t.received = s.received ++ [p] →
        t.logsReceived = s.logsReceived + if p.event.kind.isLog then 1 else 0 := by
      intro t hreceived
      rw [logsReceived, logsReceived, hreceived, List.countP_append, List.countP_singleton]
    split_ifs at hrest with howing
    · have hlog : p.event.kind.isLog = true := howing
      rw [step, if_pos howing] at hrest
      obtain rfl := Option.some.inj hrest
      have hone := hlogs { s with
        queued := s.queued - 1
        channel := rest
        received := s.received ++ [p]
        owing := false } rfl
      rw [if_pos hlog] at hone
      refine h.keep (hreports _ rfl rfl) rfl rfl ?_ ((Nat.le_succ _).trans_eq hone.symm)
      rw [hone]
      push_cast
      omega
    · obtain rfl := Option.some.inj hrest
      have hnone := hlogs { s with
        channel := rest
        received := s.received ++ [p]
        owing := p.event.kind.isLog } rfl
      rw [if_neg howing] at hnone
      exact h.keep (hreports _ rfl rfl) rfl rfl (by rw [hnone]; simp) hnone.ge
  · cases hfirst

theorem Charged.wholeStep (h : s.Charged) {op : WholeOp} (hstep : s.wholeStep op = some s') :
    s'.Charged := by
  cases op with
  | clone i =>
    simp only [EventChannel.wholeStep, step] at hstep
    split at hstep
    · split_ifs at hstep
      obtain rfl := Option.some.inj hstep
      exact h.keep rfl rfl (by simp [refusals, Sender.new]) le_rfl le_rfl
    · cases hstep
  | send i event =>
    simp only [EventChannel.wholeStep] at hstep
    split at hstep
    · rename_i sender hget
      split_ifs at hstep
      obtain rfl := Option.some.inj hstep
      have hrefused : ({ sender with offered := sender.offered ++ [event] } : Sender).refused =
        sender.refused := rfl
      exact h.sendNow hget hrefused event
    · cases hstep
  | drop i =>
    simp only [EventChannel.wholeStep, step] at hstep
    split at hstep
    · rename_i sender hget
      split_ifs at hstep
      obtain rfl := Option.some.inj hstep
      have hrefusals := refusals_goTo hget rfl sender .gone
      exact h.keep rfl rfl (by omega) le_rfl le_rfl
    · cases hstep
  | receive => exact h.receiveNow hstep
  | close =>
    simp only [EventChannel.wholeStep, step] at hstep
    split_ifs at hstep
    obtain rfl := Option.some.inj hstep
    exact h.keep rfl rfl rfl le_rfl le_rfl

/-- **Reports do not outgrow the bound they announce.** When the operations on a channel do not
overlap, there is at most one report for every so many refused lines, and one for every half of the
allowance that was received. -/
theorem reports_le {ops : List WholeOp} (h : wholeSystem.run new ops = some s) :
    (s.reports : ℤ) ≤ (s.refusals / reportDropsEvery : ℕ) +
      s.logsReceived / (maxQueuedLogLines - floodOverBelow) := by
  have hsteps := TransitionSystem.steps_of_run_of_forall (fun _ _ _ _ => trivial) h
  have hcharged : s.Charged := hsteps.invariant (I := Charged) ⟨0, 0, by decide, by decide, by decide⟩
    fun _ hI _ hstep => hI.wholeStep hstep
  obtain ⟨m, n, hmn, hm, hn⟩ := hcharged
  have hrefused : m ≤ s.refusals / reportDropsEvery := by
    rw [Nat.le_div_iff_mul_le (by decide), Nat.mul_comm]
    omega
  have hreceived : (n : ℤ) ≤ s.logsReceived / (maxQueuedLogLines - floodOverBelow) := by
    have hhalf : ((maxQueuedLogLines - floodOverBelow).toNat : ℤ) =
        maxQueuedLogLines - floodOverBelow := by decide
    rw [Int.le_ediv_iff_mul_le (by decide), ← hhalf, mul_comm, ← Int.natCast_mul, Int.ofNat_le]
    exact (Nat.le_add_right _ _).trans hn
  omega

/-! ### A flood -/

def sampleLine : ServiceEvent := ⟨⟨"db"⟩, .log .stdout "ready"⟩

/-- A channel on which some lines were sent and none was received. -/
def filled (n : ℕ) : EventChannel where
  queued := n
  dropped := 0
  unreported := []
  channel := List.replicate n (.own 0 sampleLine)
  senders := [⟨.idle, List.replicate n sampleLine, []⟩]
  received := []
  owing := false
  isOpen := true

/-- A channel on which one more line was refused, and some were received. -/
def flooded (n waiting taken : ℕ) : EventChannel where
  queued := waiting
  dropped := 1
  unreported := [⟨"db"⟩]
  channel := List.replicate waiting (.own 0 sampleLine)
  senders := [⟨.idle, List.replicate (n + 1) sampleLine, [sampleLine]⟩]
  received := List.replicate taken (.own 0 sampleLine)
  owing := false
  isOpen := true

theorem getElem?_senders_filled (n : ℕ) :
    (filled n).senders[0]? = some ⟨.idle, List.replicate n sampleLine, []⟩ := rfl

/-- A line that fits into the allowance is sent. -/
theorem sendNow_filled {n : ℕ} (hn : n < 1024) :
    (filled n).sendNow 0 ⟨.idle, List.replicate n sampleLine ++ [sampleLine], []⟩ sampleLine =
      filled (n + 1) := by
  have hroom : ¬ (1024 : ℤ) ≤ n := by omega
  simp [sendNow, reportLetUp, enqueueNow, push, goTo, filled, sampleLine, EventKind.isLog,
    maxQueuedLogLines, hroom, List.replicate_succ']

/-- The line that does not fit is refused. -/
theorem sendNow_filled_of_le {n : ℕ} (hn : 1024 ≤ n) :
    (filled n).sendNow 0 ⟨.idle, List.replicate n sampleLine ++ [sampleLine], []⟩ sampleLine =
      flooded n n 0 := by
  have hfull : (1024 : ℤ) ≤ n := by omega
  simp [sendNow, refuseNow, goTo, filled, flooded, sampleLine, EventKind.isLog,
    maxQueuedLogLines, reportDropsEvery, hfull, List.replicate_succ']

/-- A line that is waiting is received. -/
theorem receiveNow_flooded (n waiting taken : ℕ) :
    (flooded n (waiting + 1) taken).receiveNow = some (flooded n waiting (taken + 1)) := by
  have hreceived : (flooded n (waiting + 1) taken).receiveNow =
      some { flooded n waiting taken with
        queued := ((waiting + 1 : ℕ) : ℤ) - 1
        received := List.replicate taken (.own 0 sampleLine) ++ [.own 0 sampleLine] } := rfl
  rw [hreceived, ← List.replicate_succ', show ((waiting + 1 : ℕ) : ℤ) - 1 = waiting by omega]
  rfl

theorem run_filled {n : ℕ} (hn : n ≤ 1024) :
    wholeSystem.run new (List.replicate n (.send 0 sampleLine)) = some (filled n) := by
  induction n with
  | zero => rfl
  | succ n ih =>
    have hstep : wholeSystem.step (filled n) (.send 0 sampleLine) = some (filled (n + 1)) :=
      congrArg some (sendNow_filled (by omega))
    rw [List.replicate_succ', TransitionSystem.run_append, ih (by omega), Option.bind_some,
      TransitionSystem.run_cons_of_step hstep]
    rfl

theorem run_flooded (n waiting : ℕ) : ∀ taken, wholeSystem.run (flooded n waiting taken)
    (List.replicate waiting .receive) = some (flooded n 0 (taken + waiting)) := by
  induction waiting with
  | zero => exact fun _ => rfl
  | succ waiting ih =>
    intro taken
    have hstep : wholeSystem.step (flooded n (waiting + 1) taken) .receive =
        some (flooded n waiting (taken + 1)) := receiveNow_flooded n waiting taken
    rw [List.replicate_succ, TransitionSystem.run_cons_of_step hstep, ih,
      show taken + 1 + waiting = taken + (waiting + 1) by omega]

/-- With the channel drained, the next line is sent behind a report of the one that was refused. -/
theorem wholeStep_flooded (n : ℕ) : ∃ s, (flooded n 0 n).wholeStep (.send 0 sampleLine) = some s ∧
    s.reports = 1 ∧ s.refusals = 1 := by
  refine ⟨_, rfl, ?_⟩
  simp [flooded, sendNow, reportLetUp, reportDrops, enqueueNow, push, goTo, sampleLine,
    EventKind.isLog, maxQueuedLogLines, floodOverBelow, reports, posted, refusals, Posted.own,
    Posted.drops, List.countP_replicate, tally]

/-- One line more than the allowance is sent, and refused; what was not refused is received, and
one more line is sent. -/
theorem reports_le_flooded : ∃ s, wholeSystem.run new (List.replicate 1024 (.send 0 sampleLine) ++
      .send 0 sampleLine :: List.replicate 1024 .receive ++ [.send 0 sampleLine]) = some s ∧
    s.reports = 1 ∧ s.refusals = 1 ∧
      (s.reports : ℤ) ≤ (s.refusals / reportDropsEvery : ℕ) +
        s.logsReceived / (maxQueuedLogLines - floodOverBelow) := by
  obtain ⟨s, hlast, hreports, hrefusals⟩ := wholeStep_flooded 1024
  have hrefused : wholeSystem.step (filled 1024) (.send 0 sampleLine) =
      some (flooded 1024 1024 0) := congrArg some (sendNow_filled_of_le le_rfl)
  have hdrained := run_flooded 1024 1024 0
  rw [Nat.zero_add] at hdrained
  have hrun : wholeSystem.run new (List.replicate 1024 (.send 0 sampleLine) ++
      .send 0 sampleLine :: List.replicate 1024 .receive ++ [.send 0 sampleLine]) = some s := by
    rw [TransitionSystem.run_append, TransitionSystem.run_append, run_filled le_rfl,
      Option.bind_some, TransitionSystem.run_cons_of_step hrefused, hdrained, Option.bind_some,
      TransitionSystem.run_cons_of_step hlast]
    rfl
  exact ⟨s, hrun, hreports, hrefusals, reports_le hrun⟩

end EventChannel

end Servicrab
