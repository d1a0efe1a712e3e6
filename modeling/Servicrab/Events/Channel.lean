import Servicrab.Core.Event
import Servicrab.Library.TransitionSystem

/-!
# The event channel

An event channel is an unbounded queue with an allowance for log lines (`event.rs`). Its senders
share two atomic counters with the receiver: the log lines that are queued, and those that were
dropped since this was last reported. A `send` is a sequence of atomic steps, between which every
other sender and the receiver may take theirs; comparisons of values already read are made along
with the step that read them.

The counters are modelled without their upper ends, and the one that is counted down as an integer,
so that an underflow would show. What a sender was asked to send, which lines it refused, and whose
lines the drop counter counts is kept for the record; nothing the program does depends on it.

## Main definitions

* `EventChannel`, `ChannelAction`, `EventChannel.step`, `channelSystem`.
* `EventChannel.Advanced`: what the next step of a `send` does.
-/

namespace Servicrab

/-- How many captured log lines may be queued on one event channel. -/
def maxQueuedLogLines : ℤ := 1024

/-- Report dropped lines at least this often while the flood continues. -/
def reportDropsEvery : ℕ := 1024

/-- How much of the allowance has to be free again before the flood counts as over. -/
def floodOverBelow : ℤ := maxQueuedLogLines / 2

/-- Whether the event is a captured log line. -/
def EventKind.isLog (kind : EventKind) : Bool :=
  match kind with
  | .log _ _ => true
  | _ => false

@[simp] theorem isLog_logLinesDropped (count : ℕ) :
    (EventKind.logLinesDropped count).isLog = false := rfl

/-- Where a sender is in `send`. -/
inductive SendPhase
  /-- No `send` is in progress. -/
  | idle
  /-- `send` was called. -/
  | called (event : ServiceEvent)
  /-- The allowance was used up; the reservation is to be taken back. -/
  | refusing (event : ServiceEvent)
  /-- The drop is to be counted. -/
  | dropping (event : ServiceEvent)
  /-- The line was admitted while little is queued; it is to be seen whether lines were dropped. -/
  | checking (event : ServiceEvent)
  /-- `report_drops`: the counter is to be swapped for zero. The line itself may be admitted. -/
  | swapping (event : ServiceEvent) (admitted : Bool)
  /-- `report_drops`: the report is to be sent. It counts the given lines. -/
  | publishing (event : ServiceEvent) (count : ℕ) (lines : List ServiceName) (admitted : Bool)
  /-- The line was admitted and is to be sent down the channel. -/
  | enqueueing (event : ServiceEvent)
  /-- The receiver is gone; the reservation is to be taken back. -/
  | failing (event : ServiceEvent)
  /-- The sender was dropped. -/
  | gone
  deriving DecidableEq

/-- An `EventSender`, with the events it was asked to send and the lines it refused. -/
structure Sender where
  phase : SendPhase
  offered : List ServiceEvent
  refused : List ServiceEvent
  deriving DecidableEq

def Sender.new : Sender := ⟨.idle, [], []⟩

/-- An event on the channel, the sender that put it there, and, for a report of dropped lines, the
services of the lines it counts. -/
structure Posted where
  sender : ℕ
  event : ServiceEvent
  report : Option (List ServiceName)
  deriving DecidableEq

/-- An event that a sender was asked to send. -/
def Posted.own (sender : ℕ) (event : ServiceEvent) : Posted := ⟨sender, event, none⟩

/-- A report of dropped lines, under the name of a service. -/
def Posted.drops (sender : ℕ) (service : ServiceName) (count : ℕ) (lines : List ServiceName) :
    Posted :=
  ⟨sender, ⟨service, .logLinesDropped count⟩, some lines⟩

/-- An event channel, with its senders and its receiver. -/
structure EventChannel where
  /-- Log lines handed to the channel but not taken out of it yet. -/
  queued : ℤ
  /-- Lines dropped since the last report. -/
  dropped : ℕ
  /-- The services of these lines. -/
  unreported : List ServiceName
  channel : List Posted
  senders : List Sender
  /-- What the receiver was given. -/
  received : List Posted
  /-- The receiver has a log line whose allowance it has not given back yet. -/
  owing : Bool
  /-- Whether the receiver lives. -/
  isOpen : Bool
  deriving DecidableEq

/-- A step of one of the parts of the channel. -/
inductive ChannelAction
  /-- A sender is cloned. -/
  | clone (sender : ℕ)
  /-- A sender is asked to send an event. -/
  | send (sender : ℕ) (event : ServiceEvent)
  /-- A sender takes the next step of its `send`. -/
  | advance (sender : ℕ)
  /-- A sender is dropped. -/
  | drop (sender : ℕ)
  /-- The receiver takes the next event. -/
  | receive
  /-- The receiver gives back the allowance of a log line. -/
  | release
  /-- The receiver is dropped. -/
  | close
  deriving DecidableEq

namespace EventChannel

/-- A new channel has one sender. -/
def new : EventChannel where
  queued := 0
  dropped := 0
  unreported := []
  channel := []
  senders := [.new]
  received := []
  owing := false
  isOpen := true

variable (s : EventChannel)

/-- A sender gets to another point in `send`. -/
def goTo (i : ℕ) (sender : Sender) (phase : SendPhase) : EventChannel :=
  { s with senders := s.senders.set i { sender with phase := phase } }

/-- The queue takes an event as long as the receiver lives. -/
def push (posted : Posted) : EventChannel :=
  if s.isOpen then { s with channel := s.channel ++ [posted] } else s

/-- Where `send` goes on after `report_drops`. -/
def afterReport (event : ServiceEvent) (admitted : Bool) : SendPhase :=
  if admitted then .enqueueing event else .idle

@[simp] theorem afterReport_true (event : ServiceEvent) :
    afterReport event true = .enqueueing event := rfl

@[simp] theorem afterReport_false (event : ServiceEvent) : afterReport event false = .idle := rfl

/-- `fetch_add` on the lines queued, and the comparisons of the value it returns. -/
def reserve (i : ℕ) (sender : Sender) (event : ServiceEvent) : EventChannel :=
  let t := { s with queued := s.queued + 1 }
  if maxQueuedLogLines ≤ s.queued then
    t.goTo i { sender with refused := sender.refused ++ [event] } (.refusing event)
  else if s.queued < floodOverBelow then t.goTo i sender (.checking event)
  else t.goTo i sender (.enqueueing event)

/-- `fetch_add` on the lines dropped: every so many of them there is a report. -/
def countDrop (i : ℕ) (sender : Sender) (event : ServiceEvent) : EventChannel :=
  let t := { s with
    dropped := s.dropped + 1
    unreported := s.unreported ++ [event.service] }
  t.goTo i sender
    (if (s.dropped + 1) % reportDropsEvery = 0 then .swapping event false else .idle)

/-- `swap` of the lines dropped for zero: there is a report if there were any. -/
def takeDrops (i : ℕ) (sender : Sender) (event : ServiceEvent) (admitted : Bool) : EventChannel :=
  let t := { s with dropped := 0, unreported := [] }
  t.goTo i sender
    (if s.dropped = 0 then afterReport event admitted
      else .publishing event s.dropped s.unreported admitted)

/-- The next step of a `send`. -/
def advance (i : ℕ) (sender : Sender) : Option EventChannel :=
  match sender.phase with
  | .idle | .gone => none
  | .called event =>
    if event.kind.isLog then some (s.reserve i sender event)
    else some ((s.push (.own i event)).goTo i sender .idle)
  | .refusing event => some ({ s with queued := s.queued - 1 }.goTo i sender (.dropping event))
  | .dropping event => some (s.countDrop i sender event)
  | .checking event =>
    some (s.goTo i sender (if 0 < s.dropped then .swapping event true else .enqueueing event))
  | .swapping event admitted => some (s.takeDrops i sender event admitted)
  | .publishing event count lines admitted =>
    some ((s.push (.drops i event.service count lines)).goTo i sender
      (afterReport event admitted))
  | .enqueueing event =>
    if s.isOpen then some ((s.push (.own i event)).goTo i sender .idle)
    else some (s.goTo i sender (.failing event))
  | .failing _ => some ({ s with queued := s.queued - 1 }.goTo i sender .idle)

/-- One step. -/
def step : ChannelAction → Option EventChannel
  | .clone i =>
    match s.senders[i]? with
    | some sender =>
      if sender.phase = .gone then none else some { s with senders := s.senders ++ [.new] }
    | none => none
  | .send i event =>
    match s.senders[i]? with
    | some sender =>
      if sender.phase = .idle then
        some (s.goTo i { sender with offered := sender.offered ++ [event] } (.called event))
      else none
    | none => none
  | .advance i => s.senders[i]?.bind fun sender => s.advance i sender
  | .drop i =>
    match s.senders[i]? with
    | some sender => if sender.phase = .idle then some (s.goTo i sender .gone) else none
    | none => none
  | .receive =>
    if s.isOpen ∧ s.owing = false then
      match s.channel with
      | posted :: rest => some { s with
          channel := rest
          received := s.received ++ [posted]
          owing := posted.event.kind.isLog }
      | [] => none
    else none
  | .release => if s.owing then some { s with queued := s.queued - 1, owing := false } else none
  | .close => if s.isOpen ∧ s.owing = false then some { s with isOpen := false } else none

end EventChannel

/-- The runs of an event channel. -/
def channelSystem : TransitionSystem EventChannel ChannelAction where
  init s := s = EventChannel.new
  step := EventChannel.step

namespace EventChannel

variable {s s' : EventChannel} {i : ℕ} {sender : Sender} {action : ChannelAction}

/-- What the next step of a `send` does while the receiver lives. -/
inductive Advanced (s : EventChannel) (i : ℕ) (sender : Sender) : EventChannel → Prop
  | passed {event : ServiceEvent} (hphase : sender.phase = .called event)
    (hlog : event.kind.isLog = false) :
    Advanced s i sender
      ({ s with channel := s.channel ++ [Posted.own i event] }.goTo i sender .idle)
  | refused {event : ServiceEvent} (hphase : sender.phase = .called event)
    (hlog : event.kind.isLog) (hfull : maxQueuedLogLines ≤ s.queued) :
    Advanced s i sender
      ({ s with queued := s.queued + 1 }.goTo i
        { sender with refused := sender.refused ++ [event] } (.refusing event))
  | admitted {event : ServiceEvent} {phase : SendPhase} (hphase : sender.phase = .called event)
    (hlog : event.kind.isLog) (hroom : s.queued < maxQueuedLogLines)
    (hnext : phase = .checking event ∨ phase = .enqueueing event) :
    Advanced s i sender ({ s with queued := s.queued + 1 }.goTo i sender phase)
  | tookBack {event : ServiceEvent} (hphase : sender.phase = .refusing event) :
    Advanced s i sender ({ s with queued := s.queued - 1 }.goTo i sender (.dropping event))
  | counted {event : ServiceEvent} {phase : SendPhase} (hphase : sender.phase = .dropping event)
    (hnext : phase = .swapping event false ∨ phase = .idle) :
    Advanced s i sender
      ({ s with dropped := s.dropped + 1, unreported := s.unreported ++ [event.service] }.goTo i
        sender phase)
  | checked {event : ServiceEvent} {phase : SendPhase} (hphase : sender.phase = .checking event)
    (hnext : phase = .swapping event true ∨ phase = .enqueueing event)
    (hfound : 0 < s.dropped → phase = .swapping event true) :
    Advanced s i sender (s.goTo i sender phase)
  | foundNone {event : ServiceEvent} {admitted : Bool}
    (hphase : sender.phase = .swapping event admitted) (hnone : s.dropped = 0) :
    Advanced s i sender
      ({ s with dropped := 0, unreported := [] }.goTo i sender (afterReport event admitted))
  | tookDrops {event : ServiceEvent} {admitted : Bool}
    (hphase : sender.phase = .swapping event admitted) :
    Advanced s i sender
      ({ s with dropped := 0, unreported := [] }.goTo i sender
        (.publishing event s.dropped s.unreported admitted))
  | reported {event : ServiceEvent} {count : ℕ} {lines : List ServiceName} {admitted : Bool}
    (hphase : sender.phase = .publishing event count lines admitted) :
    Advanced s i sender
      ({ s with channel := s.channel ++ [Posted.drops i event.service count lines] }.goTo i sender
        (afterReport event admitted))
  | enqueued {event : ServiceEvent} (hphase : sender.phase = .enqueueing event) :
    Advanced s i sender
      ({ s with channel := s.channel ++ [Posted.own i event] }.goTo i sender .idle)
  | failed {event : ServiceEvent} (hphase : sender.phase = .failing event) :
    Advanced s i sender ({ s with queued := s.queued - 1 }.goTo i sender .idle)

theorem push_of_isOpen (hopen : s.isOpen) (posted : Posted) :
    s.push posted = { s with channel := s.channel ++ [posted] } := if_pos hopen

theorem advanced_of_advance (hopen : s.isOpen) (h : s.advance i sender = some s') :
    s.Advanced i sender s' := by
  unfold advance at h
  split at h
  · cases h
  · cases h
  · rename_i event hphase
    split_ifs at h with hlog
    · obtain rfl := Option.some.inj h
      unfold reserve
      split_ifs with hfull hlow
      · exact .refused hphase hlog hfull
      · exact .admitted hphase hlog (not_le.mp hfull) (.inl rfl)
      · exact .admitted hphase hlog (not_le.mp hfull) (.inr rfl)
    · obtain rfl := Option.some.inj h
      rw [push_of_isOpen hopen]
      exact .passed hphase (by simpa using hlog)
  · rename_i event hphase
    obtain rfl := Option.some.inj h
    exact .tookBack hphase
  · rename_i event hphase
    obtain rfl := Option.some.inj h
    refine .counted hphase ?_
    split_ifs
    · exact .inl rfl
    · exact .inr rfl
  · rename_i event hphase
    obtain rfl := Option.some.inj h
    refine .checked hphase ?_ fun hfound => if_pos hfound
    split_ifs
    · exact .inl rfl
    · exact .inr rfl
  · rename_i event admitted hphase
    obtain rfl := Option.some.inj h
    unfold takeDrops
    split_ifs with hnone
    · exact .foundNone hphase hnone
    · exact .tookDrops hphase
  · rename_i event count lines admitted hphase
    obtain rfl := Option.some.inj h
    rw [push_of_isOpen hopen]
    exact .reported hphase
  · rename_i event hphase
    rw [if_pos hopen] at h
    obtain rfl := Option.some.inj h
    rw [push_of_isOpen hopen]
    exact .enqueued hphase
  · rename_i event hphase
    obtain rfl := Option.some.inj h
    exact .failed hphase

/-- What a step does while the receiver lives, and goes on to live. -/
inductive Stepped (s : EventChannel) : ChannelAction → EventChannel → Prop
  | clone {i : ℕ} : Stepped s (.clone i) { s with senders := s.senders ++ [.new] }
  | send {i : ℕ} {event : ServiceEvent} {sender : Sender} (hget : s.senders[i]? = some sender)
    (hidle : sender.phase = .idle) :
    Stepped s (.send i event)
      (s.goTo i { sender with offered := sender.offered ++ [event] } (.called event))
  | advance {i : ℕ} {sender : Sender} {s' : EventChannel} (hget : s.senders[i]? = some sender)
    (hadvanced : s.Advanced i sender s') : Stepped s (.advance i) s'
  | drop {i : ℕ} {sender : Sender} (hget : s.senders[i]? = some sender)
    (hidle : sender.phase = .idle) : Stepped s (.drop i) (s.goTo i sender .gone)
  | receive {posted : Posted} {rest : List Posted} (hchannel : s.channel = posted :: rest)
    (howing : s.owing = false) :
    Stepped s .receive
      { s with
        channel := rest
        received := s.received ++ [posted]
        owing := posted.event.kind.isLog }
  | release (howing : s.owing) : Stepped s .release { s with queued := s.queued - 1, owing := false }

theorem isOpen_advance (h : s.advance i sender = some s') : s'.isOpen = s.isOpen := by
  have hpush (posted : Posted) : (s.push posted).isOpen = s.isOpen := by
    unfold push
    split_ifs <;> rfl
  unfold advance at h
  split at h
  · cases h
  · cases h
  · split_ifs at h <;> obtain rfl := Option.some.inj h
    · unfold reserve
      split_ifs <;> rfl
    · exact hpush _
  · obtain rfl := Option.some.inj h
    rfl
  · obtain rfl := Option.some.inj h
    rfl
  · obtain rfl := Option.some.inj h
    rfl
  · obtain rfl := Option.some.inj h
    rfl
  · obtain rfl := Option.some.inj h
    exact hpush _
  · split_ifs at h <;> obtain rfl := Option.some.inj h
    · exact hpush _
    · rfl
  · obtain rfl := Option.some.inj h
    rfl

/-- The receiver lives on unless it is dropped. -/
theorem isOpen_step (hclose : action ≠ .close) (h : s.step action = some s') :
    s'.isOpen = s.isOpen := by
  cases action with
  | clone i | send i event | drop i =>
    simp only [step] at h
    split at h
    · split_ifs at h
      obtain rfl := Option.some.inj h
      rfl
    · cases h
  | advance i =>
    obtain ⟨sender, -, h⟩ := Option.bind_eq_some_iff.mp h
    exact isOpen_advance h
  | receive =>
    obtain ⟨-, h⟩ := Option.ite_none_right_eq_some.mp h
    split at h
    · obtain rfl := Option.some.inj h
      rfl
    · cases h
  | release =>
    obtain ⟨-, h⟩ := Option.ite_none_right_eq_some.mp h
    obtain rfl := Option.some.inj h
    rfl
  | close => exact absurd rfl hclose

/-- A receiver that lives after a step has lived before it. -/
theorem stepped_of_step (h : s.step action = some s') (hopen : s'.isOpen) :
    s.isOpen ∧ s.Stepped action s' := by
  cases action with
  | clone i =>
    simp only [step] at h
    split at h
    · obtain ⟨-, h⟩ := Option.ite_none_left_eq_some.mp h
      obtain rfl := Option.some.inj h
      exact ⟨hopen, .clone⟩
    · cases h
  | send i event =>
    simp only [step] at h
    split at h
    · rename_i sender hget
      obtain ⟨hidle, h⟩ := Option.ite_none_right_eq_some.mp h
      obtain rfl := Option.some.inj h
      exact ⟨hopen, .send hget hidle⟩
    · cases h
  | advance i =>
    obtain ⟨sender, hget, h⟩ := Option.bind_eq_some_iff.mp h
    rw [isOpen_advance h] at hopen
    exact ⟨hopen, .advance hget (advanced_of_advance hopen h)⟩
  | drop i =>
    simp only [step] at h
    split at h
    · rename_i sender hget
      obtain ⟨hidle, h⟩ := Option.ite_none_right_eq_some.mp h
      obtain rfl := Option.some.inj h
      exact ⟨hopen, .drop hget hidle⟩
    · cases h
  | receive =>
    obtain ⟨⟨-, howing⟩, h⟩ := Option.ite_none_right_eq_some.mp h
    split at h
    · rename_i posted rest hchannel
      obtain rfl := Option.some.inj h
      exact ⟨hopen, .receive hchannel howing⟩
    · cases h
  | release =>
    obtain ⟨howing, h⟩ := Option.ite_none_right_eq_some.mp h
    obtain rfl := Option.some.inj h
    exact ⟨hopen, .release howing⟩
  | close =>
    obtain ⟨-, h⟩ := Option.ite_none_right_eq_some.mp h
    obtain rfl := Option.some.inj h
    cases hopen

end EventChannel

end Servicrab
