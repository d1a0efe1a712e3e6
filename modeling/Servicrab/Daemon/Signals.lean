import Servicrab.Core.Lifecycle
import Servicrab.Library.TransitionSystem
import Servicrab.Library.Watch
import Mathlib.Logic.Function.Basic
import Mathlib.Tactic.SplitIfs

/-!
# Signals to the daemon

`serve` claims SIGINT, SIGTERM and SIGHUP with a handler that records the first of them, long before
it has a runtime. Then it installs a `SignalWatcher`, reads what was recorded, and subscribes to the
watcher (`signals.rs`, `unix.rs`, `server.rs`). The handlers of the watcher are chained to the one
that records. A signal may come at any time, and the tasks run at any pace.

The watcher forwards signals through a watch channel, and ends when it finds nobody receiving there.
Between `install` and `subscribe` there is no receiver: the one `install` has made is dropped.

## Main definitions

* `ClaimedSignal`, `record`, `arrived`.
* `InstallPhase`, `Signals`, `Signals.step`, `signalSystem`.

## Main results

* `Signals.stop_of_raise`: no signal is lost, unless the watcher meets that gap.
* `Signals.deaf_of_forward`: a signal it forwards in that gap is lost, and with it every later one.
-/

open TransitionSystem (AnyStep steps_of_run steps_of_run_of_forall)

namespace Servicrab

/-- The signals that are claimed. -/
inductive ClaimedSignal
  | sigint
  | sigterm
  | sighup
  deriving DecidableEq

namespace ClaimedSignal

def number : ClaimedSignal → ℕ
  | sigint => 2
  | sigterm => 15
  | sighup => 1

/-- What the watcher makes of a signal. -/
def reason : ClaimedSignal → ShutdownReason
  | sigint => .userInterrupt
  | sigterm => .terminated
  | sighup => .hangUp

/-- The order in which `install` registers them. -/
def all : List ClaimedSignal := [sigint, sigterm, sighup]

theorem mem_all (signal : ClaimedSignal) : signal ∈ all := by cases signal <;> decide

end ClaimedSignal

/-- The first signal is recorded. -/
def record (early signum : ℕ) : ℕ := if early = 0 then signum else early

/-- The shutdown that was asked for, as far as it was recorded. -/
def arrived (early : ℕ) : Option ShutdownReason :=
  if early = 0 then none
  else if early = ClaimedSignal.sigint.number then some .userInterrupt
  else if early = ClaimedSignal.sighup.number then some .hangUp
  else some .terminated

/-- What was recorded means what the watcher makes of it. -/
@[simp] theorem arrived_number (signal : ClaimedSignal) :
    arrived signal.number = some signal.reason := by
  cases signal <;> rfl

/-- Where `serve` is between claiming the signals and starting the stack. -/
inductive InstallPhase
  /-- The streams for these signals are to be registered. -/
  | registering (left : List ClaimedSignal)
  /-- The task of the watcher is spawned, and `install` is to return. -/
  | spawned
  | installed
  /-- What was recorded has been read. -/
  | looked
  /-- `signal_task` is subscribed to the watcher. -/
  | serving
  deriving DecidableEq

namespace InstallPhase

/-- Whether what was recorded is still to be read. -/
def readsRecord : InstallPhase → Bool
  | registering _ | spawned | installed => true
  | looked | serving => false

/-- The signals for which there is no stream yet. -/
def left : InstallPhase → List ClaimedSignal
  | registering left => left
  | _ => []

theorem readsRecord_of_mem_left {phase : InstallPhase} {signal : ClaimedSignal}
    (h : signal ∈ phase.left) : phase.readsRecord := by
  cases phase with
  | registering => rfl
  | _ => cases h

end InstallPhase

/-- The signals of a process, and what has become of them. -/
structure Signals where
  /-- The number that was recorded, or zero. -/
  early : ℕ
  phase : InstallPhase
  registered : ClaimedSignal → Bool
  /-- The signals the streams have to tell the watcher of. -/
  pending : ClaimedSignal → Bool
  /-- Whether the task of the watcher runs. -/
  watching : Bool
  channel : Watch (Option ShutdownReason)
  /-- Where `signal_task` is in `wait_for_shutdown`. -/
  task : Option (Watch.Waiter ShutdownReason)
  /-- What the supervisor is told. -/
  stop : Option ShutdownReason

inductive SignalAction
  /-- A signal comes. -/
  | raise (signal : ClaimedSignal)
  /-- `serve` goes on. -/
  | proceed
  /-- The watcher takes a signal and sends it on. -/
  | forward (signal : ClaimedSignal)
  /-- `signal_task` looks at the channel. -/
  | look
  /-- `signal_task` sees that the channel has changed. -/
  | wake
  /-- A client sends `shutdown`. -/
  | ask
  deriving DecidableEq

namespace Signals

variable (s : Signals)

/-- `serve` goes on. -/
def proceed : Option Signals :=
  match s.phase with
  | .registering (signal :: left) => some { s with
      phase := .registering left
      registered := Function.update s.registered signal true }
  | .registering [] => some { s with phase := .spawned, watching := true, channel := .new none }
  | .spawned => some { s with phase := .installed, channel := s.channel.unsubscribe }
  | .installed => some { s with phase := .looked, stop := (arrived s.early).or s.stop }
  | .looked => some { s with
      phase := .serving
      channel := s.channel.subscribe
      task := some .looking }
  | .serving => none

/-- The watcher takes a signal and sends it on, or ends. -/
def forward (signal : ClaimedSignal) : Option Signals :=
  if s.watching ∧ s.pending signal then
    let s' := { s with pending := Function.update s.pending signal false }
    match s.channel.send (some signal.reason) with
    | some channel => some { s' with channel := channel }
    | none => some { s' with watching := false }
  else none

/-- `signal_task` looks at the channel. When there is a reason, it sends it on and ends. -/
def look : Option Signals :=
  (s.task.bind (Watch.Waiter.look id s.channel)).map fun task =>
    match task with
    | .got reason => { s with
        task := some (.got reason)
        channel := s.channel.unsubscribe
        stop := some reason }
    | task => { s with task := some task }

def step : SignalAction → Option Signals
  | .raise signal => some { s with
      early := record s.early signal.number
      pending := if s.registered signal then Function.update s.pending signal true else s.pending }
  | .proceed => s.proceed
  | .forward signal => s.forward signal
  | .look => s.look
  | .wake => (s.task.bind (Watch.Waiter.wake s.channel)).map fun task => { s with task := some task }
  | .ask => if s.phase = .serving then some { s with stop := some .terminated } else none

/-- The signals have just been claimed. -/
def claimed : Signals where
  early := 0
  phase := .registering ClaimedSignal.all
  registered _ := false
  pending _ := false
  watching := false
  channel := .new none
  task := none
  stop := none

end Signals

/-- A daemon that starts, and the signals that are sent to it. -/
def signalSystem : TransitionSystem Signals SignalAction where
  init s := s = Signals.claimed
  step s := s.step

namespace Signals

variable {s s' t : Signals} {action : SignalAction} {taken : List SignalAction}

/-! ### What is told was asked for -/

/-- Whether the actions ask for a shutdown for that reason. -/
def Asked (taken : List SignalAction) (reason : ShutdownReason) : Prop :=
  (∃ signal, .raise signal ∈ taken ∧ signal.reason = reason) ∨
    .ask ∈ taken ∧ reason = .terminated

theorem Asked.append {reason : ShutdownReason} (h : Asked taken reason)
    (more : List SignalAction) : Asked (taken ++ more) reason :=
  h.imp (fun ⟨signal, hmem, hreason⟩ => ⟨signal, List.mem_append_left _ hmem, hreason⟩)
    fun ⟨hmem, hreason⟩ => ⟨List.mem_append_left _ hmem, hreason⟩

/-- What was recorded, what is under way and what the supervisor is told was asked for. -/
structure Sound (s : Signals) (taken : List SignalAction) : Prop where
  early : ∀ reason, arrived s.early = some reason → Asked taken reason
  pending : ∀ signal, s.pending signal → .raise signal ∈ taken
  value : ∀ reason, s.channel.value = some reason → Asked taken reason
  stop : ∀ reason, s.stop = some reason → Asked taken reason

theorem Sound.append (h : s.Sound taken) (more : List SignalAction) : s.Sound (taken ++ more) where
  early reason hreason := (h.early reason hreason).append more
  pending signal hsignal := List.mem_append_left _ (h.pending signal hsignal)
  value reason hreason := (h.value reason hreason).append more
  stop reason hreason := (h.stop reason hreason).append more

theorem value_of_send {channel channel' : Watch (Option ShutdownReason)} {reason : ShutdownReason}
    (h : channel.send (some reason) = some channel') : channel'.value = some reason := by
  rw [Watch.send] at h
  split at h <;> cases h
  rfl

theorem Sound.proceed (h : s.Sound taken) (hstep : s.proceed = some s') : s'.Sound taken := by
  rw [Signals.proceed] at hstep
  split at hstep <;> cases hstep
  case h_2 => exact ⟨h.early, h.pending, nofun, h.stop⟩
  case h_4 =>
    refine ⟨h.early, h.pending, h.value, fun reason hreason => ?_⟩
    rcases Option.or_eq_some_iff.mp hreason with hreason | ⟨-, hreason⟩
    · exact h.early reason hreason
    · exact h.stop reason hreason
  all_goals exact ⟨h.early, h.pending, h.value, h.stop⟩

theorem Sound.forward {signal : ClaimedSignal} (h : s.Sound taken)
    (hstep : s.forward signal = some s') : s'.Sound taken := by
  obtain ⟨⟨-, hsignal⟩, hstep⟩ := Option.ite_none_right_eq_some.mp hstep
  have hpending (other : ClaimedSignal) (hother : Function.update s.pending signal false other) :
      .raise other ∈ taken := by
    by_cases heq : other = signal
    · exact heq ▸ h.pending signal hsignal
    · exact h.pending other (by rwa [Function.update_of_ne heq] at hother)
  dsimp only at hstep
  split at hstep <;> cases hstep
  · rename_i channel hsend
    refine ⟨h.early, hpending, fun reason hreason => ?_, h.stop⟩
    obtain rfl := Option.some.inj ((value_of_send hsend).symm.trans hreason)
    exact Or.inl ⟨signal, h.pending signal hsignal, rfl⟩
  · exact ⟨h.early, hpending, h.value, h.stop⟩

/-- What `signal_task` does when it looks. -/
theorem look_cases (hstep : s.look = some s') : s.task = some .looking ∧
    ((∃ reason, s.channel.value = some reason ∧ s' = { s with
        task := some (.got reason)
        channel := s.channel.unsubscribe
        stop := some reason }) ∨
      s.channel.value = none ∧ s' = { s with task := some (.waiting s.channel.version) }) := by
  obtain ⟨task, htask, rfl⟩ := Option.map_eq_some_iff.mp hstep
  obtain ⟨waiter, hwaiter, hlook⟩ := Option.bind_eq_some_iff.mp htask
  cases waiter with
  | looking =>
    obtain rfl := Option.some.inj hlook
    refine ⟨hwaiter, ?_⟩
    cases hvalue : s.channel.value with
    | none => exact Or.inr ⟨rfl, rfl⟩
    | some reason => exact Or.inl ⟨reason, rfl, rfl⟩
  | _ => cases hlook

/-- What it does when it wakes up. -/
theorem wake_cases (hstep : s.step .wake = some s') :
    (∃ seen, s.task = some (.waiting seen)) ∧ s' = { s with task := some .looking } := by
  obtain ⟨task, htask, rfl⟩ := Option.map_eq_some_iff.mp hstep
  obtain ⟨waiter, hwaiter, hwake⟩ := Option.bind_eq_some_iff.mp htask
  cases waiter with
  | waiting seen =>
    obtain ⟨-, hwake⟩ := Option.ite_none_left_eq_some.mp hwake
    obtain rfl := Option.some.inj hwake
    exact ⟨⟨seen, hwaiter⟩, rfl⟩
  | _ => cases hwake

theorem Sound.look (h : s.Sound taken) (hstep : s.look = some s') : s'.Sound taken := by
  obtain ⟨-, ⟨reason, hvalue, rfl⟩ | ⟨-, rfl⟩⟩ := look_cases hstep
  · refine ⟨h.early, h.pending, h.value, fun other hother => ?_⟩
    obtain rfl := Option.some.inj hother
    exact h.value reason hvalue
  · exact ⟨h.early, h.pending, h.value, h.stop⟩

theorem arrived_record (early : ℕ) (signal : ClaimedSignal) :
    arrived (record early signal.number) =
      if early = 0 then some signal.reason else arrived early := by
  rw [record]
  split_ifs
  · exact arrived_number signal
  · rfl

theorem Sound.raise (h : s.Sound taken) (signal : ClaimedSignal)
    (hstep : s.step (.raise signal) = some s') : s'.Sound (taken ++ [.raise signal]) := by
  obtain rfl := Option.some.inj hstep
  have hmem : .raise signal ∈ taken ++ [.raise signal] :=
    List.mem_append_right _ (List.mem_singleton_self _)
  have h' := h.append [.raise signal]
  refine ⟨fun reason hreason => ?_, fun other hother => ?_, h'.value, h'.stop⟩
  · rw [arrived_record] at hreason
    split_ifs at hreason with hzero
    · exact Or.inl ⟨signal, hmem, Option.some.inj hreason⟩
    · exact h'.early reason hreason
  · by_cases heq : other = signal
    · exact heq ▸ hmem
    · refine h'.pending other ?_
      dsimp only at hother
      split_ifs at hother
      · rwa [Function.update_of_ne heq] at hother
      · exact hother

theorem Sound.step (h : s.Sound taken) (hstep : s.step action = some s') :
    s'.Sound (taken ++ [action]) := by
  cases action with
  | raise signal => exact h.raise signal hstep
  | proceed => exact (h.proceed hstep).append _
  | forward signal => exact (h.forward hstep).append _
  | look => exact (h.look hstep).append _
  | wake =>
    obtain ⟨-, rfl⟩ := wake_cases hstep
    have h' := h.append [.wake]
    exact ⟨h'.early, h'.pending, h'.value, h'.stop⟩
  | ask =>
    obtain ⟨-, hstep⟩ := Option.ite_none_right_eq_some.mp hstep
    obtain rfl := Option.some.inj hstep
    have h' := h.append [.ask]
    refine ⟨h'.early, h'.pending, h'.value, fun reason hreason => Or.inr ?_⟩
    obtain rfl := Option.some.inj hreason
    exact ⟨List.mem_append_right _ (List.mem_singleton_self _), rfl⟩

/-! ### What was asked for is told -/

/-- Whether the watcher leaves the gap alone in which nobody receives what it sends. -/
def isTimely (s : Signals) : SignalAction → Bool
  | .forward _ => s.phase ≠ .looked
  | _ => true

/-- The tasks have nothing to do. -/
def Quiet (s : Signals) : Prop :=
  (∀ signal, s.step (.forward signal) = none) ∧ s.step .look = none ∧ s.step .wake = none


/-- `signal_task` does not miss what is sent to it. -/
structure Waits (s : Signals) : Prop where
  task : s.task.isSome ↔ s.phase = .serving
  got : ∀ reason, s.task = some (.got reason) → s.stop.isSome
  receives : s.phase = .serving →
    (∃ reason, s.task = some (.got reason)) ∨ s.channel.receivers ≠ 0
  awake : ∀ waiter, s.task = some waiter → waiter.Awake id s.channel

theorem Waits.of_none (hnone : s.task = none) (hphase : s.phase ≠ .serving) : s.Waits where
  task := by simp [hnone, hphase]
  got reason hgot := by rw [hnone] at hgot; cases hgot
  receives hserving := absurd hserving hphase
  awake waiter htask := by rw [hnone] at htask; cases htask

theorem Waits.task_eq_none (h : s.Waits) (hphase : s.phase ≠ .serving) : s.task = none :=
  Option.not_isSome_iff_eq_none.mp fun hsome => hphase (h.task.mp hsome)

/-- `signal_task` goes on, and has not got anything yet. -/
theorem Waits.goOn (h : s.Waits) {before after : Watch.Waiter ShutdownReason}
    (hbefore : s.task = some before) (hwaits : ∀ reason, before ≠ .got reason)
    (hafter : ∀ reason, after ≠ .got reason) (hawake : after.Awake id s.channel) :
    Waits { s with task := some after } where
  task := iff_of_true rfl (h.task.mp (by rw [hbefore]; rfl))
  got reason hgot := absurd (Option.some.inj hgot) (hafter reason)
  receives hserving := by
    refine Or.inr ((h.receives hserving).resolve_left ?_)
    rintro ⟨reason, hgot⟩
    exact hwaits reason (Option.some.inj (hbefore.symm.trans hgot))
  awake waiter hwaiter := Option.some.inj hwaiter ▸ hawake

/-- The supervisor is told, or it will be. -/
def Heard (s : Signals) : Prop :=
  s.phase.readsRecord ∨ s.stop.isSome ∨ (∃ signal, s.pending signal) ∨ s.channel.value.isSome

/-- What was recorded does not get lost. -/
structure Heeds (s : Signals) : Prop where
  registered : ∀ signal, s.registered signal ∨ signal ∈ s.phase.left
  heard : s.early ≠ 0 → s.Heard
  /-- What is under way was recorded. -/
  recorded : (∃ signal, s.pending signal) ∨ s.channel.value.isSome → s.early ≠ 0
  /-- The watcher does not end too early. -/
  watching : s.watching = false → (∃ left, s.phase = .registering left) ∨
    (s.phase.readsRecord ∧ s.early ≠ 0) ∨ s.stop.isSome
  waits : s.Waits

theorem heeds_claimed : claimed.Heeds where
  registered signal := Or.inr signal.mem_all
  heard h := absurd rfl h
  recorded := by simp [claimed, Watch.new]
  watching _ := Or.inl ⟨_, rfl⟩
  waits := .of_none rfl (by simp [claimed])

theorem record_ne_zero (early : ℕ) (signal : ClaimedSignal) : record early signal.number ≠ 0 := by
  rw [record]
  split_ifs with h
  · cases signal <;> decide
  · exact h

theorem isSome_arrived {early : ℕ} (h : early ≠ 0) : (arrived early).isSome := by
  rw [arrived, if_neg h]
  split_ifs <;> rfl

theorem Heeds.raise (h : s.Heeds) (signal : ClaimedSignal)
    (hstep : s.step (.raise signal) = some s') : s'.Heeds := by
  obtain rfl := Option.some.inj hstep
  refine ⟨h.registered, fun _ => ?_, fun _ => record_ne_zero _ _, fun hwatching => ?_,
    ⟨h.waits.task, h.waits.got, h.waits.receives, h.waits.awake⟩⟩
  · rcases h.registered signal with hregistered | hleft
    · refine Or.inr (Or.inr (Or.inl ⟨signal, ?_⟩))
      dsimp only
      rw [if_pos hregistered, Function.update_self]
    · exact Or.inl (InstallPhase.readsRecord_of_mem_left hleft)
  · rcases h.watching hwatching with hphase | ⟨hreads, -⟩ | hstop
    · exact Or.inl hphase
    · exact Or.inr (Or.inl ⟨hreads, record_ne_zero _ _⟩)
    · exact Or.inr (Or.inr hstop)

theorem Heeds.proceed (h : s.Heeds) (hstep : s.proceed = some s') : s'.Heeds := by
  have hregistered (signal : ClaimedSignal) (hnil : s.phase.left = []) :
      s.registered signal ∨ signal ∈ [] := hnil ▸ h.registered signal
  rw [Signals.proceed] at hstep
  split at hstep
  case h_1 signal left hphase =>
    obtain rfl := Option.some.inj hstep
    have hnone := h.waits.task_eq_none (by rw [hphase]; simp)
    refine ⟨fun other => ?_, fun _ => Or.inl rfl, h.recorded, fun _ => Or.inl ⟨left, rfl⟩,
      .of_none hnone (by simp)⟩
    by_cases heq : other = signal
    · subst heq
      exact Or.inl (Function.update_self ..)
    · refine (h.registered other).imp (fun hold => ?_) fun hleft => ?_
      · exact (Function.update_of_ne heq ..).trans hold
      · rw [hphase] at hleft
        exact (List.mem_cons.mp hleft).resolve_left heq
  case h_2 hphase =>
    obtain rfl := Option.some.inj hstep
    have hnone := h.waits.task_eq_none (by rw [hphase]; simp)
    refine ⟨fun signal => hregistered signal (by rw [hphase]; rfl), fun _ => Or.inl rfl,
      fun hunder => h.recorded (Or.inl ?_), nofun, .of_none hnone (by simp)⟩
    exact hunder.resolve_right (by simp [Watch.new])
  case h_3 hphase =>
    obtain rfl := Option.some.inj hstep
    have hnone := h.waits.task_eq_none (by rw [hphase]; simp)
    refine ⟨fun signal => hregistered signal (by rw [hphase]; rfl), fun _ => Or.inl rfl, h.recorded,
      fun hwatching => ?_, .of_none hnone (by simp)⟩
    rcases h.watching hwatching with ⟨left, hleft⟩ | ⟨-, hearly⟩ | hstop
    · rw [hphase] at hleft
      cases hleft
    · exact Or.inr (Or.inl ⟨rfl, hearly⟩)
    · exact Or.inr (Or.inr hstop)
  case h_4 hphase =>
    obtain rfl := Option.some.inj hstep
    have hnone := h.waits.task_eq_none (by rw [hphase]; simp)
    have htold (hearly : s.early ≠ 0) : ((arrived s.early).or s.stop).isSome := by
      rw [Option.isSome_or, isSome_arrived hearly, Bool.true_or]
    refine ⟨fun signal => hregistered signal (by rw [hphase]; rfl), fun hearly => ?_, h.recorded,
      fun hwatching => ?_, .of_none hnone (by simp)⟩
    · exact Or.inr (Or.inl (htold hearly))
    · rcases h.watching hwatching with ⟨left, hleft⟩ | ⟨-, hearly⟩ | hstop
      · rw [hphase] at hleft
        cases hleft
      · exact Or.inr (Or.inr (htold hearly))
      · exact Or.inr (Or.inr (by rw [Option.isSome_or, hstop, Bool.or_true]))
  case h_5 hphase =>
    obtain rfl := Option.some.inj hstep
    refine ⟨fun signal => hregistered signal (by rw [hphase]; rfl), fun hearly => ?_, h.recorded,
      fun hwatching => ?_, ⟨by simp, nofun, fun _ => Or.inr (Nat.succ_ne_zero _), ?_⟩⟩
    · refine Or.inr ((h.heard hearly).resolve_left ?_)
      rw [hphase]
      exact Bool.false_ne_true
    · rcases h.watching hwatching with ⟨left, hleft⟩ | ⟨hreads, -⟩ | hstop
      · rw [hphase] at hleft
        cases hleft
      · rw [hphase] at hreads
        cases hreads
      · exact Or.inr (Or.inr hstop)
    · rintro waiter htask
      obtain rfl := Option.some.inj htask
      trivial
  case h_6 => cases hstep

theorem Heeds.forward {signal : ClaimedSignal} (h : s.Heeds) (htimely : s.phase ≠ .looked)
    (hstep : s.forward signal = some s') : s'.Heeds := by
  obtain ⟨⟨hwatching, hsignal⟩, hstep⟩ := Option.ite_none_right_eq_some.mp hstep
  have hearly : s.early ≠ 0 := h.recorded (Or.inl ⟨signal, hsignal⟩)
  dsimp only at hstep
  split at hstep <;> cases hstep
  · rename_i channel hsend
    have hvalue : channel.value.isSome := by rw [value_of_send hsend]; rfl
    have hreceivers : channel.receivers = s.channel.receivers := by
      rw [Watch.send] at hsend
      split at hsend <;> cases hsend
      rfl
    refine ⟨h.registered, fun _ => Or.inr (Or.inr (Or.inr hvalue)), fun _ => hearly, h.watching,
      ⟨h.waits.task, h.waits.got, fun hserving => ?_, fun waiter htask => ?_⟩⟩
    · exact hreceivers ▸ h.waits.receives hserving
    · exact (h.waits.awake waiter htask).send hsend
  · rename_i hsend
    have hnobody : s.channel.receivers = 0 := by
      rw [Watch.send] at hsend
      split at hsend
      · assumption
      · cases hsend
    -- Nobody receives, so the record is still to be read or `signal_task` has what it wants.
    have htold : s.phase.readsRecord ∨ s.stop.isSome := by
      cases hphase : s.phase with
      | looked => exact absurd hphase htimely
      | serving =>
        obtain ⟨reason, hgot⟩ := (h.waits.receives hphase).resolve_right (not_not_intro hnobody)
        exact Or.inr (h.waits.got reason hgot)
      | _ => exact Or.inl rfl
    refine ⟨h.registered, fun _ => ?_, fun _ => hearly, fun _ => Or.inr ?_,
      ⟨h.waits.task, h.waits.got, h.waits.receives, h.waits.awake⟩⟩
    · exact htold.imp_right Or.inl
    · exact htold.imp_left fun hreads => ⟨hreads, hearly⟩

theorem Heeds.look (h : s.Heeds) (hstep : s.look = some s') : s'.Heeds := by
  obtain ⟨htask, hcases⟩ := look_cases hstep
  have hserving : s.phase = .serving := h.waits.task.mp (by rw [htask]; rfl)
  obtain ⟨reason, hvalue, rfl⟩ | ⟨hvalue, rfl⟩ := hcases
  · refine ⟨h.registered, fun _ => Or.inr (Or.inl rfl), h.recorded, fun _ => Or.inr (Or.inr rfl),
      ⟨by simp [hserving], fun _ _ => rfl, fun _ => Or.inl ⟨reason, rfl⟩, ?_⟩⟩
    intro waiter hwaiter
    obtain rfl := Option.some.inj hwaiter
    trivial
  · refine ⟨h.registered, h.heard, h.recorded, h.watching, h.waits.goOn htask (by simp) (by simp) ?_⟩
    have hlook : Watch.Waiter.looking.look id s.channel = some (.waiting s.channel.version) := by
      simp [Watch.Waiter.look, hvalue]
    exact Watch.Waiter.awake_look hlook

theorem Heeds.step (h : s.Heeds) (htimely : s.isTimely action)
    (hstep : s.step action = some s') : s'.Heeds := by
  cases action with
  | raise signal => exact h.raise signal hstep
  | proceed => exact h.proceed hstep
  | forward signal => exact h.forward (by simpa [isTimely] using htimely) hstep
  | look => exact h.look hstep
  | wake =>
    obtain ⟨⟨seen, htask⟩, rfl⟩ := wake_cases hstep
    exact ⟨h.registered, h.heard, h.recorded, h.watching,
      h.waits.goOn htask (by simp) (by simp) trivial⟩
  | ask =>
    obtain ⟨hserving, hstep⟩ := Option.ite_none_right_eq_some.mp hstep
    obtain rfl := Option.some.inj hstep
    exact ⟨h.registered, fun _ => Or.inr (Or.inl rfl), h.recorded, fun _ => Or.inr (Or.inr rfl),
      ⟨h.waits.task, fun _ _ => rfl, h.waits.receives, h.waits.awake⟩⟩

/-- What is recorded or asked for. -/
structure Told (s : Signals) (taken : List SignalAction) : Prop where
  raised : ∀ signal, .raise signal ∈ taken → s.early ≠ 0
  asked : .ask ∈ taken → s.stop.isSome

/-- What was recorded stays so, and what the supervisor was told. -/
theorem keeps_of_step (hstep : s.step action = some s') :
    (s.early ≠ 0 → s'.early ≠ 0) ∧ (s.stop.isSome → s'.stop.isSome) := by
  cases action with
  | raise signal =>
    obtain rfl := Option.some.inj hstep
    exact ⟨fun _ => record_ne_zero _ _, id⟩
  | proceed =>
    rw [Signals.step, proceed] at hstep
    split at hstep <;> cases hstep
    case h_4 => exact ⟨id, fun hstop => by rw [Option.isSome_or, hstop, Bool.or_true]⟩
    all_goals exact ⟨id, id⟩
  | forward signal =>
    obtain ⟨-, hstep⟩ := Option.ite_none_right_eq_some.mp hstep
    dsimp only at hstep
    split at hstep <;> cases hstep
    all_goals exact ⟨id, id⟩
  | look =>
    obtain ⟨-, ⟨reason, -, rfl⟩ | ⟨-, rfl⟩⟩ := look_cases hstep
    · exact ⟨id, fun _ => rfl⟩
    · exact ⟨id, id⟩
  | wake =>
    obtain ⟨-, rfl⟩ := wake_cases hstep
    exact ⟨id, id⟩
  | ask =>
    obtain ⟨-, hstep⟩ := Option.ite_none_right_eq_some.mp hstep
    obtain rfl := Option.some.inj hstep
    exact ⟨id, fun _ => rfl⟩

theorem Told.step (h : s.Told taken) (hstep : s.step action = some s') :
    s'.Told (taken ++ [action]) where
  raised signal hmem := by
    rcases List.mem_append.mp hmem with hmem | hmem
    · exact (keeps_of_step hstep).1 (h.raised signal hmem)
    · obtain rfl := List.mem_singleton.mp hmem
      obtain rfl := Option.some.inj hstep
      exact record_ne_zero _ _
  asked hmem := by
    rcases List.mem_append.mp hmem with hmem | hmem
    · exact (keeps_of_step hstep).2 (h.asked hmem)
    · obtain rfl := List.mem_singleton.mp hmem
      obtain ⟨-, hstep⟩ := Option.ite_none_right_eq_some.mp hstep
      obtain rfl := Option.some.inj hstep
      rfl

/-- When the tasks have nothing to do, what was recorded has been told. -/
theorem Heeds.stop_of_quiet (h : s.Heeds) (hserving : s.phase = .serving) (hquiet : s.Quiet)
    (hearly : s.early ≠ 0) : s.stop.isSome := by
  rcases h.heard hearly with hreads | hstop | ⟨signal, hpending⟩ | hvalue
  · rw [hserving] at hreads
    cases hreads
  · exact hstop
  · -- The watcher does not take it, so it has ended.
    have hwatching : s.watching = false := by
      by_contra hwatching
      have hforward := hquiet.1 signal
      rw [Signals.step, Signals.forward, if_pos ⟨Bool.of_not_eq_false hwatching, hpending⟩] at hforward
      dsimp only at hforward
      split at hforward <;> cases hforward
    rcases h.watching hwatching with ⟨left, hleft⟩ | ⟨hreads, -⟩ | hstop
    · rw [hserving] at hleft
      cases hleft
    · rw [hserving] at hreads
      cases hreads
    · exact hstop
  · obtain ⟨waiter, htask⟩ := Option.isSome_iff_exists.mp (h.waits.task.mpr hserving)
    have hlook : waiter.look id s.channel = none := by
      have hlook := Option.map_eq_none_iff.mp hquiet.2.1
      rwa [htask] at hlook
    have hwake : waiter.wake s.channel = none := by
      have hwake := Option.map_eq_none_iff.mp hquiet.2.2
      rwa [htask] at hwake
    rcases (h.waits.awake waiter htask).eq_of_stuck hlook hwake with ⟨reason, rfl⟩ | hnone
    · exact h.waits.got reason htask
    · rw [show s.channel.value = none from hnone] at hvalue
      cases hvalue

/-- **No signal is lost.** A signal may come at any time after `claim`, and the tasks may run at any
pace: as long as the watcher sends nothing on in the gap between reading what was recorded and
subscribing, once `serve` has come through and the tasks have nothing to do, the supervisor has been
told to stop if and only if there was a signal or a request to shut down, and for what reason. -/
theorem stop_of_raise {actions : List SignalAction}
    (hrun : signalSystem.checkedRun isTimely claimed actions = some s)
    (hserving : s.phase = .serving) (hquiet : s.Quiet) :
    (s.stop.isSome ↔ ∃ reason, Asked actions reason) ∧
      ∀ reason, s.stop = some reason → Asked actions reason := by
  have hinit : claimed.Sound [] ∧ claimed.Heeds ∧ claimed.Told [] :=
    ⟨⟨nofun, nofun, nofun, nofun⟩, heeds_claimed, ⟨nofun, nofun⟩⟩
  obtain ⟨hsound, hheeds, htold⟩ : s.Sound actions ∧ s.Heeds ∧ s.Told actions := by
    refine TransitionSystem.checkedRun_induction
      (I := fun s taken => s.Sound taken ∧ s.Heeds ∧ s.Told taken) ?_ hinit hrun
    rintro u action v taken htimely hstep ⟨hsound, hheeds, htold⟩
    exact ⟨hsound.step hstep, hheeds.step htimely hstep, htold.step hstep⟩
  refine ⟨⟨fun hstop => ?_, ?_⟩, hsound.stop⟩
  · obtain ⟨reason, hreason⟩ := Option.isSome_iff_exists.mp hstop
    exact ⟨reason, hsound.stop reason hreason⟩
  · rintro ⟨reason, ⟨signal, hraised, -⟩ | ⟨hasked, -⟩⟩
    · exact hheeds.stop_of_quiet hserving hquiet (htold.raised signal hraised)
    · exact htold.asked hasked

/-- A signal comes when the daemon serves. -/
def sampleSignals : List SignalAction :=
  [.proceed, .proceed, .proceed, .proceed, .proceed, .proceed, .proceed, .look, .raise .sighup,
    .forward .sighup, .wake, .look]

theorem stop_of_raise_sample : ∃ s : Signals,
    signalSystem.checkedRun isTimely claimed sampleSignals = some s ∧ s.stop = some .hangUp ∧
      ∀ reason, s.stop = some reason → Asked sampleSignals reason := by
  obtain ⟨s, hrun, hserving, hstop, hquiet⟩ : ∃ s : Signals,
      signalSystem.checkedRun isTimely claimed sampleSignals = some s ∧ s.phase = .serving ∧
        s.stop = some .hangUp ∧ s.Quiet :=
    ⟨_, rfl, rfl, rfl, fun signal => by cases signal <;> rfl, rfl, rfl⟩
  exact ⟨s, hrun, hstop, (stop_of_raise hrun hserving hquiet).2⟩

/-! ### The gap -/

/-- What the watcher meets before `signal_task` is subscribed. -/
structure Unsubscribed (s : Signals) : Prop where
  pending : ∀ signal, s.pending signal → s.early ≠ 0
  task : s.phase ≠ .serving → s.task = none
  spawned : s.phase = .spawned → s.channel.receivers = 1
  nobody : s.phase = .installed ∨ s.phase = .looked → s.channel.receivers = 0
  value : s.phase.readsRecord → s.channel.value.isSome → s.early ≠ 0
  told : s.phase = .looked → s.channel.value.isSome → s.stop.isSome

theorem unsubscribed_claimed : claimed.Unsubscribed where
  pending := nofun
  task _ := rfl
  spawned := nofun
  nobody := by simp [claimed]
  value _ := nofun
  told := nofun

theorem Unsubscribed.proceed (h : s.Unsubscribed) (hstep : s.proceed = some s') :
    s'.Unsubscribed := by
  rw [Signals.proceed] at hstep
  split at hstep <;> cases hstep
  case h_1 signal left hphase =>
    exact ⟨h.pending, fun _ => h.task (by simp [hphase]), nofun, by simp,
      fun _ => h.value (by rw [hphase]; rfl), nofun⟩
  case h_2 hphase =>
    exact ⟨h.pending, fun _ => h.task (by simp [hphase]), fun _ => rfl, by simp, fun _ => nofun, nofun⟩
  case h_3 hphase =>
    refine ⟨h.pending, fun _ => h.task (by simp [hphase]), nofun, fun _ => ?_,
      fun _ => h.value (by rw [hphase]; rfl), nofun⟩
    exact congrArg (· - 1) (h.spawned hphase)
  case h_4 hphase =>
    refine ⟨h.pending, fun _ => h.task (by simp [hphase]), nofun,
      fun _ => h.nobody (Or.inl hphase), nofun, fun _ hvalue => ?_⟩
    have hearly : s.early ≠ 0 := h.value (by rw [hphase]; rfl) hvalue
    rw [Option.isSome_or, isSome_arrived hearly, Bool.true_or]
  case h_5 hphase => exact ⟨h.pending, by simp, nofun, by simp, nofun, nofun⟩

theorem Unsubscribed.forward {signal : ClaimedSignal} (h : s.Unsubscribed)
    (hstep : s.forward signal = some s') : s'.Unsubscribed := by
  obtain ⟨⟨-, hsignal⟩, hstep⟩ := Option.ite_none_right_eq_some.mp hstep
  have hearly : s.early ≠ 0 := h.pending signal hsignal
  dsimp only at hstep
  split at hstep <;> cases hstep
  · rename_i channel hsend
    obtain ⟨hsome, rfl⟩ : s.channel.receivers ≠ 0 ∧ channel =
        { s.channel with value := some signal.reason, version := s.channel.version + 1 } := by
      obtain ⟨hsome, hsend⟩ := Option.ite_none_left_eq_some.mp hsend
      exact ⟨hsome, (Option.some.inj hsend).symm⟩
    exact ⟨fun _ _ => hearly, h.task, h.spawned, h.nobody, fun _ _ => hearly,
      fun hlooked => absurd (h.nobody (Or.inr hlooked)) hsome⟩
  · exact ⟨fun _ _ => hearly, h.task, h.spawned, h.nobody, h.value, h.told⟩

theorem Unsubscribed.step (h : s.Unsubscribed) (hstep : s.step action = some s') :
    s'.Unsubscribed := by
  have hserving {waiter : Watch.Waiter ShutdownReason} (htask : s.task = some waiter) :
      s.phase = .serving := by
    by_contra hphase
    rw [h.task hphase] at htask
    cases htask
  cases action with
  | raise signal =>
    obtain rfl := Option.some.inj hstep
    exact ⟨fun _ _ => record_ne_zero _ _, h.task, h.spawned, h.nobody,
      fun _ _ => record_ne_zero _ _, h.told⟩
  | proceed => exact h.proceed hstep
  | forward signal => exact h.forward hstep
  | look =>
    obtain ⟨htask, ⟨reason, -, rfl⟩ | ⟨-, rfl⟩⟩ := look_cases hstep
    all_goals exact ⟨h.pending, fun hne => absurd (hserving htask) hne,
      by simp [hserving htask], by simp [hserving htask], h.value, by simp [hserving htask]⟩
  | wake =>
    obtain ⟨⟨seen, htask⟩, rfl⟩ := wake_cases hstep
    exact ⟨h.pending, fun hne => absurd (hserving htask) hne, h.spawned, h.nobody, h.value, h.told⟩
  | ask =>
    obtain ⟨-, hstep⟩ := Option.ite_none_right_eq_some.mp hstep
    obtain rfl := Option.some.inj hstep
    exact ⟨h.pending, h.task, h.spawned, h.nobody, h.value, fun _ _ => rfl⟩

theorem unsubscribed_of_reachable (h : signalSystem.Reachable AnyStep s) : s.Unsubscribed :=
  h.invariant (fun hinit => by rw [hinit]; exact unsubscribed_claimed)
    fun _ hI _ hstep => hI.step hstep

/-- The watcher has ended, and nobody will be told of any signal. -/
structure Deaf (s : Signals) : Prop where
  phase : s.phase = .looked ∨ s.phase = .serving
  watching : s.watching = false
  value : s.channel.value = none
  stop : s.stop = none

theorem Deaf.step (h : s.Deaf) (hask : action ≠ .ask) (hstep : s.step action = some s') :
    s'.Deaf := by
  cases action with
  | raise signal =>
    obtain rfl := Option.some.inj hstep
    exact ⟨h.phase, h.watching, h.value, h.stop⟩
  | proceed =>
    rw [Signals.step, Signals.proceed] at hstep
    rcases h.phase with hphase | hphase
    · rw [hphase] at hstep
      obtain rfl := Option.some.inj hstep
      exact ⟨Or.inr rfl, h.watching, h.value, h.stop⟩
    · rw [hphase] at hstep
      cases hstep
  | forward signal =>
    obtain ⟨⟨hwatching, -⟩, -⟩ := Option.ite_none_right_eq_some.mp hstep
    rw [h.watching] at hwatching
    cases hwatching
  | look =>
    obtain ⟨-, ⟨reason, hvalue, -⟩ | ⟨-, rfl⟩⟩ := look_cases hstep
    · rw [h.value] at hvalue
      cases hvalue
    · exact ⟨h.phase, h.watching, h.value, h.stop⟩
  | wake =>
    obtain ⟨-, rfl⟩ := wake_cases hstep
    exact ⟨h.phase, h.watching, h.value, h.stop⟩
  | ask => exact absurd rfl hask

/-- **The gap loses signals.** When the watcher sends a signal on between the reading of what was
recorded and the subscription, and nothing was recorded when it was read, nobody receives it and the
task of the watcher ends. The daemon goes on serving, and no signal will ever stop it: only a client
can. -/
theorem deaf_of_forward (h : signalSystem.Reachable AnyStep s) (hphase : s.phase = .looked)
    (hstop : s.stop = none) {signal : ClaimedSignal}
    (hforward : s.step (.forward signal) = some s') :
    s.channel.send (some signal.reason) = none ∧ s'.watching = false ∧
      ∀ t, signalSystem.Steps (fun _ action _ => action ≠ .ask) s' t →
        t.watching = false ∧ t.stop = none := by
  have hgap := unsubscribed_of_reachable h
  have hvalue : s.channel.value = none := by
    refine Option.not_isSome_iff_eq_none.mp fun hsome => ?_
    have hstop' := hgap.told hphase hsome
    rw [hstop] at hstop'
    cases hstop'
  have hnobody : s.channel.send (some signal.reason) = none := if_pos (hgap.nobody (Or.inr hphase))
  have hdeaf : s'.Deaf := by
    obtain ⟨-, hforward⟩ := Option.ite_none_right_eq_some.mp hforward
    dsimp only at hforward
    rw [hnobody] at hforward
    obtain rfl := Option.some.inj hforward
    exact ⟨Or.inl hphase, rfl, hvalue, hstop⟩
  refine ⟨hnobody, hdeaf.watching, fun t ht => ?_⟩
  have hlater : t.Deaf := ht.invariant hdeaf fun _ hI hask hstep => hI.step hask hstep
  exact ⟨hlater.watching, hlater.stop⟩

/-- The first SIGTERM falls into the gap, and the ones that follow do nothing. -/
theorem deaf_of_forward_sample : ∃ s s' t : Signals,
    signalSystem.run claimed [.proceed, .proceed, .proceed, .proceed, .proceed, .proceed,
      .raise .sigterm] = some s ∧ s.step (.forward .sigterm) = some s' ∧
      signalSystem.run s' [.proceed, .look, .raise .sigterm] = some t ∧ t.phase = .serving ∧
      s.channel.send (some .terminated) = none ∧ t.watching = false ∧ t.stop = none := by
  obtain ⟨s, s', t, hs, hphase, hstop, hs', ht, hserving⟩ : ∃ s s' t : Signals,
      signalSystem.run claimed [.proceed, .proceed, .proceed, .proceed, .proceed, .proceed,
        .raise .sigterm] = some s ∧ s.phase = .looked ∧ s.stop = none ∧
        s.step (.forward .sigterm) = some s' ∧
        signalSystem.run s' [.proceed, .look, .raise .sigterm] = some t ∧ t.phase = .serving :=
    ⟨_, _, _, rfl, rfl, rfl, rfl, rfl, rfl⟩
  obtain ⟨hnobody, -, hlater⟩ := deaf_of_forward ⟨claimed, rfl, steps_of_run hs⟩ hphase hstop hs'
  obtain ⟨hwatching, hnever⟩ := hlater t (steps_of_run_of_forall (by simp) ht)
  exact ⟨s, s', t, hs, hs', ht, hserving, hnobody, hwatching, hnever⟩

end Signals

end Servicrab
