import Servicrab.Core.Readiness
import Servicrab.Core.Status

/-!
# Two folds of the same events

Whoever asks the registry whether a service is up goes by the state and the health in its entry. A
dependent goes by the status that `ReadinessTracker` folds from the same events. The two differ in
what they make of the end of a process that was stopped as unhealthy, which is a verdict of its own
for the tracker, and in that a status is wiped when its service is started again, which no event
says.

`Attuned` relates a status to an entry that has heard the same events, or that waits while the
status has heard nothing yet. Both are judged alike then. A service can be started again while its
entry still tells how an earlier run went, and lags behind until the new run is heard of.

## Main definitions

* `Outlook`: what an entry says about the readiness of its service.
* `LastWord`: the last word on the health of a process.
* `Attuned`, `DependencyStatus.Expects`.

## Main results

* `Attuned.hear`: the folds stay attuned as long as they hear what is expected.
* `Attuned.readiness_eq`.
-/

namespace Servicrab

/-! ### Entries -/

/-- The two fields of an entry that a client goes by. -/
structure Outlook where
  state : ServiceState
  health : Health
  deriving DecidableEq, Repr

def StatusEntry.outlook (entry : StatusEntry) : Outlook := ⟨entry.state, entry.health⟩

namespace Outlook

variable {outlook : Outlook}

/-- What an event does to the two fields. -/
def observe (outlook : Outlook) (kind : EventKind) : Outlook :=
  match kind with
  | .state .starting => ⟨.starting, if outlook.health = .none then .none else .starting⟩
  | .state state => ⟨state, outlook.health⟩
  | .healthy => ⟨outlook.state, .healthy⟩
  | .unhealthy _ => ⟨outlook.state, .unhealthy⟩
  | _ => outlook

/-- The answer of the default condition, as far as the two fields can tell. -/
def readiness (outlook : Outlook) : Readiness :=
  match outlook.state, outlook.health with
  | .running, .none | .running, .healthy => .ready
  | .exited, .unhealthy => .gone
  | .exited, _ => .ready
  | .failed, _ | .stopped, _ => .gone
  | _, _ => .pending

/-- Whether the service is on its way: neither has it ended, nor is it up and well. -/
def waits (outlook : Outlook) : Bool :=
  match outlook.state with
  | .pending | .starting | .backoff | .stopping => true
  | .running => outlook.health = .starting || outlook.health = .unhealthy
  | .stopped | .exited | .failed => false

theorem readiness_of_waits (h : outlook.waits) : outlook.readiness = .pending := by
  obtain ⟨state, health⟩ := outlook
  cases state <;> cases health <;> first | rfl | cases h

/-- An event that is neither a state nor a verdict leaves both fields alone. -/
theorem observe_of_mute {kind : EventKind} (hstate : ∀ state, kind ≠ .state state)
    (hverdict : kind.isHealthVerdict = false) : outlook.observe kind = outlook := by
  cases kind with
  | state state => exact absurd rfl (hstate state)
  | healthy | unhealthy => cases hverdict
  | _ => rfl

theorem observe_state_ne {state : ServiceState} (h : state ≠ .starting) :
    outlook.observe (.state state) = ⟨state, outlook.health⟩ := by
  cases state <;> first | rfl | exact absurd rfl h

/-- Only a verdict tells an entry that there is a health check. -/
theorem health_observe_eq_none {kind : EventKind} (h : kind.isHealthVerdict = false) :
    (outlook.observe kind).health = .none ↔ outlook.health = .none := by
  cases kind with
  | healthy | unhealthy => cases h
  | state state =>
    by_cases hstate : state = .starting
    · subst hstate
      simp only [observe]
      split_ifs <;> simp_all
    · rw [observe_state_ne hstate]
  | _ => rfl

/-- No event makes an entry forget that there is a health check. -/
theorem health_observe_ne_none {kind : EventKind} (h : outlook.health ≠ .none) :
    (outlook.observe kind).health ≠ .none := by
  by_cases hverdict : kind.isHealthVerdict
  · cases kind <;> simp_all [EventKind.isHealthVerdict, observe]
  · rwa [Ne, health_observe_eq_none (by simpa using hverdict)]

/-- What the events about a service do to the two fields. -/
def observeAll (outlook : Outlook) (name : ServiceName) (events : List ServiceEvent) : Outlook :=
  ((events.filter fun event => event.service = name).map ServiceEvent.kind).foldl observe outlook

variable {name : ServiceName} {declared : Bool}

theorem observeAll_append (events events' : List ServiceEvent) :
    outlook.observeAll name (events ++ events') =
      (outlook.observeAll name events).observeAll name events' := by
  simp only [observeAll, List.filter_append, List.map_append, List.foldl_append]

theorem observeAll_cons (event : ServiceEvent) (events : List ServiceEvent) :
    outlook.observeAll name (event :: events) =
      (if event.service = name then outlook.observe event.kind else outlook).observeAll name
        events := by
  by_cases he : event.service = name <;> simp [observeAll, he]

/-- The events of a task are all about one service. -/
theorem observeAll_mk (kinds : List EventKind) (service : ServiceName) :
    outlook.observeAll name (kinds.map (ServiceEvent.mk service)) =
      if service = name then kinds.foldl observe outlook else outlook := by
  rw [observeAll, kinds_filter_mk]
  split_ifs <;> rfl

/-- An entry that goes by its declaration still does if the verdicts come from a health check that
is declared. -/
theorem health_observeAll_eq_none {events : List ServiceEvent}
    (hevents : ∀ event ∈ events, event.service = name → event.kind.isHealthVerdict → declared)
    (h : outlook.health = .none ↔ declared = false) :
    (outlook.observeAll name events).health = .none ↔ declared = false := by
  induction events generalizing outlook with
  | nil => exact h
  | cons event events ih =>
    rw [observeAll_cons]
    refine ih (fun e he => hevents e (List.mem_cons_of_mem _ he)) ?_
    split_ifs with hname
    · by_cases hverdict : event.kind.isHealthVerdict
      · have hdeclared := hevents event List.mem_cons_self hname hverdict
        simp only [hdeclared, Bool.true_eq_false, iff_false] at h ⊢
        exact health_observe_ne_none h
      · rw [health_observe_eq_none (by simpa using hverdict), h]
    · exact h

end Outlook

namespace StatusEntry

/-- An event does the same to the two fields whenever it is folded in. -/
theorem outlook_apply (entry : StatusEntry) (now : Instant) (kind : EventKind) :
    (entry.apply now kind).outlook = entry.outlook.observe kind := by
  cases kind with
  | state state => cases state <;> rfl
  | _ => rfl

theorem health_apply (entry : StatusEntry) (now : Instant) (kind : EventKind) :
    (entry.apply now kind).health = (entry.outlook.observe kind).health :=
  congrArg Outlook.health (outlook_apply entry now kind)

theorem health_new_eq_none (hasHealth : Bool) : (new hasHealth).health = .none ↔ hasHealth = false := by
  cases hasHealth <;> decide

end StatusEntry

/-! ### Verdicts -/

/-- The last word that was published on the health of a process. -/
inductive LastWord
  | none
  | healthy
  | unhealthy
  /-- The process was stopped as unhealthy, and the last verdict on it was another one. -/
  | condemned
  deriving DecidableEq, Repr

/-- The last word, after one more event. A new process starts afresh. -/
def LastWord.hear (word : LastWord) (kind : EventKind) : LastWord :=
  match kind with
  | .state .starting => .none
  | .healthy => .healthy
  | .unhealthy _ => .unhealthy
  | .exited .unhealthy _ => if word = .unhealthy then .unhealthy else .condemned
  | _ => word

/-- The last word of a list of events. -/
def lastWord (kinds : List EventKind) : LastWord := kinds.foldl LastWord.hear .none

theorem lastWord_concat (kinds : List EventKind) (kind : EventKind) :
    lastWord (kinds ++ [kind]) = (lastWord kinds).hear kind := by
  simp [lastWord]

theorem LastWord.hear_state_ne (word : LastWord) {state : ServiceState} (h : state ≠ .starting) :
    word.hear (.state state) = word := by
  cases state <;> first | rfl | exact absurd rfl h

theorem LastWord.hear_exited_ne (word : LastWord) {reason : ExitReason} (h : reason ≠ .unhealthy)
    (uptime : Duration) : word.hear (.exited reason uptime) = word := by
  cases reason <;> first | rfl | exact absurd rfl h

/-! ### Both folds -/

/-- A status may hear an event next: a legal transition, which is not the end of a process that was
condemned, or a verdict on a process of a service that declares a health check. -/
def DependencyStatus.Expects (declared : Bool) (word : LastWord) (status : DependencyStatus)
    (kind : EventKind) : Prop :=
  match kind with
  | .state next => status.state.canTransitionTo next ∧ (next = .exited → word ≠ .condemned)
  | .healthy | .unhealthy _ => declared ∧ status.state ≠ .pending
  | .exited _ _ => status.state ≠ .exited
  | _ => True

/-- The health in the entry is what the verdicts say, and the status knows of the end of the process
beside. -/
structure HealthAttuned (word : LastWord) (status : DependencyStatus) (health : Health) : Prop where
  healthy_iff : health = .healthy ↔ status.healthy
  unhealthy_iff : health = .unhealthy ↔ word = .unhealthy
  status_iff : status.unhealthy ↔ word = .unhealthy ∨ word = .condemned
  exited : status.state = .exited → word ≠ .condemned

/-- A status and an entry are judged alike, and will be. An entry that may lag behind is judged alike
once the status has heard of the service. -/
inductive Attuned (lags : Prop) (word : LastWord) (status : DependencyStatus) (outlook : Outlook) :
    Prop
  /-- Nothing was heard of the service yet since its status was wiped. -/
  | waiting (hgone : status.gone = false) (hstate : status.state = .pending)
    (hwaits : lags ∨ outlook.waits)
  /-- The service has ended, whatever its health. -/
  | ended (hgone : status.gone = false) (hstate : outlook.state = status.state)
    (hended : status.state = .stopped ∨ status.state = .failed)
  | following (hgone : status.gone = false) (hstate : outlook.state = status.state)
    (hhealth : HealthAttuned word status outlook.health)

namespace Attuned

variable {lags : Prop} {word : LastWord} {status : DependencyStatus} {outlook : Outlook}
  {kind : EventKind} {declared : Bool}

/-- A service that starts has no health, for both. -/
theorem starting (hgone : status.gone = false) :
    Attuned lags (word.hear (.state .starting)) (status.observe (.state .starting))
      (outlook.observe (.state .starting)) := by
  refine .following hgone rfl ⟨?_, ?_, ?_, ?_⟩
  · simp only [Outlook.observe, DependencyStatus.observe]
    split_ifs <;> simp
  · simp only [Outlook.observe, LastWord.hear]
    split_ifs <;> simp
  · simp [DependencyStatus.observe, LastWord.hear]
  · intro h
    cases h

/-- The state of an ended service does not change any more. -/
theorem hear_of_ended (hgone : status.gone = false) (hstate : outlook.state = status.state)
    (hended : status.state = .stopped ∨ status.state = .failed)
    (h : status.Expects declared word kind) :
    Attuned lags (word.hear kind) (status.observe kind) (outlook.observe kind) := by
  cases kind with
  | state next =>
    obtain ⟨hcan, -⟩ := h
    rcases hended with hended | hended <;> rw [hended] at hcan <;> cases hcan
  | _ => exact .ended hgone hstate hended

/-- A status that has heard nothing hears of a start, or that the service is stopped. -/
theorem hear_of_waiting (hgone : status.gone = false) (hstate : status.state = .pending)
    (hwaits : lags ∨ outlook.waits) (h : status.Expects declared word kind) :
    Attuned lags (word.hear kind) (status.observe kind) (outlook.observe kind) := by
  cases kind with
  | state next =>
    obtain ⟨hcan, -⟩ := h
    rw [hstate] at hcan
    cases next with
    | starting => exact starting hgone
    | stopped => exact .ended hgone rfl (.inl rfl)
    | _ => cases hcan
  | healthy | unhealthy => exact absurd hstate h.2
  | _ => exact .waiting hgone hstate hwaits

theorem hear_of_following (hgone : status.gone = false) (hstate : outlook.state = status.state)
    (hhealth : HealthAttuned word status outlook.health) (h : status.Expects declared word kind) :
    Attuned lags (word.hear kind) (status.observe kind) (outlook.observe kind) := by
  cases kind with
  | state next =>
    by_cases hstarting : next = .starting
    · rw [hstarting]
      exact starting hgone
    · rw [LastWord.hear_state_ne word hstarting, Outlook.observe_state_ne hstarting,
        DependencyStatus.observe, if_neg hstarting]
      exact .following hgone rfl
        ⟨hhealth.healthy_iff, hhealth.unhealthy_iff, hhealth.status_iff, h.2⟩
  | healthy => exact .following hgone hstate ⟨by simp [Outlook.observe, DependencyStatus.observe],
      by simp [Outlook.observe, LastWord.hear], by simp [DependencyStatus.observe, LastWord.hear],
      fun _ => LastWord.noConfusion⟩
  | unhealthy => exact .following hgone hstate ⟨by simp [Outlook.observe, DependencyStatus.observe],
      by simp [Outlook.observe, LastWord.hear], by simp [DependencyStatus.observe, LastWord.hear],
      fun _ => LastWord.noConfusion⟩
  | exited reason uptime =>
    by_cases hreason : reason = .unhealthy
    · -- The status takes this for a verdict, the entry does not.
      subst hreason
      refine .following hgone hstate ⟨hhealth.healthy_iff, ?_, ?_, fun hexited => absurd hexited h⟩
      · rw [show (outlook.observe _).health = outlook.health from rfl, hhealth.unhealthy_iff]
        simp only [LastWord.hear]
        split_ifs with hword <;> simp [hword]
      · simp only [DependencyStatus.observe, LastWord.hear]
        split_ifs <;> simp
    · rw [LastWord.hear_exited_ne word hreason]
      refine .following hgone hstate ⟨hhealth.healthy_iff, hhealth.unhealthy_iff, ?_,
        hhealth.exited⟩
      rw [← hhealth.status_iff]
      simp [DependencyStatus.observe, hreason]
  | _ => exact .following hgone hstate hhealth

/-- The folds stay attuned when both hear an event that is expected. -/
theorem hear (h : Attuned lags word status outlook) (hexpects : status.Expects declared word kind) :
    Attuned lags (word.hear kind) (status.observe kind) (outlook.observe kind) := by
  cases h with
  | waiting hgone hstate hwaits => exact hear_of_waiting hgone hstate hwaits hexpects
  | ended hgone hstate hended => exact hear_of_ended hgone hstate hended hexpects
  | following hgone hstate hhealth => exact hear_of_following hgone hstate hhealth hexpects

/-- The entry does not lag behind any more once the status has heard of the new run. -/
theorem caughtUp (h : Attuned lags word status outlook) (hstate : status.state ≠ .pending) :
    Attuned False word status outlook := by
  cases h with
  | waiting _ hpending => exact absurd hpending hstate
  | ended hgone hstate hended => exact .ended hgone hstate hended
  | following hgone hstate hhealth => exact .following hgone hstate hhealth

/-- **Attuned folds give the same answer** under the default condition, unless one may lag behind. -/
theorem readiness_eq (h : Attuned False word status outlook)
    (hdeclared : outlook.health = .none ↔ declared = false) :
    status.readiness (if declared then .serviceHealthy else .serviceStarted) =
      outlook.readiness := by
  cases h with
  | waiting hgone hstate hwaits =>
    rw [Outlook.readiness_of_waits (hwaits.resolve_left id)]
    simp [DependencyStatus.readiness, hgone, hstate]
  | ended hgone hstate hended =>
    rcases hended with hended | hended <;>
      simp [DependencyStatus.readiness, Outlook.readiness, hgone, hstate, hended]
  | following hgone hstate hhealth =>
    have hunhealthy : status.state = .exited → (status.unhealthy ↔ outlook.health = .unhealthy) := by
      intro hexited
      rw [hhealth.status_iff, hhealth.unhealthy_iff]
      simp [hhealth.exited hexited]
    have hhealthy := hhealth.healthy_iff
    obtain ⟨state, health⟩ := outlook
    obtain rfl : state = status.state := hstate
    cases hs : status.state <;> cases health <;> cases declared <;>
      simp_all [DependencyStatus.readiness, Outlook.readiness]

end Attuned

end Servicrab
