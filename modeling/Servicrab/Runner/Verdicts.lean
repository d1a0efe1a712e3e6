import Servicrab.Core.Outlook
import Servicrab.Runner.Endings

/-!
# What the events of a run say about health

The tracker of a run takes the end of a process that was stopped as unhealthy for a verdict, where
the registry only hears those of the probes. The two disagree about a service that has exited if the
last verdict on its process was another one: the monitor goes on probing until the process is gone,
so a probe that passes in the meantime takes the verdict back. In the runs in which this does not
happen, the tracker hears nothing that it does not expect.

## Main definitions

* `Told`: the events that a status hears are expected.
* `Run.VerdictStands`: the guard.
* `Run.Watched`: the invariant.

## Main results

* `Run.watched_of_steps`.
-/

namespace Servicrab

/-- Each of the events is expected by the status that has heard those before it. -/
def Told (declared : Bool) : LastWord → DependencyStatus → List EventKind → Prop
  | _, _, [] => True
  | word, status, kind :: kinds =>
    status.Expects declared word kind ∧ Told declared (word.hear kind) (status.observe kind) kinds

theorem told_concat {declared : Bool} {kind : EventKind} {kinds : List EventKind} :
    ∀ {word : LastWord} {status : DependencyStatus}, Told declared word status (kinds ++ [kind]) ↔
      Told declared word status kinds ∧
        (kinds.foldl DependencyStatus.observe status).Expects declared
          (kinds.foldl LastWord.hear word) kind := by
  induction kinds with
  | nil => simp [Told]
  | cons head kinds ih => simp [Told, ih, and_assoc]

/-- The end of a process is followed by the state it leads to. -/
def EndsAnnounced (kinds : List EventKind) : Prop :=
  ∀ reason uptime rest, EventKind.exited reason uptime :: rest <:+ kinds →
    ∃ next rest', rest = .state next :: rest'

theorem endsAnnounced_of_forall {kinds : List EventKind}
    (h : ∀ reason uptime, .exited reason uptime ∉ kinds) : EndsAnnounced kinds :=
  fun reason uptime _ hsuffix => absurd (hsuffix.subset List.mem_cons_self) (h reason uptime)

theorem EndsAnnounced.of_suffix {kinds kinds' : List EventKind} (h : EndsAnnounced kinds)
    (hsuffix : kinds' <:+ kinds) : EndsAnnounced kinds' :=
  fun reason uptime rest hrest => h reason uptime rest (hrest.trans hsuffix)

theorem endsAnnounced_cons {reason : ExitReason} {uptime : Duration} {next : ServiceState}
    {rest : List EventKind} (h : ∀ reason uptime, .exited reason uptime ∉ rest) :
    EndsAnnounced (.exited reason uptime :: .state next :: rest) := by
  intro reason' uptime' rest' hsuffix
  rcases List.suffix_cons_iff.mp hsuffix with he | hsuffix
  · cases he
    exact ⟨next, rest, rfl⟩
  · refine endsAnnounced_of_forall (fun r u hmem => ?_) reason' uptime' rest' hsuffix
    rcases List.mem_cons.mp hmem with he | hmem
    · cases he
    · exact h r u hmem

namespace Runner

variable {r r' : Runner} {action : RunnerAction}

theorem Moved.service_eq (h : Moved r action r') : r'.service = r.service := by
  cases h <;> rfl

/-- What a move publishes after everything before it was sent. -/
theorem Moved.endsAnnounced (h : Moved r action r') (hout : r.outbox = []) :
    EndsAnnounced r'.outbox := by
  cases h with
  | endedRestart | endedStop | endedFail =>
    rw [moveTo, hout]
    exact endsAnnounced_cons (by simp)
  | stoppedInBackoff =>
    rename_i afterExit _ _
    refine endsAnnounced_of_forall fun reason uptime => ?_
    cases afterExit <;> simp [moveTo, hout]
  | _ =>
    refine endsAnnounced_of_forall fun reason uptime => ?_
    simp [moveTo, fail, hout]

end Runner

namespace Run

variable {r r' : Run} {action : RunAction} {service : Service}

/-- The events that were sent. -/
def kinds (r : Run) : List EventKind := r.sent.map Prod.snd

/-- The guard that no service is announced to have exited after its process was condemned. -/
def VerdictStands (r : Run) (action : RunAction) (_ : Run) : Prop :=
  action = .publish → r.runner.outbox.head? = some (.state .exited) →
    lastWord r.kinds ≠ .condemned

/-- A run of the service, with monitors only if it declares a health check and once a process was
started. What was sent and not received yet is expected by its tracker. -/
structure Watched (service : Service) (r : Run) : Prop where
  service_eq : r.runner.service = service
  unmonitored : service.health = none → r.monitors = []
  monitored : r.monitors ≠ [] → ServiceState.pending.after r.kinds ≠ .pending
  ends : EndsAnnounced r.runner.outbox
  told : Told service.health.isSome (lastWord (r.received.map Prod.snd)) r.tracker
    (r.channel.map Prod.snd)

theorem watched_new (service : Service) (options : RunOptions) :
    (new service options).Watched service where
  service_eq := rfl
  unmonitored _ := rfl
  monitored h := absurd rfl h
  ends := endsAnnounced_of_forall fun _ _ => List.not_mem_nil
  told := trivial

/-! ### What is sent -/

/-- The tracker, once it has received what was sent. -/
theorem Honest.tracker_kinds (h : r.Honest) :
    (r.channel.map Prod.snd).foldl DependencyStatus.observe r.tracker =
      r.kinds.foldl DependencyStatus.observe .new := by
  rw [kinds, sent, List.map_append, List.foldl_append, ← h.tracker_eq]

theorem lastWord_kinds (r : Run) :
    (r.channel.map Prod.snd).foldl LastWord.hear (lastWord (r.received.map Prod.snd)) =
      lastWord r.kinds := by
  rw [kinds, sent, List.map_append, lastWord, lastWord, List.foldl_append]

/-- One more event may be sent if it is expected after those that were sent. -/
theorem Watched.told_send (h : r.Watched service) (hH : r.Honest) {kind : EventKind}
    (hexpects : (r.kinds.foldl DependencyStatus.observe .new).Expects service.health.isSome
      (lastWord r.kinds) kind) :
    Told service.health.isSome (lastWord (r.received.map Prod.snd)) r.tracker
      (r.channel.map Prod.snd ++ [kind]) :=
  told_concat.mpr ⟨h.told, by rwa [hH.tracker_kinds, lastWord_kinds]⟩

/-- A state that is about to be published may follow the one that was published last. -/
theorem OnPath.canTransitionTo (h : r.OnPath) {next : ServiceState} {rest : List ServiceState}
    (hout : announced r.runner.outbox = next :: rest) :
    (ServiceState.pending.after r.kinds).canTransitionTo next := by
  have hchain := h.1
  rw [states, published, announced_append, hout, ← List.cons_append,
    List.isChain_append] at hchain
  exact hchain.2.2 _ (getLast?_announced _ _) _ rfl

/-- What the runner publishes is expected. -/
theorem Watched.expects_publish (h : r.Watched service) (hH : r.Honest) (hP : r.OnPath)
    (hstands : VerdictStands r .publish r') {kind : EventKind} {rest : List EventKind}
    (hout : r.runner.outbox = kind :: rest) :
    (r.kinds.foldl DependencyStatus.observe .new).Expects service.health.isSome
      (lastWord r.kinds) kind := by
  have hreport := hH.outbox kind (by simp [hout])
  have hstate : (r.kinds.foldl DependencyStatus.observe .new).state =
      ServiceState.pending.after r.kinds := DependencyStatus.foldl_observe_state r.kinds .new
  cases kind with
  | healthy | unhealthy => cases hreport
  | state next =>
    refine ⟨?_, ?_⟩
    · rw [hstate]
      exact hP.canTransitionTo (by rw [hout]; rfl)
    · rintro rfl
      exact hstands rfl (by rw [hout]; rfl)
  | exited reason uptime =>
    -- The state that follows cannot come after `Exited`.
    obtain ⟨next, rest', rfl⟩ := h.ends reason uptime rest (hout ▸ List.suffix_rfl)
    have hcan : (ServiceState.pending.after r.kinds).canTransitionTo next :=
      hP.canTransitionTo (by rw [hout]; rfl)
    intro hexited
    rw [← hstate, hexited, ServiceState.not_canTransitionTo_of_isTerminal rfl] at hcan
    cases hcan
  | _ => trivial

/-- A monitor has a declared health check, and was started with a process. -/
theorem Watched.expects_report (h : r.Watched service) (hmonitors : r.monitors ≠ [])
    {kind : EventKind} (hreport : kind.isProbeReport) :
    (r.kinds.foldl DependencyStatus.observe .new).Expects service.health.isSome
      (lastWord r.kinds) kind := by
  have hdeclared : service.health.isSome :=
    Option.isSome_iff_ne_none.mpr fun hnone => hmonitors (h.unmonitored hnone)
  have hstate : (r.kinds.foldl DependencyStatus.observe .new).state ≠ .pending := by
    rw [DependencyStatus.foldl_observe_state]
    exact h.monitored hmonitors
  cases kind <;> first | exact ⟨hdeclared, hstate⟩ | trivial

/-! ### Steps -/

/-- No state leads back to `Pending`. -/
theorem OnPath.after_ne_pending (h : r.OnPath) {kind : EventKind} {rest : List EventKind}
    (hout : r.runner.outbox = kind :: rest)
    (hne : ServiceState.pending.after r.kinds ≠ .pending) :
    ServiceState.pending.after (r.kinds ++ [kind]) ≠ .pending := by
  rw [ServiceState.after_append]
  cases kind with
  | state next =>
    have hannounced : announced r.runner.outbox = next :: announced rest := by
      rw [hout]
      rfl
    have hcan := h.canTransitionTo hannounced
    rintro hpending
    obtain rfl : next = .pending := hpending
    generalize ServiceState.pending.after r.kinds = state at hcan
    cases state <;> cases hcan
  | _ => exact hne

theorem Watched.stepRunner (h : r.Watched service) (hA : r.runner.Aligned) (hP : r.OnPath)
    {runnerAction : RunnerAction} (hstep : r.stepRunner runnerAction = some r') :
    r'.Watched service := by
  obtain ⟨hout, -, runner, hrunner, rfl⟩ := stepRunner_cases hstep
  have hmoved := Runner.moved_of_step hA hrunner
  have hservice := hmoved.service_eq.trans h.service_eq
  have hends := hmoved.endsAnnounced hout
  cases hmoved with
  | spawned hphase =>
    refine ⟨hservice, fun hnone => ?_, fun _ => ?_, hends, h.told⟩
    · simp only [withRunner, spawnMonitor, h.service_eq, hnone]
      exact h.unmonitored hnone
    · -- Everything was sent before the process was spawned, the last state being `Starting`.
      have hlast := hP.2
      have hstates : r.states = announced r.kinds := by simp [states, published, kinds, hout]
      rw [hstates, getLast?_announced] at hlast
      have hstarting : r.runner.state = .starting := by simpa only [Runner.Aligned, hphase] using hA
      change ServiceState.pending.after r.kinds ≠ .pending
      rw [Option.some.inj hlast, hstarting]
      decide
  | _ => exact ⟨hservice, h.unmonitored, h.monitored, hends, h.told⟩

/-- One more event that is expected may be sent. -/
theorem Watched.send (h : r.Watched service) (hH : r.Honest) {event : ℕ × EventKind}
    {runner : Runner} {monitors : List Monitor} {probes : List (ℕ × Bool)}
    (hservice : runner.service = service) (hunmonitored : service.health = none → monitors = [])
    (hmonitored : monitors ≠ [] → ServiceState.pending.after (r.kinds ++ [event.2]) ≠ .pending)
    (hends : EndsAnnounced runner.outbox)
    (hexpects : (r.kinds.foldl DependencyStatus.observe .new).Expects service.health.isSome
      (lastWord r.kinds) event.2) :
    Watched service { r with
      runner := runner, monitors := monitors, channel := r.channel ++ [event], probes := probes } where
  service_eq := hservice
  unmonitored := hunmonitored
  monitored hne := by
    have hafter := hmonitored hne
    simpa [kinds, sent] using hafter
  ends := hends
  told := by
    rw [List.map_append]
    exact h.told_send hH hexpects

theorem after_concat_of_plain {kinds : List EventKind} {kind : EventKind} (h : kind.isPlain)
    (state : ServiceState) : state.after (kinds ++ [kind]) = state.after kinds := by
  rw [ServiceState.after_append]
  simp [ServiceState.after, EventKind.state?_of_isPlain h]

theorem Watched.stepMonitor (h : r.Watched service) (hH : r.Honest) {index : ℕ}
    {monitorAction : MonitorAction} (hstep : r.stepMonitor index monitorAction = some r') :
    r'.Watched service := by
  obtain ⟨m, m', out, hget, hstepped, rfl⟩ := stepMonitor_cases hstep
  have hm : m ∈ r.monitors := List.mem_of_getElem? hget
  have hmonitors : r.monitors ≠ [] := List.ne_nil_of_mem hm
  have hdeclared : service.health ≠ none := fun hnone => hmonitors (h.unmonitored hnone)
  cases out with
  | none =>
    refine ⟨h.service_eq, fun hnone => absurd hnone hdeclared, fun _ => ?_, h.ends, ?_⟩
    · simpa [kinds, sent] using h.monitored hmonitors
    · simpa using h.told
  | some kind =>
    have hsub : r.probes ⊆ r.probes ++ probed m monitorAction := List.subset_append_left _ _
    obtain ⟨-, hout⟩ := hstepped.owed ((hH.monitors_owed m hm).mono hsub)
    have hreport := (hout kind rfl).1
    refine h.send hH h.service_eq (fun hnone => absurd hnone hdeclared) (fun _ => ?_) h.ends
      (h.expects_report hmonitors hreport)
    rw [after_concat_of_plain (EventKind.isPlain_of_isProbeReport hreport)]
    exact h.monitored hmonitors

theorem Watched.step (h : r.Watched service) (hH : r.Honest) (hA : r.runner.Aligned) (hP : r.OnPath)
    (hstands : VerdictStands r action r') (hstep : r.step action = some r') :
    r'.Watched service := by
  cases action with
  | runner runnerAction => exact h.stepRunner hA hP hstep
  | publish =>
    simp only [Run.step] at hstep
    split at hstep <;> cases hstep
    rename_i kind rest hout
    exact h.send hH h.service_eq h.unmonitored
      (fun hne => hP.after_ne_pending hout (h.monitored hne))
      (h.ends.of_suffix (hout ▸ List.suffix_cons kind rest))
      (h.expects_publish hH hP hstands hout)
  | monitor index monitorAction => exact h.stepMonitor hH hstep
  | output kind =>
    obtain ⟨⟨-, hkind⟩, hstep⟩ := Option.ite_none_right_eq_some.mp hstep
    cases hstep
    refine h.send hH h.service_eq h.unmonitored (fun hne => ?_) h.ends ?_
    · rw [after_concat_of_plain (EventKind.isPlain_of_isOutput hkind)]
      exact h.monitored hne
    · cases kind <;> trivial
  | readerEnds =>
    obtain ⟨-, hstep⟩ := Option.ite_none_right_eq_some.mp hstep
    cases hstep
    exact ⟨h.service_eq, h.unmonitored, h.monitored, h.ends, h.told⟩
  | receive =>
    simp only [Run.step] at hstep
    split at hstep <;> cases hstep
    rename_i event rest hchannel
    refine ⟨h.service_eq, h.unmonitored, fun hne => ?_, h.ends, ?_⟩
    · simpa [kinds, sent, hchannel] using h.monitored hne
    · have htold := h.told
      rw [hchannel] at htold
      rw [List.map_append, List.map_singleton, lastWord_concat]
      exact htold.2

/-- In a run whose verdicts stand, the tracker never hears what it does not expect. -/
theorem watched_of_steps {options : RunOptions}
    (h : runSystem.Steps VerdictStands (new service options) r) : r.Watched service := by
  refine h.invariant (watched_new service options) fun {u action v} hu hW hstands hstep => ?_
  have hreach : runSystem.Reachable VerdictStands u := ⟨_, ⟨service, options, rfl⟩, hu⟩
  exact hW.step (honest_of_reachable hreach) (aligned_of_reachable hreach)
    (onPath_of_reachable hreach) hstands hstep

end Run

end Servicrab
