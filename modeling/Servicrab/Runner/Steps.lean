import Servicrab.Runner.Run

/-!
# What a monitor and a runner can do in a step

One lemma for the steps of a health monitor and one for those of a runner, from which the
invariants of a run are derived.

## Main definitions

* `EventKind.Owed`: evidence about the health of a process needs a probe on record.
* `Monitor.Quiet`: no verdict is on its way.
* `Runner.Condemned`: the process is being stopped as unhealthy.

## Main results

* `Monitor.stepped_of_step`, `Runner.step_cases`.
-/

namespace Servicrab

/-! ### Monitors -/

/-- A kind of event that is evidence about the health of a process needs a probe that ended in the
same way on record. -/
def EventKind.Owed (probes : List (ℕ × Bool)) (run : ℕ) (kind : EventKind) : Prop :=
  match kind with
  | .healthy => (run, true) ∈ probes
  | .unhealthy _ | .exited .unhealthy _ => (run, false) ∈ probes
  | _ => True

theorem EventKind.Owed.mono {probes probes' : List (ℕ × Bool)} {run : ℕ} {kind : EventKind}
    (h : kind.Owed probes run) (hsub : probes ⊆ probes') : kind.Owed probes' run := by
  unfold EventKind.Owed at h ⊢
  split <;> first | exact hsub h | trivial

/-- The kinds of events a health monitor emits. -/
def EventKind.isProbeReport (kind : EventKind) : Bool :=
  match kind with
  | .healthy | .unhealthy _ | .healthProbeFailed .. => true
  | _ => false

/-- What a monitor sends is the report of a probe, and is owed to a probe on record if it says
anything about the health of its process. -/
def MonitorOutput.Owed (probes : List (ℕ × Bool)) (run : ℕ) (output : MonitorOutput) : Prop :=
  match output with
  | .emit kind => kind.isProbeReport ∧ kind.Owed probes run
  | .send signal => signal.isUnhealthy → (run, false) ∈ probes

theorem MonitorOutput.Owed.mono {probes probes' : List (ℕ × Bool)} {run : ℕ}
    {output : MonitorOutput} (h : output.Owed probes run) (hsub : probes ⊆ probes') :
    output.Owed probes' run := by
  cases output with
  | emit kind => exact ⟨h.1, h.2.mono hsub⟩
  | send signal => exact fun hsignal => hsub (h hsignal)

namespace Monitor

variable {m m' : Monitor} {closed : Bool} {action : MonitorAction} {out : Option EventKind}

/-- What is left to be sent. -/
def outbox (m : Monitor) : List MonitorOutput :=
  match m.phase with
  | .publishing output => output
  | _ => []

@[simp] theorem outbox_send (m : Monitor) (output : List MonitorOutput) :
    (m.send output).outbox = output := by
  unfold send outbox
  split_ifs with h <;> simp [h]

@[simp] theorem run_send (m : Monitor) (output : List MonitorOutput) :
    (m.send output).run = m.run := rfl

@[simp] theorem sent_send (m : Monitor) (output : List MonitorOutput) :
    (m.send output).sent = m.sent := rfl

theorem phase_send_ne (m : Monitor) (output : List MonitorOutput) :
    (m.send output).phase ≠ .probing := by
  unfold send
  split_ifs <;> simp

theorem onProbe_frame (m : Monitor) (result : Except String Unit) (inStartPeriod : Bool) :
    (m.onProbe result inStartPeriod).run = m.run ∧
      (m.onProbe result inStartPeriod).sent = m.sent := by
  unfold onProbe
  cases result with
  | ok => simp only; split_ifs <;> exact ⟨rfl, rfl⟩
  | error message =>
    simp only
    split_ifs <;> exact ⟨rfl, rfl⟩

theorem phase_onProbe_ne (m : Monitor) (result : Except String Unit) (inStartPeriod : Bool) :
    (m.onProbe result inStartPeriod).phase ≠ .probing := by
  unfold onProbe
  cases result with
  | ok =>
    simp only
    split_ifs <;> exact phase_send_ne _ _
  | error message =>
    simp only
    split_ifs <;> exact phase_send_ne _ _

/-- What a probe makes a monitor send agrees with how the probe ended. -/
theorem onProbe_outbox {probes : List (ℕ × Bool)} {run : ℕ} {output : MonitorOutput}
    {result : Except String Unit} {inStartPeriod : Bool} (hrecord : (run, result.isOk) ∈ probes)
    (h : output ∈ (m.onProbe result inStartPeriod).outbox) : output.Owed probes run := by
  unfold onProbe at h
  cases result with
  | ok =>
    simp only at h
    split_ifs at h with hready
    · simp at h
    · simp only [outbox_send, List.mem_cons, List.not_mem_nil, or_false] at h
      rcases h with rfl | rfl
      · exact ⟨rfl, hrecord⟩
      · exact fun hsignal => absurd hsignal (by decide)
  | error message =>
    simp only at h
    by_cases hstart : inStartPeriod
    · simp [hstart] at h
    · simp only [hstart, Bool.false_eq_true, if_false, outbox_send, List.mem_append,
        List.mem_ite_nil_right, List.mem_cons, List.not_mem_nil, or_false] at h
      rcases h with ⟨-, rfl⟩ | ⟨-, rfl | rfl⟩
      · exact ⟨rfl, trivial⟩
      · exact ⟨rfl, hrecord⟩
      · exact fun _ => hrecord

/-- Everything a monitor has signalled or is about to send is owed to a probe on record. -/
structure Owed (probes : List (ℕ × Bool)) (m : Monitor) : Prop where
  outbox : ∀ output ∈ m.outbox, output.Owed probes m.run
  sent : ∀ signal ∈ m.sent, signal.isUnhealthy → (m.run, false) ∈ probes

theorem Owed.mono {probes probes' : List (ℕ × Bool)} (h : m.Owed probes)
    (hsub : probes ⊆ probes') : m.Owed probes' where
  outbox output hmem := (h.outbox output hmem).mono hsub
  sent signal hmem hsignal := hsub (h.sent signal hmem hsignal)

theorem owed_new (probes : List (ℕ × Bool)) (run : ℕ) (check : HealthCheck) :
    (new run check).Owed probes where
  outbox := by simp [new, Monitor.outbox]
  sent := by simp [new]

/-- No verdict is on its way, nor any probe that could end in one. -/
structure Quiet (m : Monitor) : Prop where
  no_probe : m.phase = .probing → ∀ result inStartPeriod kind,
    .emit kind ∈ (m.onProbe result inStartPeriod).outbox → ¬ kind.isHealthVerdict
  no_verdict : ∀ kind, .emit kind ∈ m.outbox → ¬ kind.isHealthVerdict

theorem quiet_new (run : ℕ) (check : HealthCheck) : (new run check).Quiet where
  no_probe := by simp [new]
  no_verdict := by simp [new, Monitor.outbox]

/-- One step of a monitor: it stays with its process, and remains quiet once its channel is
closed; what it sends, and is about to send, is owed to a probe on record. -/
structure Stepped (closed : Bool) (probes : List (ℕ × Bool)) (m m' : Monitor)
    (out : Option EventKind) : Prop where
  run_eq : m'.run = m.run
  owed : m.Owed probes →
    m'.Owed probes ∧ ∀ kind ∈ out, kind.isProbeReport ∧ kind.Owed probes m.run
  quiet : closed → m.Quiet → m'.Quiet ∧ ∀ kind ∈ out, ¬ kind.isHealthVerdict

theorem stepped_of_phase {closed : Bool} {probes : List (ℕ × Bool)} {phase : MonitorPhase}
    (hphase : Monitor.outbox { m with phase := phase } = [])
    (hprobing : closed → phase ≠ .probing) :
    m.Stepped closed probes { m with phase := phase } none where
  run_eq := rfl
  owed h := by
    refine ⟨⟨?_, h.sent⟩, by simp⟩
    rw [hphase]
    simp
  quiet hclosed _ := by
    refine ⟨⟨fun h => absurd h (hprobing hclosed), ?_⟩, by simp⟩
    rw [hphase]
    simp

theorem stepped_of_step {closed : Bool} {probes : List (ℕ × Bool)} {action : MonitorAction}
    (hrecord : ∀ result inStartPeriod, action = .probe result inStartPeriod →
      (m.run, result.isOk) ∈ probes)
    (h : m.step closed action = some (m', out)) : m.Stepped closed probes m' out := by
  cases action with
  | tick =>
    obtain ⟨-, h⟩ := Option.ite_none_right_eq_some.mp h
    cases h
    exact stepped_of_phase rfl (by simp)
  | close =>
    obtain ⟨-, h⟩ := Option.ite_none_right_eq_some.mp h
    cases h
    exact stepped_of_phase rfl (by simp)
  | check =>
    obtain ⟨-, h⟩ := Option.ite_none_right_eq_some.mp h
    cases h
    exact stepped_of_phase (by cases closed <;> rfl) (by cases closed <;> simp)
  | probe result inStartPeriod =>
    obtain ⟨hphase, h⟩ := Option.ite_none_right_eq_some.mp h
    cases h
    obtain ⟨hrun, hsent⟩ := m.onProbe_frame result inStartPeriod
    refine ⟨hrun, fun ho => ⟨⟨fun output hmem => ?_, ?_⟩, by simp⟩, fun _ hq => ⟨⟨?_, ?_⟩, by simp⟩⟩
    · rw [hrun]
      exact onProbe_outbox (hrecord _ _ rfl) hmem
    · rw [hsent, hrun]
      exact ho.sent
    · exact fun h => absurd h (m.phase_onProbe_ne result inStartPeriod)
    · exact hq.no_probe hphase result inStartPeriod
  | publish =>
    simp only [step] at h
    split at h
    · rename_i kind rest hphase
      cases h
      have hout : m.outbox = .emit kind :: rest := by simp [Monitor.outbox, hphase]
      refine ⟨rfl, fun ho => ⟨⟨?_, ho.sent⟩, ?_⟩,
        fun _ hq => ⟨⟨fun h => absurd h (phase_send_ne m rest), ?_⟩, ?_⟩⟩
      · exact fun output hmem => ho.outbox output (by simp_all)
      · rintro _ ⟨⟩
        exact ho.outbox (.emit kind) (by simp [hout])
      · exact fun k hmem => hq.no_verdict k (by simp_all)
      · rintro _ ⟨⟩
        exact hq.no_verdict kind (by simp [hout])
    · rename_i signal rest hphase
      have hout : m.outbox = .send signal :: rest := by simp [Monitor.outbox, hphase]
      split_ifs at h with hclosed
      · cases h
        exact stepped_of_phase rfl (by simp)
      · cases h
        refine ⟨rfl, fun ho => ⟨⟨?_, ?_⟩, by simp⟩, fun hc => absurd hc hclosed⟩
        · exact fun output hmem => ho.outbox output (by simp_all)
        · intro s hmem hs
          rcases List.mem_append.mp hmem with hmem | hmem
          · exact ho.sent s hmem hs
          · cases List.mem_singleton.mp hmem
            exact ho.outbox (.send signal) (by simp [hout]) hs
    · cases h

end Monitor
/-! ### Runners -/

theorem ExitStatus.exitReason_ne (status : ExitStatus) : status.exitReason ≠ .unhealthy := by
  unfold exitReason
  split <;> simp

namespace Runner
variable {r r' : Runner} {action : RunnerAction}

/-- A transition goes on with its continuation, or fails. -/
theorem transition_cases (r : Runner) (next : ServiceState) (k : Runner → Runner) :
    r.transition next k = k ({ r with state := next }.emit (.state next)) ∨
      ∃ source, r.transition next k = r.fail (.invalidTransition r.service.name.raw source) := by
  unfold transition ServiceState.tryTransition
  by_cases h : r.state.canTransitionTo next
  · left
    simp only [h, if_true]
  · right
    exact ⟨_, by simp only [h]; rfl⟩

/-- The process is being stopped, or has been stopped, as unhealthy. -/
def Condemned (r : Runner) : Prop :=
  match r.phase with
  | .signalling _ none | .stopping _ none | .killed _ none | .sweeping _ .unhealthy _ => True
  | _ => False

/-- A step that begins no process. -/
structure Goes (r r' : Runner) (condemned : Prop) : Prop where
  runs_eq : r'.runs = r.runs
  no_starting : .state .starting ∉ r'.outbox
  not_spawning : r'.phase ≠ .spawning
  condemned_of : r'.Condemned → condemned
  exited_of : ∀ uptime, .exited .unhealthy uptime ∈ r'.outbox → condemned
  no_report : ∀ kind ∈ r'.outbox, kind.isProbeReport = false

variable {condemned : Prop}

theorem Goes.transition {r₀ : Runner} {next : ServiceState} {k : Runner → Runner}
    (hfail : ∀ error, r₀.Goes (r.fail error) condemned)
    (hk : r₀.Goes (k ({ r with state := next }.emit (.state next))) condemned) :
    r₀.Goes (r.transition next k) condemned := by
  rcases r.transition_cases next k with he | ⟨_, he⟩ <;> rw [he]
  · exact hk
  · exact hfail _

theorem goes_backOff {r₀ : Runner} (hruns : r.runs = r₀.runs)
    (hstarting : .state .starting ∉ r.outbox)
    (hexited : ∀ uptime, .exited .unhealthy uptime ∈ r.outbox → condemned)
    (hreport : ∀ kind ∈ r.outbox, kind.isProbeReport = false) (delay : Duration) (attempt : ℕ)
    (afterExit : Bool) : r₀.Goes (r.backOff delay attempt afterExit) condemned := by
  refine .transition (fun _ => ?_) ?_
  · exact ⟨hruns, hstarting, by simp [fail], by simp [fail, Condemned], hexited, hreport⟩
  · refine ⟨hruns, by simpa [emit] using hstarting, by simp, by simp [Condemned],
      by simpa [emit] using hexited, fun kind hmem => ?_⟩
    simp only [emit, List.mem_append, List.mem_singleton] at hmem
    rcases hmem with (hmem | rfl) | rfl
    · exact hreport kind hmem
    · rfl
    · rfl

theorem goes_spawned (hout : r.outbox = []) (result : Except SpawnError ℤ) :
    r.Goes (r.spawned result) condemned := by
  unfold spawned
  cases result with
  | ok pgid =>
    refine .transition (fun _ => ?_) ?_ <;> constructor <;>
      simp [emit, fail, hout, Condemned, EventKind.isProbeReport]
  | error e =>
    simp only
    split
    · refine goes_backOff ?_ ?_ ?_ ?_ .. <;> simp [hout]
    · simp only [ServiceState.tryTransition]
      split_ifs <;> constructor <;> simp [emit, fail, hout, Condemned, EventKind.isProbeReport]

theorem goes_ended (hout : r.outbox = []) {reason : ExitReason}
    {stoppedBy : Option ShutdownReason} (uptime : Duration)
    (hreason : reason = .unhealthy → condemned) :
    r.Goes (r.ended reason stoppedBy uptime) condemned := by
  unfold ended
  cases stoppedBy with
  | some why =>
    refine .transition (fun _ => ?_) ?_ <;> constructor <;>
      simp [emit, fail, finish, hout, Condemned, EventKind.isProbeReport]
  | none =>
    have hexited : .unhealthy = reason → condemned := fun h => hreason h.symm
    simp only
    split
    · refine goes_backOff ?_ ?_ ?_ ?_ ..
      · rfl
      · simp [emit, hout]
      · simpa [emit, hout]
      · simp [emit, hout, EventKind.isProbeReport]
    all_goals
      refine .transition (fun _ => ?_) ?_
      all_goals
        exact ⟨rfl, by simp [emit, fail, finish, hout], by simp [fail, finish],
          by simp [fail, finish, Condemned], by simpa [emit, fail, finish, hout],
          by simp [emit, fail, finish, hout, EventKind.isProbeReport]⟩

theorem goes_waited (hout : r.outbox = []) (pgid : ℤ) {stoppedBy : Option ShutdownReason}
    {unhealthy : Bool} (hcondemned : unhealthy → condemned) (result : Except IoError ExitStatus) :
    r.Goes (r.waited pgid stoppedBy unhealthy result) condemned := by
  unfold waited
  cases result with
  | error source => constructor <;> simp [fail, hout, Condemned]
  | ok status =>
    refine ⟨rfl, by simp [hout], by simp, ?_, by simp [hout], by simp [hout]⟩
    cases unhealthy
    · simp [Condemned, status.exitReason_ne]
    · exact fun _ => hcondemned rfl

theorem goes_stop (hout : r.outbox = []) (pgid : ℤ) (reason : ShutdownReason)
    {stoppedBy : Option ShutdownReason} (hcondemned : stoppedBy = none → condemned) :
    r.Goes (r.stop pgid reason stoppedBy) condemned := by
  refine .transition (fun _ => ?_) ?_
  · constructor <;> simp [emit, fail, hout, Condemned, EventKind.isProbeReport]
  · refine ⟨rfl, by simp [emit, hout], by simp, ?_, by simp [emit, hout],
      by simp [emit, hout, EventKind.isProbeReport]⟩
    cases stoppedBy <;> simp_all [Condemned]

theorem goes_killGroup (hout : r.outbox = []) (pgid : ℤ) (result : Except IoError Unit)
    {k : Runner → Runner} (hk : r.Goes (k r) condemned) :
    r.Goes (r.killGroup pgid result k) condemned := by
  unfold killGroup
  cases result with
  | ok => exact hk
  | error source => constructor <;> simp [fail, hout, Condemned]

theorem step_cases (hout : r.outbox = []) (h : r.step action = some r') :
    (action = .head none ∧ r.phase = .head ∧ r'.runs = r.runs + 1 ∧ r'.phase = .spawning ∧
      r'.outbox = [.state .starting]) ∨ r.Goes r' (r.Condemned ∨ action = .unhealthy) := by
  unfold step at h
  split at h
  case h_1 stop hphase =>
    cases h
    cases stop with
    | none =>
      obtain he | ⟨_, he⟩ := r.transition_cases .starting
        (fun r => { r with runs := r.runs + 1, phase := .spawning })
      · left
        simp [atHead, he, hphase, emit, hout]
      · right
        rw [atHead, he]
        constructor <;> simp [fail, hout, Condemned]
    | some reason =>
      right
      unfold atHead
      refine .transition (fun _ => ?_) ?_ <;> constructor <;>
        simp [emit, finish, fail, hout, Condemned, EventKind.isProbeReport]
  case h_2 result hphase =>
    cases h
    exact .inr (goes_spawned hout result)
  case h_3 pgid result hphase =>
    cases h
    exact .inr (goes_waited hout pgid (by simp) result)
  case h_4 pgid reason hphase =>
    cases h
    exact .inr (goes_stop hout pgid reason (by simp))
  case h_5 pgid hphase =>
    split_ifs at h
    cases h
    exact .inr (goes_stop hout pgid _ (by simp))
  case h_6 pgid stoppedBy result hphase =>
    cases h
    right
    cases result
    · constructor <;> simp [fail, hout, Condemned]
    · refine ⟨rfl, by simp [hout], by simp, ?_, by simp [hout], by simp [hout]⟩
      cases stoppedBy <;> simp [Condemned, hphase]
  case h_7 pgid stoppedBy result hphase =>
    cases h
    exact .inr (goes_waited hout pgid (by cases stoppedBy <;> simp [Condemned, hphase]) result)
  case h_8 pgid stoppedBy result hphase =>
    cases h
    exact .inr (goes_waited hout pgid (by cases stoppedBy <;> simp [Condemned, hphase]) result)
  case h_9 pgid stoppedBy result hphase =>
    cases h
    refine .inr (goes_killGroup hout pgid result ?_)
    refine ⟨rfl, by simp [hout], by simp, ?_, by simp [hout], by simp [hout]⟩
    cases stoppedBy <;> simp [Condemned, hphase]
  case h_10 pgid reason stoppedBy result uptime hphase =>
    cases h
    refine .inr (goes_killGroup hout pgid result (goes_ended hout uptime ?_))
    rintro rfl
    simp [Condemned, hphase]
  case h_11 hphase =>
    cases h
    right
    constructor <;> simp [hout, Condemned]
  case h_12 afterExit why hphase =>
    cases h
    right
    refine .transition (fun _ => ?_) ?_
    · constructor <;> simp [fail, hout, Condemned]
    · cases afterExit <;> constructor <;> simp [emit, finish, hout, Condemned, EventKind.isProbeReport]
  case h_13 result hphase =>
    cases h
    right
    constructor <;> simp [hout, Condemned]
  case h_14 => cases h

end Runner
end Servicrab
