import Servicrab.Library.EpochLog
import Servicrab.Runner.Steps

/-!
# Health belongs to the current process

The process runs of a supervision task are the epochs of its event channel, each opened by the
`Starting` state. A health monitor outlives the runner's interest in it while a probe is in flight,
so a verdict about an earlier process may be sent after a later one has been started. The folded
health is about the current process in every run in which no monitor has a verdict left to send, or
a probe in flight that can end in one, when the runner goes back to `Starting`.

## Main definitions

* `Run.FreshHealth`: what the folded health has to rest on.
* `Run.QuietStart`: the guard.
* `Run.Honest`, `Run.Fenced`: the invariants, without and with the guard.

## Main results

* `Run.freshHealth_of_reachable`.
-/

open TransitionSystem (AnyStep)

namespace Servicrab

/-- The event that opens a process run. -/
abbrev EventKind.Opens (kind : EventKind) : Prop := kind = .state .starting

/-- The event bears on the folded health. -/
def EventKind.Judges (kind : EventKind) : Prop :=
  kind.isHealthVerdict ∨ ∃ uptime, kind = .exited .unhealthy uptime

namespace DependencyStatus

variable {status : DependencyStatus} {kind : EventKind}

theorem healthy_observe_starting (h : kind.Opens) : ¬ (status.observe kind).healthy := by
  subst h
  simp [observe]

theorem unhealthy_observe_starting (h : kind.Opens) : ¬ (status.observe kind).unhealthy := by
  subst h
  simp [observe]

/-- Only a passed probe makes a service healthy. -/
theorem healthy_of_observe (hkind : kind ≠ .healthy) (h : (status.observe kind).healthy) :
    status.healthy := by
  cases kind with
  | healthy => exact absurd rfl hkind
  | unhealthy => simp [observe] at h
  | state state =>
    simp only [observe] at h
    split_ifs at h
    exact h
  | _ => exact h

/-- Only a failed probe, or the end of a process that was stopped for it, makes it unhealthy. -/
theorem unhealthy_of_observe (hunhealthy : ∀ message, kind ≠ .unhealthy message)
    (hexited : ∀ uptime, kind ≠ .exited .unhealthy uptime) (h : (status.observe kind).unhealthy) :
    status.unhealthy := by
  cases kind with
  | healthy => simp [observe] at h
  | unhealthy message => exact absurd rfl (hunhealthy message)
  | exited reason uptime =>
    simp only [observe, Bool.or_eq_true, beq_iff_eq] at h
    refine h.resolve_right fun he => ?_
    exact hexited uptime (he ▸ rfl)
  | state state =>
    simp only [observe] at h
    split_ifs at h
    exact h
  | _ => exact h

end DependencyStatus

namespace Run

variable {r r' : Run} {action : RunAction}

/-- Everything that was sent on the channel. -/
def sent (r : Run) : List (ℕ × EventKind) := r.received ++ r.channel

/-- The process the folded status is about: the one whose `Starting` was received last. -/
def current (r : Run) : ℕ := EpochLog.current EventKind.Opens r.received

/-- The folded health rests on probes of the current process, each monitor probing the process it
was spawned for and no other, and no verdict on an earlier process was folded in after the
`Starting` of a later one. -/
structure FreshHealth (r : Run) : Prop where
  healthy : r.tracker.healthy → (r.current, true) ∈ r.probes
  /-- This includes the processes that were stopped as unhealthy. -/
  unhealthy : r.tracker.unhealthy → (r.current, false) ∈ r.probes
  not_stale : ∀ {pre mid post : List (ℕ × EventKind)} {opening verdict : ℕ × EventKind},
    r.received = pre ++ opening :: mid ++ verdict :: post → opening.2 = .state .starting →
    verdict.2.isHealthVerdict → opening.1 ≤ verdict.1

/-- The guard that every monitor is quiet when the runner, at the head of its loop, goes on to
start a process. -/
def QuietStart (r : Run) (action : RunAction) (_ : Run) : Prop :=
  action = .runner (.head none) → ∀ m ∈ r.monitors, m.Quiet

/-! ### The invariants -/

/-- What holds in every run: nothing is said about the health of a process without a probe that
ended so. -/
structure Honest (r : Run) : Prop where
  tracker_eq : r.tracker = (r.received.map Prod.snd).foldl DependencyStatus.observe .new
  monitors_owed : ∀ m ∈ r.monitors, m.Owed r.probes
  sent_owed : ∀ event ∈ r.sent, event.2.Owed r.probes event.1
  condemned : r.runner.Condemned → (r.runner.runs, false) ∈ r.probes
  exited : ∀ uptime, .exited .unhealthy uptime ∈ r.runner.outbox →
    (r.runner.runs, false) ∈ r.probes
  outbox : ∀ kind ∈ r.runner.outbox, kind.isProbeReport = false
  /-- `Starting` is published first thing after it was decided on. -/
  opening : .state .starting ∈ r.runner.outbox →
    r.runner.phase = .spawning ∧ r.runner.outbox = [.state .starting]
  monitors_le : ∀ m ∈ r.monitors, m.run ≤ r.runner.runs ∧
    (r.runner.phase = .spawning → m.run < r.runner.runs)

/-- What holds in every run that keeps to the guard: the monitors of earlier processes have nothing
more to say, and the events that bear on health come while their process is the last one opened. -/
structure Fenced (r : Run) : Prop where
  quiet : ∀ m ∈ r.monitors, m.run < r.runner.runs → m.Quiet
  fresh : EpochLog.Fresh EventKind.Opens EventKind.Judges r.sent
  rising : EpochLog.Rising EventKind.Opens r.sent
  current_le : EpochLog.current EventKind.Opens r.sent ≤ r.runner.runs
  current_eq : .state .starting ∉ r.runner.outbox →
    EpochLog.current EventKind.Opens r.sent = r.runner.runs

theorem honest_new (service : Service) (options : RunOptions) : (new service options).Honest := by
  constructor <;> simp [new, sent, Runner.new, Runner.Condemned]

theorem fenced_new (service : Service) (options : RunOptions) : (new service options).Fenced := by
  constructor
  case fresh => exact EpochLog.fresh_nil
  case rising => exact EpochLog.rising_nil
  all_goals simp [new, sent, Runner.new]

/-! ### Steps of the runner -/

theorem stepRunner_cases {action : RunnerAction} (h : r.stepRunner action = some r') :
    r.runner.outbox = [] ∧ (action = .unhealthy → r.unhealthySignalled) ∧
      ∃ runner, r.runner.step action = some runner ∧ r' = r.withRunner runner action := by
  obtain ⟨⟨hout, hsignal⟩, h⟩ := Option.ite_none_right_eq_some.mp h
  obtain ⟨runner, hrunner, rfl⟩ := Option.map_eq_some_iff.mp h
  exact ⟨hout, hsignal, runner, hrunner, rfl⟩

/-- Beside the runner, its steps change how many readers there are, and add a new monitor. -/
theorem withRunner_eq (r : Run) (runner : Runner) (action : RunnerAction) :
    ∃ monitors readers,
      r.withRunner runner action =
        { r with runner := runner, monitors := monitors, readers := readers } ∧
      ∀ m ∈ monitors, m ∈ r.monitors ∨ ∃ check, m = .new r.runner.runs check := by
  unfold withRunner
  split
  · refine ⟨_, _, rfl, fun m hm => ?_⟩
    unfold spawnMonitor at hm
    split at hm
    · rename_i check _
      refine (List.mem_append.mp hm).imp_right fun hm => ⟨check, ?_⟩
      exact List.mem_singleton.mp hm
    · exact .inl hm
  · exact ⟨_, _, rfl, fun m hm => .inl hm⟩
  · exact ⟨_, _, rfl, fun m hm => .inl hm⟩

/-- The runner acts on an unhealthy verdict of the monitor of its own process only. -/
theorem Honest.of_signalled (h : r.Honest) (hsignal : r.unhealthySignalled) :
    (r.runner.runs, false) ∈ r.probes := by
  simp only [unhealthySignalled, List.any_eq_true, Bool.and_eq_true] at hsignal
  obtain ⟨m, hm, hwatches, signal, hmem, hunhealthy⟩ := hsignal
  have hrun : m.run = r.runner.runs := by
    simp only [Runner.watches, Bool.and_eq_true, beq_iff_eq] at hwatches
    exact hwatches.1
  exact hrun ▸ (h.monitors_owed m hm).sent signal hmem hunhealthy

theorem Honest.stepRunner (h : r.Honest) {action : RunnerAction}
    (hstep : r.stepRunner action = some r') : r'.Honest := by
  obtain ⟨hout, hsignal, runner, hrunner, rfl⟩ := stepRunner_cases hstep
  obtain ⟨monitors, readers, he, hmonitors⟩ := r.withRunner_eq runner action
  rw [he]
  have howed : ∀ m ∈ monitors, m.Owed r.probes := by
    intro m hm
    rcases hmonitors m hm with hm | ⟨check, rfl⟩
    · exact h.monitors_owed m hm
    · exact Monitor.owed_new _ _ _
  have hle : ∀ m ∈ monitors, m.run ≤ r.runner.runs := by
    intro m hm
    rcases hmonitors m hm with hm | ⟨check, rfl⟩
    · exact (h.monitors_le m hm).1
    · exact le_rfl
  rcases Runner.step_cases hout hrunner with ⟨-, -, hruns, hphase, hopens⟩ | hgoes
  · refine ⟨h.tracker_eq, howed, h.sent_owed, ?_, ?_, ?_, fun _ => ⟨hphase, hopens⟩, ?_⟩
    · simp [Runner.Condemned, hphase]
    · simp [hopens]
    · simp [hopens, EventKind.isProbeReport]
    · intro m hm
      have hlt : m.run < runner.runs := by
        rw [hruns]
        exact Nat.lt_succ_of_le (hle m hm)
      exact ⟨hlt.le, fun _ => hlt⟩
  · have hfailed : (r.runner.Condemned ∨ action = .unhealthy) →
        (r.runner.runs, false) ∈ r.probes := by
      rintro (hcondemned | haction)
      · exact h.condemned hcondemned
      · exact h.of_signalled (hsignal haction)
    refine ⟨h.tracker_eq, howed, h.sent_owed, ?_, ?_, hgoes.no_report, ?_, ?_⟩
    · exact fun hc => hgoes.runs_eq ▸ hfailed (hgoes.condemned_of hc)
    · exact fun uptime hmem => hgoes.runs_eq ▸ hfailed (hgoes.exited_of uptime hmem)
    · exact fun hmem => absurd hmem hgoes.no_starting
    · exact fun m hm => ⟨hgoes.runs_eq ▸ hle m hm, fun hphase => absurd hphase hgoes.not_spawning⟩

theorem Fenced.stepRunner (hf : r.Fenced) {action : RunnerAction}
    (hquiet : QuietStart r (.runner action) r') (hstep : r.stepRunner action = some r') : r'.Fenced := by
  obtain ⟨hout, -, runner, hrunner, rfl⟩ := stepRunner_cases hstep
  obtain ⟨monitors, readers, he, hmonitors⟩ := r.withRunner_eq runner action
  rw [he]
  rcases Runner.step_cases hout hrunner with ⟨haction, -, hruns, -, hopens⟩ | hgoes
  · refine ⟨fun m hm _ => ?_, hf.fresh, hf.rising, ?_, fun hnot => absurd ?_ hnot⟩
    · rcases hmonitors m hm with hm | ⟨check, rfl⟩
      · exact hquiet (haction ▸ rfl) m hm
      · exact Monitor.quiet_new _ _
    · rw [hruns]
      exact Nat.le_succ_of_le hf.current_le
    · simp [hopens]
  · refine ⟨fun m hm hlt => ?_, hf.fresh, hf.rising, hgoes.runs_eq ▸ hf.current_le, fun _ => ?_⟩
    · rw [hgoes.runs_eq] at hlt
      rcases hmonitors m hm with hm | ⟨check, rfl⟩
      · exact hf.quiet m hm hlt
      · exact absurd hlt (lt_irrefl _)
    · rw [hgoes.runs_eq]
      exact hf.current_eq (by simp [hout])

/-! ### Steps of a monitor -/

theorem stepMonitor_cases {index : ℕ} {action : MonitorAction}
    (h : r.stepMonitor index action = some r') :
    ∃ m m' out, r.monitors[index]? = some m ∧
      m.Stepped (!r.runner.watches m.run) (r.probes ++ probed m action) m' out ∧
      r' = { r with
        monitors := r.monitors.set index m'
        channel := r.channel ++ out.toList.map fun kind => (m.run, kind)
        probes := r.probes ++ probed m action } := by
  unfold stepMonitor at h
  split at h
  · cases h
  · rename_i m hm
    obtain ⟨⟨m', out⟩, hnext, rfl⟩ := Option.map_eq_some_iff.mp h
    refine ⟨m, m', out, hm, Monitor.stepped_of_step ?_ hnext, rfl⟩
    rintro result inStartPeriod rfl
    simp [probed]

/-- Only a receipt changes what was received, and what the tracker says. -/
theorem receipts_of_step {action : RunAction} (hstep : r.step action = some r')
    (hreceive : action ≠ .receive) : r'.tracker = r.tracker ∧ r'.received = r.received := by
  cases action with
  | runner runnerAction =>
    obtain ⟨-, -, runner, -, rfl⟩ := stepRunner_cases hstep
    obtain ⟨monitors, readers, he, -⟩ := r.withRunner_eq runner runnerAction
    rw [he]
    exact ⟨rfl, rfl⟩
  | publish =>
    simp only [step] at hstep
    split at hstep <;> cases hstep
    exact ⟨rfl, rfl⟩
  | monitor index monitorAction =>
    obtain ⟨_, _, _, -, -, rfl⟩ := stepMonitor_cases hstep
    exact ⟨rfl, rfl⟩
  | output | readerEnds =>
    obtain ⟨-, hstep⟩ := Option.ite_none_right_eq_some.mp hstep
    cases hstep
    exact ⟨rfl, rfl⟩
  | receive => exact absurd rfl hreceive

theorem Honest.stepMonitor (h : r.Honest) {index : ℕ} {action : MonitorAction}
    (hstep : r.stepMonitor index action = some r') : r'.Honest := by
  obtain ⟨m, m', out, hget, hstepped, rfl⟩ := stepMonitor_cases hstep
  have hm : m ∈ r.monitors := List.mem_of_getElem? hget
  have hsub : r.probes ⊆ r.probes ++ probed m action := List.subset_append_left _ _
  obtain ⟨howed, hout⟩ := hstepped.owed ((h.monitors_owed m hm).mono hsub)
  refine ⟨h.tracker_eq, fun x hx => ?_, fun event hmem => ?_, fun hc => hsub (h.condemned hc),
    fun uptime hmem => hsub (h.exited uptime hmem), h.outbox, h.opening, fun x hx => ?_⟩
  · rcases List.mem_or_eq_of_mem_set hx with hx | rfl
    · exact (h.monitors_owed x hx).mono hsub
    · exact howed
  · simp only [sent, ← List.append_assoc] at hmem
    rcases List.mem_append.mp hmem with hmem | hmem
    · exact (h.sent_owed event hmem).mono hsub
    · obtain ⟨kind, hkind, rfl⟩ := List.mem_map.mp hmem
      exact (hout kind (Option.mem_toList.mp hkind)).2
  · rcases List.mem_or_eq_of_mem_set hx with hx | rfl
    · exact h.monitors_le x hx
    · rw [hstepped.run_eq]
      exact h.monitors_le m hm

/-- An event of the process opened last, or one that does not bear on health, may be sent. -/
theorem Fenced.fresh_send (hf : r.Fenced) (event : ℕ × EventKind) (hopens : ¬ event.2.Opens)
    (hjudges : event.2.Judges →
      event.1 = r.runner.runs ∧ .state .starting ∉ r.runner.outbox) :
    EpochLog.Fresh EventKind.Opens EventKind.Judges (r.sent ++ [event]) ∧
      EpochLog.Rising EventKind.Opens (r.sent ++ [event]) ∧
      EpochLog.current EventKind.Opens (r.sent ++ [event]) =
        EpochLog.current EventKind.Opens r.sent := by
  refine ⟨EpochLog.fresh_concat.mpr ⟨hf.fresh, fun h => ?_⟩,
    EpochLog.rising_concat.mpr ⟨hf.rising, fun h => absurd h hopens⟩,
    EpochLog.current_concat_of_not hopens⟩
  rw [(hjudges h).1, hf.current_eq (hjudges h).2]

theorem Fenced.stepMonitor (hf : r.Fenced) (h : r.Honest) {index : ℕ} {action : MonitorAction}
    (hstep : r.stepMonitor index action = some r') : r'.Fenced := by
  obtain ⟨m, m', out, hget, hstepped, rfl⟩ := stepMonitor_cases hstep
  have hm : m ∈ r.monitors := List.mem_of_getElem? hget
  -- The monitor of an earlier process finds its channel closed.
  have hold : m.run < r.runner.runs → m'.Quiet ∧ ∀ kind ∈ out, ¬ kind.isHealthVerdict := by
    intro hlt
    refine hstepped.quiet ?_ (hf.quiet m hm hlt)
    simp [Runner.watches, hlt.ne]
  have hquiet : ∀ x ∈ r.monitors.set index m', x.run < r.runner.runs → x.Quiet := by
    intro x hx hlt
    rcases List.mem_or_eq_of_mem_set hx with hx | rfl
    · exact hf.quiet x hx hlt
    · exact (hold (hstepped.run_eq ▸ hlt)).1
  cases out with
  | none =>
    have hsent : r.received ++ (r.channel ++
        (none : Option EventKind).toList.map fun kind => (m.run, kind)) = r.sent := by
      simp [sent]
    refine ⟨hquiet, ?_, ?_, ?_, ?_⟩ <;> simp only [sent, hsent]
    exacts [hf.fresh, hf.rising, hf.current_le, hf.current_eq]
  | some kind =>
    have hsub : r.probes ⊆ r.probes ++ probed m action := List.subset_append_left _ _
    have hreport := (hstepped.owed ((h.monitors_owed m hm).mono hsub)).2 kind rfl
    have hopens : ¬ kind.Opens := by
      rintro rfl
      simp [EventKind.isProbeReport] at hreport
    have hjudges : kind.Judges →
        m.run = r.runner.runs ∧ .state .starting ∉ r.runner.outbox := by
      rintro (hverdict | ⟨uptime, rfl⟩)
      · have hrun : m.run = r.runner.runs := by
          refine le_antisymm (h.monitors_le m hm).1 (not_lt.mp fun hlt => ?_)
          exact (hold hlt).2 kind rfl hverdict
        refine ⟨hrun, fun hmem => ?_⟩
        exact ((h.monitors_le m hm).2 (h.opening hmem).1).ne hrun
      · simp [EventKind.isProbeReport] at hreport
    obtain ⟨hfresh, hrising, hcurrent⟩ := hf.fresh_send (m.run, kind) hopens hjudges
    have hsent : r.received ++ (r.channel ++
        (some kind).toList.map fun kind => (m.run, kind)) = r.sent ++ [(m.run, kind)] := by
      simp [sent]
    refine ⟨hquiet, ?_, ?_, ?_, ?_⟩ <;> simp only [sent, hsent]
    · exact hfresh
    · exact hrising
    · exact hcurrent ▸ hf.current_le
    · exact hcurrent ▸ hf.current_eq

/-! ### Other steps -/

/-- What the runner still has to publish once the first event is sent. -/
theorem Honest.rest (h : r.Honest) {kind : EventKind} {rest : List EventKind}
    (hout : r.runner.outbox = kind :: rest) : .state .starting ∉ rest := by
  intro hmem
  have hone := (h.opening (by simp [hout, hmem])).2
  rw [hout] at hone
  obtain ⟨-, rfl⟩ := List.cons.inj hone
  cases hmem

theorem Honest.publish (h : r.Honest) {kind : EventKind} {rest : List EventKind}
    (hout : r.runner.outbox = kind :: rest) :
    Honest { r with
      runner := { r.runner with outbox := rest }
      channel := r.channel ++ [(r.runner.runs, kind)] } := by
  have hrest : ∀ k ∈ rest, k ∈ r.runner.outbox := fun k hk => by simp [hout, hk]
  refine ⟨h.tracker_eq, h.monitors_owed, fun event hmem => ?_, h.condemned,
    fun uptime hmem => h.exited uptime (hrest _ hmem), fun k hmem => h.outbox k (hrest k hmem),
    fun hmem => absurd hmem (h.rest hout), h.monitors_le⟩
  simp only [sent, ← List.append_assoc] at hmem
  rcases List.mem_append.mp hmem with hmem | hmem
  · exact h.sent_owed event hmem
  · cases List.mem_singleton.mp hmem
    -- Probes are reported by monitors; the runner publishes the end of a process they condemned.
    have hreport := h.outbox kind (by simp [hout])
    cases kind with
    | healthy | unhealthy => simp [EventKind.isProbeReport] at hreport
    | exited reason uptime =>
      cases reason with
      | unhealthy => exact h.exited uptime (by simp [hout])
      | _ => trivial
    | _ => trivial

theorem Fenced.publish (hf : r.Fenced) (h : r.Honest) {kind : EventKind} {rest : List EventKind}
    (hout : r.runner.outbox = kind :: rest) :
    Fenced { r with
      runner := { r.runner with outbox := rest }
      channel := r.channel ++ [(r.runner.runs, kind)] } := by
  have hsent : r.received ++ (r.channel ++ [(r.runner.runs, kind)]) =
      r.sent ++ [(r.runner.runs, kind)] := by simp [sent]
  by_cases hopens : kind.Opens
  · subst hopens
    have hcurrent : EpochLog.current EventKind.Opens
        (r.sent ++ [(r.runner.runs, .state .starting)]) = r.runner.runs := by
      rw [EpochLog.current_concat, if_pos rfl]
    refine ⟨hf.quiet, ?_, ?_, ?_, fun _ => ?_⟩ <;> simp only [sent, hsent]
    · refine EpochLog.fresh_concat.mpr ⟨hf.fresh, fun hjudges => ?_⟩
      simp [EventKind.Judges, EventKind.isHealthVerdict] at hjudges
    · exact EpochLog.rising_concat.mpr ⟨hf.rising, fun _ => hf.current_le⟩
    · exact hcurrent.le
    · exact hcurrent
  · have hstarting : .state .starting ∉ r.runner.outbox := by
      rw [hout, List.mem_cons, not_or]
      exact ⟨fun he => hopens he.symm, h.rest hout⟩
    obtain ⟨hfresh, hrising, hcurrent⟩ :=
      hf.fresh_send (r.runner.runs, kind) hopens fun _ => ⟨rfl, hstarting⟩
    refine ⟨hf.quiet, ?_, ?_, ?_, fun _ => ?_⟩ <;> simp only [sent, hsent]
    · exact hfresh
    · exact hrising
    · exact hcurrent ▸ hf.current_le
    · exact hcurrent.trans (hf.current_eq hstarting)

theorem Honest.output (h : r.Honest) {kind : EventKind} (hkind : kind.isOutput) :
    Honest { r with channel := r.channel ++ [(r.runner.runs, kind)] } := by
  refine ⟨h.tracker_eq, h.monitors_owed, fun event hmem => ?_, h.condemned, h.exited, h.outbox,
    h.opening, h.monitors_le⟩
  simp only [sent, ← List.append_assoc] at hmem
  rcases List.mem_append.mp hmem with hmem | hmem
  · exact h.sent_owed event hmem
  · cases List.mem_singleton.mp hmem
    cases kind with
    | log | logLinesDropped => trivial
    | _ => simp [EventKind.isOutput] at hkind

theorem Fenced.output (hf : r.Fenced) {kind : EventKind} (hkind : kind.isOutput) :
    Fenced { r with channel := r.channel ++ [(r.runner.runs, kind)] } := by
  have hsent : r.received ++ (r.channel ++ [(r.runner.runs, kind)]) =
      r.sent ++ [(r.runner.runs, kind)] := by simp [sent]
  have hopens : ¬ kind.Opens := by
    rintro rfl
    simp [EventKind.isOutput] at hkind
  have hjudges : ¬ kind.Judges := by
    rintro (hverdict | ⟨uptime, rfl⟩)
    · cases kind <;> simp_all [EventKind.isOutput, EventKind.isHealthVerdict]
    · simp [EventKind.isOutput] at hkind
  obtain ⟨hfresh, hrising, hcurrent⟩ :=
    hf.fresh_send (r.runner.runs, kind) hopens fun hj => absurd hj hjudges
  refine ⟨hf.quiet, ?_, ?_, ?_, ?_⟩ <;> simp only [sent, hsent]
  · exact hfresh
  · exact hrising
  · exact hcurrent ▸ hf.current_le
  · exact hcurrent ▸ hf.current_eq

theorem Honest.receive (h : r.Honest) {event : ℕ × EventKind} {rest : List (ℕ × EventKind)}
    (hchannel : r.channel = event :: rest) :
    Honest { r with
      channel := rest
      tracker := r.tracker.observe event.2
      received := r.received ++ [event] } := by
  have hsent : r.received ++ [event] ++ rest = r.sent := by simp [sent, hchannel]
  refine ⟨?_, h.monitors_owed, ?_, h.condemned, h.exited, h.outbox, h.opening, h.monitors_le⟩
  · simp [h.tracker_eq]
  · simpa only [sent, hsent] using h.sent_owed

theorem Fenced.receive (hf : r.Fenced) {event : ℕ × EventKind} {rest : List (ℕ × EventKind)}
    (hchannel : r.channel = event :: rest) :
    Fenced { r with
      channel := rest
      tracker := r.tracker.observe event.2
      received := r.received ++ [event] } := by
  have hsent : r.received ++ [event] ++ rest = r.sent := by simp [sent, hchannel]
  refine ⟨hf.quiet, ?_, ?_, ?_, ?_⟩ <;> simp only [sent, hsent]
  exacts [hf.fresh, hf.rising, hf.current_le, hf.current_eq]

/-! ### Whole runs -/

theorem Honest.step (h : r.Honest) (hstep : r.step action = some r') : r'.Honest := by
  cases action with
  | runner action => exact h.stepRunner hstep
  | monitor index action => exact h.stepMonitor hstep
  | publish =>
    simp only [Run.step] at hstep
    split at hstep <;> cases hstep
    rename_i kind rest hout
    exact h.publish hout
  | output kind =>
    obtain ⟨⟨-, hkind⟩, hstep⟩ := Option.ite_none_right_eq_some.mp hstep
    cases hstep
    exact h.output hkind
  | readerEnds =>
    obtain ⟨-, hstep⟩ := Option.ite_none_right_eq_some.mp hstep
    cases hstep
    exact ⟨h.tracker_eq, h.monitors_owed, h.sent_owed, h.condemned, h.exited, h.outbox, h.opening,
      h.monitors_le⟩
  | receive =>
    simp only [Run.step] at hstep
    split at hstep <;> cases hstep
    rename_i event rest hchannel
    exact h.receive hchannel

theorem Fenced.step (hf : r.Fenced) (h : r.Honest) (hquiet : QuietStart r action r')
    (hstep : r.step action = some r') : r'.Fenced := by
  cases action with
  | runner action => exact hf.stepRunner hquiet hstep
  | monitor index action => exact hf.stepMonitor h hstep
  | publish =>
    simp only [Run.step] at hstep
    split at hstep <;> cases hstep
    rename_i kind rest hout
    exact hf.publish h hout
  | output kind =>
    obtain ⟨⟨-, hkind⟩, hstep⟩ := Option.ite_none_right_eq_some.mp hstep
    cases hstep
    exact hf.output hkind
  | readerEnds =>
    obtain ⟨-, hstep⟩ := Option.ite_none_right_eq_some.mp hstep
    cases hstep
    exact ⟨hf.quiet, hf.fresh, hf.rising, hf.current_le, hf.current_eq⟩
  | receive =>
    simp only [Run.step] at hstep
    split at hstep <;> cases hstep
    rename_i event rest hchannel
    exact hf.receive hchannel

theorem honest_of_reachable {C : Run → RunAction → Run → Prop} (h : runSystem.Reachable C r) :
    r.Honest := by
  refine h.invariant ?_ fun _ hI _ hstep => hI.step hstep
  rintro r₀ ⟨service, options, rfl⟩
  exact honest_new service options

theorem fenced_of_reachable (h : runSystem.Reachable QuietStart r) : r.Fenced := by
  refine h.invariant ?_ fun hu hf hquiet hstep => hf.step (honest_of_reachable hu) hquiet hstep
  rintro r₀ ⟨service, options, rfl⟩
  exact fenced_new service options

theorem Fenced.freshHealth (hf : r.Fenced) (h : r.Honest) : r.FreshHealth where
  healthy hhealthy := by
    rw [h.tracker_eq] at hhealthy
    obtain ⟨event, hmem, hkind, hrun⟩ := hf.fresh.of_append.exists_of_flag
      (fun status : DependencyStatus => status.healthy) (fun kind => kind = .healthy)
      (fun _ he => .inl (he ▸ rfl)) (fun _ _ => DependencyStatus.healthy_observe_starting)
      (fun _ _ => DependencyStatus.healthy_of_observe) (by decide) hhealthy
    have howed := h.sent_owed event (List.mem_append_left _ hmem)
    rw [hkind, show event.1 = r.current from hrun] at howed
    exact howed
  unhealthy hunhealthy := by
    rw [h.tracker_eq] at hunhealthy
    obtain ⟨event, hmem, hkind, hrun⟩ := hf.fresh.of_append.exists_of_flag
      (fun status : DependencyStatus => status.unhealthy)
      (fun kind => (∃ message, kind = .unhealthy message) ∨ ∃ uptime, kind = .exited .unhealthy uptime)
      (fun _ he => he.imp_left fun ⟨_, he⟩ => he ▸ rfl)
      (fun _ _ => DependencyStatus.unhealthy_observe_starting)
      (fun _ _ hnot => DependencyStatus.unhealthy_of_observe
        (fun message he => hnot (.inl ⟨message, he⟩)) fun uptime he => hnot (.inr ⟨uptime, he⟩))
      (by decide) hunhealthy
    have howed := h.sent_owed event (List.mem_append_left _ hmem)
    rw [show event.1 = r.current from hrun] at howed
    rcases hkind with ⟨message, hkind⟩ | ⟨uptime, hkind⟩ <;> rw [hkind] at howed <;> exact howed
  not_stale hsplit hopening hverdict :=
    hf.rising.of_append.not_stale hf.fresh.of_append hopening (.inl hverdict) hsplit

/-- **Health belongs to the current process**, in every run in which no monitor has a verdict left to
send, or a probe in flight that can end in one, whenever the runner goes back to `Starting`. -/
theorem freshHealth_of_reachable (h : runSystem.Reachable QuietStart r) : r.FreshHealth :=
  (fenced_of_reachable h).freshHealth (honest_of_reachable h)

end Run

/-! ### A run to follow -/

/-- A service that is always restarted, and is probed over TCP. -/
def probedService : Service where
  name := ⟨"db"⟩
  executable := "run"
  args := []
  cwd := "/"
  env := ∅
  envFiles := []
  dependsOn := []
  profiles := []
  autostart := true
  restart := .always
  restartDelay := 0
  restartMaxDelay := 0
  maxRestarts := 0
  stableAfter := 0
  shutdownSignal := .term
  shutdownTimeout := 0
  health := some
    { probe := .tcp "localhost" 5432, interval := 1, timeout := 1, retries := 1, startPeriod := 0
      onUnhealthy := .ignore }
  logToFile := false
  watch := none

def probedOptions : RunOptions where
  noRestart := false
  output := .capture

/-- The runner starts a process and publishes that it runs. -/
def startProcess (pgid : ℤ) : List RunAction :=
  [.runner (.head none), .publish, .runner (.spawn (.ok pgid)), .publish, .publish]

/-- The process exits, and the runner comes back to the head of its loop. -/
def endProcess : List RunAction :=
  [.runner (.wait (.ok ⟨some 1, none⟩)), .runner (.sweep (.ok ()) 0), .publish, .publish, .publish,
    .runner .slept]

/-- The monitor at a position comes to its next probe. -/
def beginProbe (index : ℕ) : List RunAction := [.monitor index .tick, .monitor index .check]

/-- The probe passes for the first time, and this is published. -/
def passProbe (index : ℕ) : List RunAction :=
  [.monitor index (.probe (.ok ()) false), .monitor index .publish]

/-- The process is stopped on request, and the runner returns. -/
def stopProcess : List RunAction :=
  [.runner (.interrupted .requested), .publish, .publish, .runner (.signal (.ok ())),
    .runner (.wait (.ok ⟨some 0, none⟩)), .runner (.sweep (.ok ()) 0), .publish, .publish,
    .runner .return]

namespace Run

/-- Monitors that wait, or are done, when the runner is at the head of its loop. -/
def restingStart (r : Run) (action : RunAction) : Bool :=
  match action with
  | .runner (.head none) => r.monitors.all fun m => m.phase = .idle || m.phase = .done
  | _ => true

theorem quietStart_of_restingStart (r : Run) (action : RunAction) (r' : Run)
    (h : restingStart r action) (_ : runSystem.step r action = some r') :
    QuietStart r action r' := by
  rintro rfl m hm
  have hphase : m.phase = .idle ∨ m.phase = .done := by
    simpa using List.all_eq_true.mp h m hm
  constructor <;> rcases hphase with hphase | hphase <;> simp [hphase, Monitor.outbox]

/-- Two processes in turn, each found healthy by its own monitor. -/
theorem freshHealth_twoProcesses :
    ∃ r, runSystem.checkedRun restingStart (new probedService probedOptions)
        (startProcess 100 ++ beginProbe 0 ++ passProbe 0 ++ [.monitor 0 .publish] ++ endProcess ++
          startProcess 200 ++ beginProbe 1 ++ passProbe 1 ++ List.replicate 11 .receive) = some r ∧
      r.tracker.healthy ∧ r.current = 2 ∧ r.FreshHealth := by
  have hrun : ((runSystem.checkedRun restingStart (new probedService probedOptions)
      (startProcess 100 ++ beginProbe 0 ++ passProbe 0 ++ [.monitor 0 .publish] ++ endProcess ++
        startProcess 200 ++ beginProbe 1 ++ passProbe 1 ++
        List.replicate 11 .receive)).map fun r =>
      decide (r.tracker.healthy ∧ r.current = 2)) = some true := by decide +kernel
  obtain ⟨r, hr, hfacts⟩ := Option.map_eq_some_iff.mp hrun
  obtain ⟨hhealthy, hcurrent⟩ := of_decide_eq_true hfacts
  refine ⟨r, hr, hhealthy, hcurrent, freshHealth_of_reachable ?_⟩
  exact ⟨_, ⟨probedService, probedOptions, rfl⟩,
    TransitionSystem.steps_of_checkedRun quietStart_of_restingStart hr⟩

/-- The probe in flight when the first process exits passes after the second one was announced, and
makes the service healthy before any probe of the second process has returned. -/
theorem lateProbe_makes_healthy : ¬ ∀ r, runSystem.Reachable AnyStep r → r.FreshHealth := by
  intro hall
  have hrun : ((runSystem.run (new probedService probedOptions)
      (startProcess 100 ++ beginProbe 0 ++ endProcess ++ startProcess 200 ++ passProbe 0 ++
        List.replicate 10 .receive)).map fun r =>
      decide (r.tracker.healthy ∧ (r.current, true) ∉ r.probes)) = some true := by decide +kernel
  obtain ⟨r, hr, hfacts⟩ := Option.map_eq_some_iff.mp hrun
  obtain ⟨hhealthy, hprobe⟩ := of_decide_eq_true hfacts
  have hreach : runSystem.Reachable AnyStep r :=
    ⟨_, ⟨probedService, probedOptions, rfl⟩, TransitionSystem.steps_of_run hr⟩
  exact hprobe ((hall r hreach).healthy hhealthy)

end Run

end Servicrab
