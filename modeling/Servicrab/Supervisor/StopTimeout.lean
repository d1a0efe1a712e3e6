import Mathlib.Algebra.GroupWithZero.Nat
import Servicrab.Supervisor.Shutdown

/-!
# The stop timeout of the generated unit

`stop_timeout` (`generate.rs`) grants the daemon the slowest configured `shutdown_timeout` and a
margin, and no less than a lower bound. `stop_all` waits for one task after another, each of which
ends its `shutdown_timeout` after it was asked to stop: that of the service it was spawned for, which
a reload may have changed or dropped since. It waits no longer than the grace period, which follows
the configuration in force. What it takes is the sum.

## Main definitions

* `Config.stopTimeout`.
* `Shutdown.isTimely`: the moves of a run whose tasks end in that time.
* `Shutdown.elapsed`: how long such a run takes.

## Main results

* `Shutdown.elapsed_add_remaining`: what was waited and what is left to wait is the sum.
* `Shutdown.stop_covered_iff`, `Shutdown.stop_covered_iff_of_loaded`: when the timeout covers it.
-/

open Std (ExtTreeMap)
open TransitionSystem (AnyStep)

namespace Servicrab

/-- Extra time on top of the slowest service's shutdown timeout: fifteen seconds. -/
def stopMargin : Duration := 15 * 10 ^ 9

/-- Lower bound for the stop timeout: thirty seconds. -/
def minStopTimeout : Duration := 30 * 10 ^ 9

/-- The slowest shutdown timeout of a configuration. -/
def Config.slowest (config : Config) : Duration :=
  ((config.services.toList.map fun entry => entry.2.shutdownTimeout).max?).getD 0

/-- How long the init system should allow for a clean stop. -/
def Config.stopTimeout (config : Config) : Duration :=
  max (config.slowest + stopMargin) minStopTimeout

namespace Stack

variable (w : Stack)

/-- How long the service that a task was spawned for is granted to stop. -/
def grantedTo (task : ℕ) : Duration :=
  ((w.tasks[task]?).map fun spawned => spawned.service.shutdownTimeout).getD 0

/-- How long the task of a service is waited for, when it ends as late as it was granted: the grace
period may be over before. -/
def stopTime (name : ServiceName) (task : ℕ) : Duration := min (w.grantedTo task) (w.grace name)

/-- How long the tasks that services of a list have are waited for in all. -/
def stopTimes (names : List ServiceName) : Duration :=
  (names.filterMap fun name => (w.live name).map (w.stopTime name)).sum

end Stack

namespace Shutdown

variable (s : Shutdown)

/-- Whether a move comes when it is due, with tasks that end as late as they were granted: one ends
within its grace period, or the grace period is over before. -/
def isTimely : ShutdownAction → Bool
  | .ended =>
    match s.phase with
    | .waiting _ task grace _ => s.stack.grantedTo task ≤ grace
    | _ => true
  | .timeout =>
    match s.phase with
    | .waiting _ task grace _ => grace ≤ s.stack.grantedTo task
    | _ => true
  | _ => true

/-- How long a move takes, when tasks end as late as they were granted. -/
def spends : ShutdownAction → Duration
  | .ended =>
    match s.phase with
    | .waiting _ task _ _ => s.stack.grantedTo task
    | _ => 0
  | .timeout =>
    match s.phase with
    | .waiting _ _ grace _ => grace
    | _ => 0
  | _ => 0

/-- How long the moves take together. -/
def elapsed (s : Shutdown) : List ShutdownAction → Duration
  | [] => 0
  | action :: actions =>
    s.spends action + ((s.step action).map fun s' => elapsed s' actions).getD 0

/-- What is left to wait. -/
def remaining (w : Stack) (s : Shutdown) : Duration :=
  (match s.phase with
    | .waiting _ task grace _ => min (w.grantedTo task) grace
    | _ => 0) + w.stopTimes s.phase.ahead

variable {s} {w : Stack} {s' : Shutdown} {come : List ServiceName} {name : ServiceName} {task : ℕ}
  {grace : Duration} {rest : List ServiceName}

theorem stopTimes_cons_of_live (h : w.live name = some task) (rest : List ServiceName) :
    w.stopTimes (name :: rest) = w.stopTime name task + w.stopTimes rest := by
  simp [Stack.stopTimes, h]

theorem stopTimes_cons_of_not_live (h : w.live name = none) (rest : List ServiceName) :
    w.stopTimes (name :: rest) = w.stopTimes rest := by
  simp [Stack.stopTimes, h]

theorem remaining_of_waiting (hphase : s.phase = .waiting name task grace rest) :
    remaining w s = min (w.grantedTo task) grace + w.stopTimes rest := by
  simp only [remaining, hphase, ShutdownPhase.ahead]

theorem remaining_of_stopping (hphase : s.phase = .stopping rest) :
    remaining w s = w.stopTimes rest := by
  simp only [remaining, hphase, ShutdownPhase.ahead, Nat.zero_add]

/-- Nothing is left to wait once `stop_all` has returned. -/
theorem remaining_of_stopped (h : s.phase.Stopped) : remaining w s = 0 := by
  unfold remaining
  rw [h.ahead_eq]
  cases hphase : s.phase with
  | stopping | waiting => simp [hphase, ShutdownPhase.Stopped] at h
  | joining | draining | done => rfl

/-- Where a run of `stop_all` is, with what it has come to and the configuration in force. -/
structure Timed (w : Stack) (s : Shutdown) : Prop where
  came : ∃ come, Came w s come
  config_eq : s.stack.config = w.config

theorem Timed.grantedTo_eq (h : Timed w s) (task : ℕ) : s.stack.grantedTo task = w.grantedTo task := by
  obtain ⟨come, hcame⟩ := h.came
  rw [Stack.grantedTo, hcame.tasks_eq]
  rfl

theorem Timed.grace_eq (h : Timed w s) (name : ServiceName) : s.stack.grace name = w.grace name := by
  rw [Stack.grace, h.config_eq]
  rfl

/-- As `stop_all` goes on to the next service, nothing is waited, and as much is left to wait. -/
theorem Timed.remaining_stop (h : Timed w s) (hI : w.Inv) (hstep : s.step .stop = some s') :
    s'.stack.config = s.stack.config ∧ remaining w s' = remaining w s := by
  obtain ⟨come, hcame⟩ := h.came
  simp only [step] at hstep
  split at hstep
  · rename_i name rest reason hphase hreason
    cases hstep
    have hstop : s.stops[name]? = w.live name := by rw [hcame.stops_eq, hI.stops_eq]
    have hhandle : s.handles[name]? = w.live name :=
      hcame.handles_eq name (by rw [hphase]; exact .head rest)
    rw [remaining_of_stopping hphase]
    cases hlive : w.live name with
    | none =>
      have hnext : s.stopNext reason name rest = { s with phase := .stopping rest } := by
        simp only [stopNext, hstop, hlive]
      rw [hnext, stopTimes_cons_of_not_live hlive]
      exact ⟨rfl, remaining_of_stopping rfl⟩
    | some task =>
      have hgrace : (s.stack.request task reason).grace name = w.grace name := h.grace_eq name
      have hnext : (s.stopNext reason name rest).phase =
          .waiting name task (w.grace name) rest ∧
            (s.stopNext reason name rest).stack.config = s.stack.config := by
        simp only [stopNext, hstop, hhandle, hlive, hgrace]
        exact ⟨trivial, rfl⟩
      rw [stopTimes_cons_of_live hlive]
      exact ⟨hnext.2, remaining_of_waiting hnext.1⟩
  · rename_i hphase
    cases hstep
    rw [remaining_of_stopping hphase]
    exact ⟨rfl, Nat.zero_add _⟩
  · cases hstep

/-- What `run` does once `stop_all` has returned leaves the configuration as it is. -/
theorem stopped_of_step {action : ShutdownAction} (haction : action = .join ∨ action = .drain)
    (hstep : s.step action = some s') :
    s.phase.Stopped ∧ s'.phase.Stopped ∧ s'.stack.config = s.stack.config := by
  rcases haction with rfl | rfl
  · simp only [step] at hstep
    split at hstep
    · rename_i hphase
      obtain ⟨-, hstep⟩ := Option.ite_none_right_eq_some.mp hstep
      cases hstep
      exact ⟨hphase ▸ trivial, trivial, rfl⟩
    · rename_i hphase
      cases hstep
      exact ⟨hphase ▸ trivial, trivial, rfl⟩
    · cases hstep
  · simp only [step] at hstep
    split at hstep
    · rename_i hphase _
      cases hstep
      exact ⟨hphase ▸ trivial, hphase ▸ trivial, rfl⟩
    · rename_i hphase _
      obtain ⟨-, hstep⟩ := Option.ite_none_right_eq_some.mp hstep
      cases hstep
      exact ⟨hphase ▸ trivial, trivial, rfl⟩
    · cases hstep

/-- Every timely move takes off what is left to wait as much as it takes. -/
theorem Timed.spends_add_remaining (h : Timed w s) (hI : w.Inv) {reason : Option ShutdownReason}
    (hleft : w.left = some reason) {action : ShutdownAction} (htimely : s.isTimely action)
    (hstep : s.step action = some s') :
    s'.stack.config = s.stack.config ∧ s.spends action + remaining w s' = remaining w s := by
  obtain ⟨come, hcame⟩ := h.came
  cases action with
  | outside action =>
    obtain ⟨stack, hstack, rfl⟩ := Option.map_eq_some_iff.mp hstep
    have hquiet := (Stack.step_of_left (hcame.left_eq.trans hleft) hstack).1
    exact ⟨hquiet.config_eq, Nat.zero_add _⟩
  | stop =>
    obtain ⟨hconfig, hremaining⟩ := h.remaining_stop hI hstep
    exact ⟨hconfig, by rw [hremaining]; exact Nat.zero_add _⟩
  | ended =>
    simp only [step] at hstep
    split at hstep
    · rename_i name task grace rest hphase
      obtain ⟨-, hstep⟩ := Option.ite_none_right_eq_some.mp hstep
      cases hstep
      simp only [isTimely, hphase, decide_eq_true_eq, h.grantedTo_eq] at htimely
      refine ⟨rfl, ?_⟩
      rw [remaining_of_waiting hphase, remaining_of_stopping rfl, min_eq_left htimely]
      simp only [spends, hphase, h.grantedTo_eq]
    · cases hstep
  | timeout =>
    simp only [step] at hstep
    split at hstep
    · rename_i name task grace rest hphase
      cases hstep
      simp only [isTimely, hphase, decide_eq_true_eq, h.grantedTo_eq] at htimely
      refine ⟨rfl, ?_⟩
      rw [remaining_of_waiting hphase, remaining_of_stopping rfl, min_eq_right htimely]
      simp only [spends, hphase]
    · cases hstep
  | join | drain =>
    obtain ⟨hphase, hphase', hconfig⟩ := stopped_of_step (by simp) hstep
    rw [remaining_of_stopped hphase, remaining_of_stopped hphase']
    exact ⟨hconfig, rfl⟩

/-- What was waited and what is left to wait is the same at every time. -/
theorem Timed.elapsed_add_remaining (hI : w.Inv) (hnodup : w.stopOrder.Nodup)
    {reason : Option ShutdownReason} (hleft : w.left = some reason) {actions : List ShutdownAction}
    (h : Timed w s) (hrun : shutdownSystem.checkedRun isTimely s actions = some s') :
    s.elapsed actions + remaining w s' = remaining w s := by
  induction actions generalizing s with
  | nil =>
    obtain rfl : s = s' := Option.some.inj hrun
    exact Nat.zero_add _
  | cons action actions ih =>
    obtain ⟨htimely, hrun⟩ := Option.ite_none_right_eq_some.mp hrun
    obtain ⟨s₁, hstep, hrest⟩ := Option.bind_eq_some_iff.mp hrun
    obtain ⟨hconfig, hspends⟩ := h.spends_add_remaining hI hleft htimely hstep
    obtain ⟨come, hcame⟩ := h.came
    have h₁ : Timed w s₁ :=
      ⟨hcame.step hI hnodup hleft hstep, hconfig.trans h.config_eq⟩
    have hlater := ih h₁ hrest
    have hfirst : s.elapsed (action :: actions) = s.spends action + s₁.elapsed actions := by
      rw [elapsed, show s.step action = some s₁ from hstep]
      rfl
    rw [hfirst, Nat.add_assoc, hlater, hspends]

/-- How long `stop_all` takes with tasks that end as late as they were granted, once a plan of a
loaded configuration was left. -/
theorem elapsed_eq (hI : w.Inv) (hplanned : w.Planned) {reason : ShutdownReason}
    (hleft : w.left = some (some reason)) {actions : List ShutdownAction}
    (hrun : shutdownSystem.checkedRun isTimely (Shutdown.begin w (some reason)) actions = some s)
    (hstopped : s.phase.Stopped) :
    (Shutdown.begin w (some reason)).elapsed actions = w.stopTimes w.stopOrder := by
  have hbegin : Timed w (Shutdown.begin w (some reason)) := ⟨⟨[], .begin w (some reason)⟩, rfl⟩
  have htotal := hbegin.elapsed_add_remaining hI hplanned.nodup_stopOrder hleft hrun
  rwa [remaining_of_stopped hstopped, Nat.add_zero, remaining_of_stopping rfl] at htotal

section Covered

variable {options : StackOptions} {config : ValidConfig} {plan : StartPlan config.1}
  {stopped : Finset ServiceName} {reason : ShutdownReason} {actions : List ShutdownAction}

/-- The generated timeout is the greater one of two. -/
theorem covered_iff_of_planned (hI : w.Inv) (hplanned : w.Planned)
    (hleft : w.left = some (some reason))
    (hrun : shutdownSystem.checkedRun isTimely (Shutdown.begin w (some reason)) actions = some s)
    (hstopped : s.phase.Stopped) :
    (Shutdown.begin w (some reason)).elapsed actions ≤ w.config.1.stopTimeout ↔
      w.stopTimes w.stopOrder ≤ w.config.1.slowest + stopMargin ∨
        w.stopTimes w.stopOrder ≤ minStopTimeout := by
  rw [elapsed_eq hI hplanned hleft hrun hstopped, Config.stopTimeout, le_max_iff]

/-- **When the stop timeout covers stopping the stack.** When every task that is there ends exactly
its own shutdown timeout after it was asked to stop, unless its grace period is over before,
`stop_all` takes the sum of these times. The generated timeout covers that if and only if it is at
most the slowest timeout and the margin, or the lower bound. -/
theorem stop_covered_iff (hsorted : config.1.Sorted)
    (hw : stackSystem.Steps Stack.SortedReloads (Stack.initial options config plan.1 stopped) w)
    (hleft : w.left = some (some reason))
    (hrun : shutdownSystem.checkedRun isTimely (Shutdown.begin w (some reason)) actions = some s)
    (hstopped : s.phase.Stopped) :
    (Shutdown.begin w (some reason)).elapsed actions ≤ w.config.1.stopTimeout ↔
      w.stopTimes w.stopOrder ≤ w.config.1.slowest + stopMargin ∨
        w.stopTimes w.stopOrder ≤ minStopTimeout :=
  covered_iff_of_planned
    (Stack.inv_of_reachable ⟨_, ⟨options, config, plan, stopped, rfl⟩, hw.anyStep⟩)
    (Stack.planned_of_steps hsorted hw) hleft hrun hstopped

/-- When it does so for configurations that loading has accepted. -/
theorem stop_covered_iff_of_loaded (hloaded : config.1.Loaded)
    (hw : stackSystem.Steps Stack.LoadedReloads (Stack.initial options config plan.1 stopped) w)
    (hleft : w.left = some (some reason))
    (hrun : shutdownSystem.checkedRun isTimely (Shutdown.begin w (some reason)) actions = some s)
    (hstopped : s.phase.Stopped) :
    (Shutdown.begin w (some reason)).elapsed actions ≤ w.config.1.stopTimeout ↔
      w.stopTimes w.stopOrder ≤ w.config.1.slowest + stopMargin ∨
        w.stopTimes w.stopOrder ≤ minStopTimeout :=
  covered_iff_of_planned
    (Stack.inv_of_reachable ⟨_, ⟨options, config, plan, stopped, rfl⟩, hw.anyStep⟩)
    (Stack.planned_of_loaded hloaded hw) hleft hrun hstopped

end Covered

/-! ### Two stacks of two services -/

/-- A service that is granted some seconds to stop. -/
def grantedService (name : String) (seconds : ℕ) : Service :=
  { sampleService name [] [] with shutdownTimeout := seconds * 10 ^ 9 }

/-- Two services that are granted a minute each. -/
def slowConfig : ValidConfig :=
  ⟨configOf [grantedService "api" 60, grantedService "worker" 60],
    ⟨by decide +kernel, by decide +kernel, by decide +kernel⟩⟩

def slowPlan : StartPlan slowConfig.1 := ⟨[⟨"api"⟩, ⟨"worker"⟩], ⟨⟨[], []⟩, rfl⟩⟩

/-- Two services that are granted ten seconds each. -/
def quickConfig : ValidConfig :=
  ⟨configOf [grantedService "api" 10, grantedService "worker" 10],
    ⟨by decide +kernel, by decide +kernel, by decide +kernel⟩⟩

def quickPlan : StartPlan quickConfig.1 := ⟨[⟨"api"⟩, ⟨"worker"⟩], ⟨⟨[], []⟩, rfl⟩⟩

/-- The first service is granted more, and the second one is gone. -/
def droppedConfig : ValidConfig :=
  ⟨configOf [grantedService "api" 20], ⟨by decide +kernel, by decide +kernel, by decide +kernel⟩⟩

def droppedPlan : StartPlan droppedConfig.1 := ⟨[⟨"api"⟩], ⟨⟨[], []⟩, rfl⟩⟩

/-- `stop_all` asks both tasks, and each ends. -/
def endBoth : List ShutdownAction := [.stop,
  .outside (.finish 1 (.finished (.stopped .terminated))), .ended, .stop,
  .outside (.finish 0 (.finished (.stopped .terminated))), .ended, .stop]

/-- `stop_all` asks both tasks. The grace period of the one that was dropped is over before it ends;
the other one ends. -/
def endOne : List ShutdownAction := [.stop, .timeout, .stop,
  .outside (.finish 0 (.finished (.stopped .terminated))), .ended, .stop]

/-- The loop of a stack is left, and both tasks are stopped in some time. -/
theorem exists_stop {config inForce : ValidConfig} {plan : StartPlan config.1}
    {before : List StackAction} {actions : List ShutdownAction} {time : Duration}
    (hreloads : ∀ action ∈ before, ∀ w w', Stack.SortedReloads w action w')
    (hrun : ((stackSystem.run (Stack.initial sampleOptions config plan.1 ∅) before).bind fun w =>
      (shutdownSystem.checkedRun isTimely (Shutdown.begin w (some .terminated)) actions).map fun s =>
        decide (w.left = some (some .terminated) ∧ (w.live ⟨"api"⟩).isSome ∧
          (w.live ⟨"worker"⟩).isSome ∧ s.phase = .joining [] ∧ w.config.1 = inForce.1 ∧
          (Shutdown.begin w (some .terminated)).elapsed actions = time)) = some true) :
    ∃ (w : Stack) (s : Shutdown),
      stackSystem.Steps Stack.SortedReloads (Stack.initial sampleOptions config plan.1 ∅) w ∧
        w.left = some (some .terminated) ∧ (w.live ⟨"api"⟩).isSome ∧ (w.live ⟨"worker"⟩).isSome ∧
        shutdownSystem.checkedRun isTimely (Shutdown.begin w (some .terminated)) actions = some s ∧
        s.phase.Stopped ∧ w.config.1 = inForce.1 ∧
        (Shutdown.begin w (some .terminated)).elapsed actions = time := by
  obtain ⟨w, hw, hrun⟩ := Option.bind_eq_some_iff.mp hrun
  obtain ⟨s, hs, hfacts⟩ := Option.map_eq_some_iff.mp hrun
  obtain ⟨hleft, hfirst, hsecond, hphase, hconfig, helapsed⟩ := of_decide_eq_true hfacts
  exact ⟨w, s, TransitionSystem.steps_of_run_of_forall hreloads hw, hleft, hfirst, hsecond, hs,
    hphase ▸ trivial, hconfig, helapsed⟩

/-- Stopping the first stack takes two minutes, and the generated unit grants 75 seconds. -/
theorem stop_not_covered : ∃ (w : Stack) (s : Shutdown),
    stackSystem.Steps Stack.SortedReloads (Stack.initial sampleOptions slowConfig slowPlan.1 ∅) w ∧
      w.left = some (some .terminated) ∧ (w.live ⟨"api"⟩).isSome ∧ (w.live ⟨"worker"⟩).isSome ∧
      shutdownSystem.checkedRun isTimely (Shutdown.begin w (some .terminated)) endBoth = some s ∧
      .timeout ∉ endBoth ∧ s.phase.Stopped ∧
      (Shutdown.begin w (some .terminated)).elapsed endBoth = 120 * 10 ^ 9 ∧
      slowConfig.1.stopTimeout = 75 * 10 ^ 9 ∧
      ¬ (Shutdown.begin w (some .terminated)).elapsed endBoth ≤ w.config.1.stopTimeout := by
  obtain ⟨w, s, hw, hleft, hfirst, hsecond, hs, hstopped, hconfig, helapsed⟩ :=
    @exists_stop slowConfig slowConfig slowPlan [.interrupt .terminated] endBoth (120 * 10 ^ 9)
      (by simp [Stack.SortedReloads]) (by decide +kernel)
  have htimeout : slowConfig.1.stopTimeout = 75 * 10 ^ 9 := by decide +kernel
  refine ⟨w, s, hw, hleft, hfirst, hsecond, hs, by simp [endBoth], hstopped, helapsed, htimeout, ?_⟩
  rw [helapsed, hconfig, htimeout]
  decide

/-- The second stack is stopped right after a reload that drops one service and changes the other
one. It takes the five seconds of grace of the dropped one and the ten seconds that the task of the
other one was granted, which the generated unit covers. -/
theorem stop_covered_iff_dropped : ∃ w : Stack, (w.live ⟨"worker"⟩).isSome ∧
    w.config.1 = droppedConfig.1 ∧
    (Shutdown.begin w (some .terminated)).elapsed endOne = 15 * 10 ^ 9 ∧
      (w.stopTimes w.stopOrder ≤ w.config.1.slowest + stopMargin ∨
        w.stopTimes w.stopOrder ≤ minStopTimeout) := by
  have hreloads : ∀ action ∈ [StackAction.submit (.reload droppedConfig droppedPlan 0), .control,
      .interrupt .terminated], ∀ w w', Stack.SortedReloads w action w' := by
    rintro action haction _ _ config plan ack rfl
    obtain ⟨rfl, -⟩ : config = droppedConfig ∧ ack = 0 := by simp at haction; tauto
    decide +kernel
  obtain ⟨w, s, hw, hleft, -, hsecond, hs, hstopped, hconfig, helapsed⟩ :=
    @exists_stop quickConfig droppedConfig quickPlan _ endOne (15 * 10 ^ 9) hreloads
      (by decide +kernel)
  have htimeout : droppedConfig.1.stopTimeout = 35 * 10 ^ 9 := by decide +kernel
  refine ⟨w, hsecond, hconfig, helapsed,
    (stop_covered_iff (by decide +kernel) hw hleft hs hstopped).mp ?_⟩
  rw [helapsed, hconfig, htimeout]
  decide

end Shutdown

end Servicrab
