import Mathlib.Data.List.Chain
import Mathlib.Data.List.Induction
import Servicrab.Runner.Steps

/-!
# The health edges of a monitor

What a monitor publishes while its process keeps running and the start period is over: once its
failures reach `retries` in a row the service is unhealthy, and with the next success it is healthy
again (`health.rs`). Whether a failure exhausts the budget is read off a counter that is capped, so
that a budget at or above the cap is exhausted again by every failure after that.

## Main definitions

* `Monitor.round`: one round of the loop, from tick to tick.
* `Monitor.edges`: the edges that a round publishes.
* `EdgeLaw`: unhealthy at the failure that exhausts the budget, healthy at the first success after
  it, and never otherwise.

## Main results

* `Monitor.exec_rounds`: the rounds are runs of the monitor.
* `Monitor.state_after`: the counter and the flag after some results.
* `edgeLaw_iff`: the law holds if the budget is below the cap or is never exceeded, and only then.
-/

namespace Servicrab

/-- The result of one probe. -/
abbrev ProbeResult := Except String Unit

/-- What a health monitor finds out about a service. -/
inductive HealthEdge
  | healthy
  | unhealthy
  deriving DecidableEq, Repr

def EventKind.edge? : EventKind → Option HealthEdge
  | .healthy => some .healthy
  | .unhealthy _ => some .unhealthy
  | _ => none

def MonitorOutput.kind? : MonitorOutput → Option EventKind
  | .emit kind => some kind
  | .send _ => none

def MonitorOutput.signal? : MonitorOutput → Option HealthSignal
  | .emit _ => none
  | .send signal => some signal

/-- How many of the last results are failures. -/
def failures (results : List ProbeResult) : ℕ :=
  (results.reverse.takeWhile fun result => !result.isOk).length

@[simp] theorem failures_nil : failures [] = 0 := rfl

@[simp] theorem failures_concat_ok (results : List ProbeResult) :
    failures (results ++ [.ok ()]) = 0 := by
  simp [failures, Except.isOk, Except.toBool]

@[simp] theorem failures_concat_error (results : List ProbeResult) (message : String) :
    failures (results ++ [.error message]) = failures results + 1 := by
  simp [failures, Except.isOk, Except.toBool]

theorem failures_replicate (n : ℕ) (message : String) :
    failures (List.replicate n (.error message)) = n := by
  induction n with
  | zero => rfl
  | succ n ih => rw [List.replicate_succ', failures_concat_error, ih]

namespace Monitor

variable (m : Monitor)

/-- A monitor after one more round, in which the probe has had a result after the start period, and
everything that this calls for was sent. -/
def round (result : ProbeResult) : Monitor :=
  { m.onProbe result false with
    phase := .idle
    sent := m.sent ++ (m.onProbe result false).outbox.filterMap MonitorOutput.signal? }

/-- What a round publishes. -/
def emitted (result : ProbeResult) : List EventKind :=
  (m.onProbe result false).outbox.filterMap MonitorOutput.kind?

/-- The edges that a round publishes. -/
def edges (result : ProbeResult) : List HealthEdge := (m.emitted result).filterMap EventKind.edge?

/-- A monitor after one result after another. -/
def after (results : List ProbeResult) : Monitor := results.foldl round m

/-- What is published in one round after another. -/
def published (m : Monitor) : List ProbeResult → List EventKind
  | [] => []
  | result :: results => m.emitted result ++ (m.round result).published results

/-- All edges that are published. -/
def allEdges (results : List ProbeResult) : List HealthEdge :=
  (m.published results).filterMap EventKind.edge?

/-- There was no success yet, or none since the last time the service was unhealthy. -/
def Due (results : List ProbeResult) : Prop :=
  (∀ result ∈ results, ¬ result.isOk) ∨
    ∃ before failed since, results = before ++ failed :: since ∧
      (m.after before).edges failed = [.unhealthy] ∧ ∀ result ∈ since, ¬ result.isOk

end Monitor

/-- The law of the health edges: one at most in a round, unhealthy at the failure that makes it
`retries` in a row, healthy at the first success and at the first one after each time the service was
unhealthy; so that the two alternate. -/
structure EdgeLaw (m : Monitor) (results : List ProbeResult) : Prop where
  once : ∀ before result, before ++ [result] <+: results →
    ((m.after before).edges result).length ≤ 1
  unhealthy : ∀ before result, before ++ [result] <+: results →
    ((m.after before).edges result = [.unhealthy] ↔
      failures (before ++ [result]) = m.check.retries)
  healthy : ∀ before result, before ++ [result] <+: results →
    ((m.after before).edges result = [.healthy] ↔ result.isOk ∧ m.Due before)
  alternate : (m.allEdges results).IsChain (· ≠ ·)

namespace Monitor

variable {m : Monitor} {result : ProbeResult} {message : String}

/-! ### The rounds are runs of the monitor -/

/-- A run of a monitor whose channel is open, with the events it emits. -/
def exec : List MonitorAction → Monitor → Option (Monitor × List EventKind)
  | [], m => some (m, [])
  | action :: actions, m => do
    let (next, kind) ← m.step false action
    let (last, kinds) ← exec actions next
    return (last, kind.toList ++ kinds)

/-- The steps of a round. -/
def roundActions (m : Monitor) (result : ProbeResult) : List MonitorAction :=
  [.tick, .check, .probe result false] ++
    List.replicate (m.onProbe result false).outbox.length .publish

/-- The steps of one round after another. -/
def allActions (m : Monitor) : List ProbeResult → List MonitorAction
  | [] => []
  | result :: results => m.roundActions result ++ (m.round result).allActions results

theorem exec_cons {action : MonitorAction} {actions : List MonitorAction} {m next last : Monitor}
    {kind : Option EventKind} {kinds : List EventKind} (hstep : m.step false action = some (next, kind))
    (hexec : exec actions next = some (last, kinds)) :
    exec (action :: actions) m = some (last, kind.toList ++ kinds) := by
  simp [exec, hstep, hexec]

theorem exec_append {actions actions' : List MonitorAction} {m m' m'' : Monitor}
    {kinds kinds' : List EventKind} (h : exec actions m = some (m', kinds))
    (h' : exec actions' m' = some (m'', kinds')) :
    exec (actions ++ actions') m = some (m'', kinds ++ kinds') := by
  induction actions generalizing m kinds with
  | nil =>
    cases h
    exact h'
  | cons action actions ih =>
    obtain ⟨⟨next, kind⟩, hstep, hrest⟩ := Option.bind_eq_some_iff.mp h
    obtain ⟨⟨last, rest⟩, hexec, hlast⟩ := Option.bind_eq_some_iff.mp hrest
    cases hlast
    rw [List.append_assoc]
    exact exec_cons hstep (ih hexec)

/-- What is left to be sent is sent, and the monitor waits for the next tick. -/
theorem exec_publish (output : List MonitorOutput) : ∀ m : Monitor,
    exec (List.replicate output.length .publish) (m.send output) =
      some ({ m with phase := .idle, sent := m.sent ++ output.filterMap MonitorOutput.signal? },
        output.filterMap MonitorOutput.kind?) := by
  induction output with
  | nil =>
    intro m
    simp [exec, send]
  | cons item rest ih =>
    intro m
    rw [List.length_cons, List.replicate_succ]
    cases item with
    | emit kind =>
      have hstep : (m.send (.emit kind :: rest)).step false .publish =
          some (m.send rest, some kind) := rfl
      exact exec_cons hstep (ih m)
    | send signal =>
      let sent : Monitor := { m with sent := m.sent ++ [signal] }
      have hstep : (m.send (.send signal :: rest)).step false .publish =
          some (sent.send rest, none) := rfl
      have hrest := ih sent
      rw [List.append_assoc] at hrest
      exact exec_cons hstep hrest

/-- The result of a probe is all that a monitor sends after it. -/
theorem onProbe_eq_send (m : Monitor) (result : ProbeResult) :
    m.onProbe result false = (m.onProbe result false).send (m.onProbe result false).outbox := by
  have hsend : ∀ (m : Monitor) (output : List MonitorOutput),
      m.send output = (m.send output).send (m.send output).outbox := by
    intro m output
    rw [outbox_send]
    rfl
  unfold onProbe
  cases result with
  | ok =>
    simp only
    split_ifs
    · exact hsend _ _
    · exact hsend _ _
  | error message => exact hsend _ _

/-- **A round is a run** of a monitor that waits. -/
theorem exec_round (hidle : m.phase = .idle) (result : ProbeResult) :
    exec (m.roundActions result) m = some (m.round result, m.emitted result) := by
  have hsame : ({ m with phase := .probing } : Monitor).onProbe result false =
      m.onProbe result false := by
    cases result with
    | ok => rfl
    | error message => rfl
  have hprobe : exec [.tick, .check, .probe result false] m =
      some (m.onProbe result false, []) := by
    rw [← hsame]
    simp [exec, step, hidle]
  have hpublish := exec_publish (m.onProbe result false).outbox (m.onProbe result false)
  rw [← onProbe_eq_send, (m.onProbe_frame result false).2] at hpublish
  exact exec_append hprobe hpublish

/-- **The rounds are runs** of a monitor, from when it is spawned. -/
theorem exec_rounds (results : List ProbeResult) : ∀ {m : Monitor}, m.phase = .idle →
    exec (m.allActions results) m = some (m.after results, m.published results) := by
  induction results with
  | nil => exact fun _ => rfl
  | cons result results ih => exact fun hidle => exec_append (exec_round hidle result) (ih rfl)

/-! ### What a round does -/

theorem after_concat (m : Monitor) (results : List ProbeResult) (result : ProbeResult) :
    m.after (results ++ [result]) = (m.after results).round result := by
  simp [after]

theorem allEdges_concat (results : List ProbeResult) (result : ProbeResult) : ∀ m : Monitor,
    m.allEdges (results ++ [result]) = m.allEdges results ++ (m.after results).edges result := by
  induction results with
  | nil =>
    intro m
    simp [allEdges, published, after, edges]
  | cons first results ih =>
    intro m
    have hrest := ih (m.round first)
    simp only [allEdges, List.cons_append, published, List.filterMap_append, List.append_assoc,
      after, List.foldl_cons] at hrest ⊢
    rw [hrest]

/-- A success resets the counter, and is an edge if the service was not healthy. -/
theorem round_ok (m : Monitor) : (m.round (.ok ())).check = m.check ∧
    (m.round (.ok ())).consecutive = 0 ∧ (m.round (.ok ())).ready = true ∧
      m.edges (.ok ()) = if m.ready then [] else [.healthy] := by
  cases hready : m.ready <;>
    simp [round, edges, emitted, onProbe, hready, send, outbox, MonitorOutput.kind?,
      EventKind.edge?]

/-- The counter after one more failure. -/
def counted (m : Monitor) : ℕ := min (min (m.consecutive + 1) u32Max) m.ceiling

/-- A failure is counted, and is an edge if the counter is at the budget then. -/
theorem round_error (m : Monitor) (message : String) :
    (m.round (.error message)).check = m.check ∧
    (m.round (.error message)).consecutive = m.counted ∧
    (m.round (.error message)).ready = (m.ready && !(m.counted == m.check.retries)) ∧
      m.edges (.error message) = if m.counted = m.check.retries then [.unhealthy] else [] := by
  refine ⟨rfl, rfl, rfl, ?_⟩
  simp only [edges, emitted, onProbe, Bool.false_eq_true, if_false, outbox_send,
    List.filterMap_append, beq_iff_eq]
  rw [show min (min (m.consecutive + 1) u32Max) m.ceiling = m.counted from rfl]
  split_ifs <;> rfl

end Monitor

section Law

variable (run : ℕ) {check : HealthCheck}

theorem min_succ_capped {n cap top : ℕ} (h : cap ≤ top) :
    min (min (min n cap + 1) top) cap = min (n + 1) cap := by
  omega

/-- **The counter** after some results: how many of the last ones are failures, up to the
ceiling. -/
theorem consecutive_after (hmax : check.retries ≤ u32Max) (results : List ProbeResult) :
    ((Monitor.new run check).after results).check = check ∧
      ((Monitor.new run check).after results).consecutive =
        min (failures results) (max maxConsecutiveFailures check.retries) := by
  induction results using List.reverseRecOn with
  | nil => exact ⟨rfl, rfl⟩
  | append_singleton results result ih =>
    obtain ⟨hcheck, hconsecutive⟩ := ih
    rw [Monitor.after_concat]
    cases result with
    | ok =>
      obtain ⟨hcheck', hconsecutive', -⟩ := ((Monitor.new run check).after results).round_ok
      rw [hcheck', hconsecutive', failures_concat_ok, Nat.zero_min]
      exact ⟨hcheck, rfl⟩
    | error message =>
      obtain ⟨hcheck', hconsecutive', -⟩ :=
        ((Monitor.new run check).after results).round_error message
      rw [hcheck', hconsecutive', failures_concat_error]
      refine ⟨hcheck, ?_⟩
      rw [Monitor.counted, Monitor.ceiling, hcheck, hconsecutive]
      exact min_succ_capped (max_le (by decide) hmax)

/-- **What a failure publishes** after some results: an edge, if the number of failures in a row, cut
at the ceiling, is the budget. -/
theorem edges_after_error (hmax : check.retries ≤ u32Max) (before : List ProbeResult)
    (message : String) :
    ((Monitor.new run check).after before).edges (.error message) =
      if min (failures (before ++ [.error message])) (max maxConsecutiveFailures check.retries) =
          check.retries then [.unhealthy] else [] := by
  obtain ⟨-, hcounted, -, hedges⟩ :=
    ((Monitor.new run check).after before).round_error message
  obtain ⟨hcheck, -⟩ := consecutive_after run hmax before
  obtain ⟨-, hconsecutive⟩ := consecutive_after run hmax (before ++ [.error message])
  rw [Monitor.after_concat, hcounted] at hconsecutive
  rw [hedges, hconsecutive, hcheck]

/-- After a success none is due. -/
theorem Monitor.not_due_concat_ok (m : Monitor) (before : List ProbeResult) :
    ¬ m.Due (before ++ [.ok ()]) := by
  rintro (hnone | ⟨l, failed, since, heq, hedge, hnone⟩)
  · exact hnone (.ok ()) (by simp) rfl
  · rcases List.eq_nil_or_concat since with rfl | ⟨since, last, rfl⟩
    · obtain ⟨rfl, hlast⟩ := List.append_inj' heq rfl
      obtain rfl : .ok () = failed := by simpa using hlast
      rw [(m.after before).round_ok.2.2.2] at hedge
      split_ifs at hedge
      cases hedge
    · rw [List.concat_eq_append, ← List.cons_append, ← List.append_assoc] at heq
      obtain ⟨-, hlast⟩ := List.append_inj' heq rfl
      obtain rfl : .ok () = last := by simpa using hlast
      exact hnone (.ok ()) (by simp) rfl

/-- After a failure a success is due if it was before, or the service is unhealthy with it. -/
theorem Monitor.due_concat_error (m : Monitor) (before : List ProbeResult) (message : String) :
    m.Due (before ++ [.error message]) ↔
      m.Due before ∨ (m.after before).edges (.error message) = [.unhealthy] := by
  have hfail : ¬ (.error message : ProbeResult).isOk := by simp [Except.isOk, Except.toBool]
  constructor
  · rintro (hnone | ⟨l, failed, since, heq, hedge, hnone⟩)
    · exact Or.inl (Or.inl fun result hmem => hnone result (List.mem_append_left _ hmem))
    · rcases List.eq_nil_or_concat since with rfl | ⟨since, last, rfl⟩
      · obtain ⟨rfl, hlast⟩ := List.append_inj' heq rfl
        obtain rfl : .error message = failed := by simpa using hlast
        exact Or.inr hedge
      · rw [List.concat_eq_append, ← List.cons_append, ← List.append_assoc] at heq
        obtain ⟨rfl, -⟩ := List.append_inj' heq rfl
        exact Or.inl (Or.inr ⟨l, failed, since, rfl, hedge, fun result hmem =>
          hnone result (by simp [hmem])⟩)
  · rintro ((hnone | ⟨l, failed, since, rfl, hedge, hnone⟩) | hedge)
    · refine Or.inl fun result hmem => ?_
      rcases List.mem_append.mp hmem with hmem | hmem
      · exact hnone result hmem
      · exact List.mem_singleton.mp hmem ▸ hfail
    · refine Or.inr ⟨l, failed, since ++ [.error message], by simp, hedge, fun result hmem => ?_⟩
      rcases List.mem_append.mp hmem with hmem | hmem
      · exact hnone result hmem
      · exact List.mem_singleton.mp hmem ▸ hfail
    · exact Or.inr ⟨before, .error message, [], rfl, hedge, fun _ hmem => absurd hmem List.not_mem_nil⟩

/-- **The flag** is down after some results if and only if a success is due. -/
theorem ready_after (before : List ProbeResult) :
    ((Monitor.new run check).after before).ready = false ↔ (Monitor.new run check).Due before := by
  induction before using List.reverseRecOn with
  | nil => exact ⟨fun _ => Or.inl fun _ hmem => absurd hmem List.not_mem_nil, fun _ => rfl⟩
  | append_singleton before result ih =>
    rw [Monitor.after_concat]
    cases result with
    | ok =>
      have hready := ((Monitor.new run check).after before).round_ok.2.2.1
      exact iff_of_false (by simp [hready]) (Monitor.not_due_concat_ok _ before)
    | error message =>
      obtain ⟨-, -, hready, hedges⟩ :=
        ((Monitor.new run check).after before).round_error message
      rw [Monitor.due_concat_error, ← ih, hready, hedges, Bool.and_eq_false_iff]
      simp

/-- The budget is below the cap, or no run of failures is longer. -/
def BudgetHolds (retries : ℕ) (results : List ProbeResult) : Prop :=
  retries < maxConsecutiveFailures ∨ ∀ before, before <+: results → failures before ≤ retries

/-- With such a budget, a failure is an edge if and only if it exhausts the budget. -/
theorem BudgetHolds.capped_iff {retries : ℕ} {results before : List ProbeResult}
    (h : BudgetHolds retries results) (hbefore : before <+: results) :
    min (failures before) (max maxConsecutiveFailures retries) = retries ↔
      failures before = retries := by
  rcases h with hbelow | hnever
  · rw [max_eq_left hbelow.le]
    generalize maxConsecutiveFailures = cap at *
    omega
  · have hle := hnever before hbefore
    rw [min_eq_left (hle.trans (le_max_right _ _))]

theorem BudgetHolds.of_prefix {retries : ℕ} {results before : List ProbeResult}
    (h : BudgetHolds retries results) (hbefore : before <+: results) :
    BudgetHolds retries before :=
  h.imp_right fun hnever l hl => hnever l (hl.trans hbefore)

/-- **The edges alternate**: once the service is unhealthy, it has failed at least `retries` times in
a row until it is healthy again. -/
theorem alternate_after (hmax : check.retries ≤ u32Max) {results : List ProbeResult}
    (h : BudgetHolds check.retries results) :
    let edges := (Monitor.new run check).allEdges results
    edges.IsChain (· ≠ ·) ∧
      (edges.getLast? = some .unhealthy → check.retries ≤ failures results) ∧
        (edges.getLast? = some .healthy ↔ ((Monitor.new run check).after results).ready = true) := by
  induction results using List.reverseRecOn with
  | nil =>
    exact ⟨.nil, fun hlast => (nomatch hlast), fun hlast => (nomatch hlast),
      fun hready => (nomatch hready)⟩
  | append_singleton before result ih =>
    obtain ⟨hchain, hunhealthy, hhealthy⟩ := ih (h.of_prefix (List.prefix_append _ _))
    dsimp only
    rw [Monitor.allEdges_concat, Monitor.after_concat]
    cases result with
    | ok =>
      obtain ⟨-, -, hready, hedges⟩ := ((Monitor.new run check).after before).round_ok
      rw [hready, hedges]
      cases hflag : ((Monitor.new run check).after before).ready with
      | true =>
        rw [if_pos rfl, List.append_nil, hhealthy.mpr hflag]
        exact ⟨hchain, fun heq => (nomatch heq), by simp⟩
      | false =>
        rw [if_neg Bool.false_ne_true, List.getLast?_concat]
        refine ⟨hchain.append (.singleton _) fun edge hedge next hnext => ?_, fun heq => (nomatch heq),
          by simp⟩
        obtain rfl : HealthEdge.healthy = next := by simpa using hnext
        rintro rfl
        rw [hhealthy.mp hedge] at hflag
        cases hflag
    | error message =>
      obtain ⟨-, -, hready, hround⟩ :=
        ((Monitor.new run check).after before).round_error message
      have hedges : ((Monitor.new run check).after before).edges (.error message) =
          if failures (before ++ [.error message]) = check.retries then [.unhealthy] else [] := by
        rw [edges_after_error run hmax]
        exact if_congr (h.capped_iff List.prefix_rfl) rfl rfl
      rw [failures_concat_error] at hedges ⊢
      by_cases hcount : failures before + 1 = check.retries
      · rw [if_pos hcount] at hedges
        have hflag : (((Monitor.new run check).after before).round (.error message)).ready = false := by
          rw [hready]
          split_ifs at hround with hspent
          · simp [hspent]
          · rw [hround] at hedges
            cases hedges
        rw [hedges, hflag, List.getLast?_concat]
        refine ⟨hchain.append (.singleton _) fun edge hedge next hnext => ?_, fun _ => hcount.ge,
          by simp⟩
        obtain rfl : HealthEdge.unhealthy = next := by simpa using hnext
        rintro rfl
        have hle := hunhealthy hedge
        omega
      · rw [if_neg hcount] at hedges
        have hflag : (((Monitor.new run check).after before).round (.error message)).ready =
            ((Monitor.new run check).after before).ready := by
          rw [hready]
          split_ifs at hround with hspent
          · rw [hround] at hedges
            cases hedges
          · simp [hspent]
        rw [hedges, hflag, List.append_nil]
        exact ⟨hchain, fun hlast => (hunhealthy hlast).trans (Nat.le_succ _), hhealthy⟩

/-- **The law of the health edges** holds of some results if and only if the budget is below the cap
of the counter, or no run of failures is longer than it. -/
theorem edgeLaw_iff (hmin : 1 ≤ check.retries) (hmax : check.retries ≤ u32Max)
    (results : List ProbeResult) :
    EdgeLaw (.new run check) results ↔ BudgetHolds check.retries results := by
  constructor
  · intro h
    by_contra hnot
    simp only [BudgetHolds, not_or, not_lt, not_forall, not_le] at hnot
    obtain ⟨hcap, before, hbefore, hlong⟩ := hnot
    rcases List.eq_nil_or_concat before with rfl | ⟨before, result, rfl⟩
    · exact absurd hlong (Nat.not_lt_zero _)
    · rw [List.concat_eq_append] at hbefore hlong
      cases result with
      | ok =>
        rw [failures_concat_ok] at hlong
        exact absurd hlong (Nat.not_lt_zero _)
      | error message =>
        have hedges := edges_after_error run hmax before message
        rw [max_eq_right hcap, min_eq_right hlong.le] at hedges
        exact hlong.ne' ((h.unhealthy before _ hbefore).mp (hedges.trans (if_pos rfl)))
  · intro h
    constructor
    case once =>
      intro before result _
      cases result with
      | ok =>
        rw [(Monitor.round_ok _).2.2.2]
        split_ifs <;> simp
      | error message =>
        rw [edges_after_error run hmax]
        split_ifs <;> simp
    case unhealthy =>
      intro before result hbefore
      cases result with
      | ok =>
        have hpos : (0 : ℕ) ≠ check.retries := by omega
        rw [(Monitor.round_ok _).2.2.2, failures_concat_ok]
        refine iff_of_false ?_ hpos
        split_ifs <;> simp
      | error message =>
        rw [edges_after_error run hmax]
        refine Iff.trans ?_ (h.capped_iff hbefore)
        split_ifs with hcount
        · exact iff_of_true rfl hcount
        · exact iff_of_false (by simp) hcount
    case healthy =>
      intro before result _
      rw [← ready_after]
      cases result with
      | ok =>
        rw [(Monitor.round_ok _).2.2.2, and_iff_right (show (Except.ok () : ProbeResult).isOk from rfl)]
        cases ((Monitor.new run check).after before).ready <;> simp
      | error message =>
        have hfail : ¬ (.error message : ProbeResult).isOk := by simp [Except.isOk, Except.toBool]
        rw [edges_after_error run hmax]
        refine iff_of_false ?_ fun hok => hfail hok.1
        split_ifs <;> simp
    case alternate => exact (alternate_after run hmax h).1

end Law

/-- **The health edges** of a service whose budget was accepted: the monitor, run from one tick to
the next, keeps the law if and only if the budget is below the cap of its counter, or no run of
failures is longer than the budget. -/
theorem Monitor.health_edges (run : ℕ) (check : HealthCheck) (hmin : 1 ≤ check.retries)
    (hmax : check.retries ≤ u32Max) (results : List ProbeResult) :
    exec ((new run check).allActions results) (new run check) =
        some ((new run check).after results, (new run check).published results) ∧
      (EdgeLaw (new run check) results ↔ BudgetHolds check.retries results) :=
  ⟨exec_rounds results rfl, edgeLaw_iff run hmin hmax results⟩

/-- A check of which `retries` failures in a row make a service unhealthy. -/
def exampleCheck (retries : ℕ) : HealthCheck where
  probe := .tcp "localhost" 5432
  interval := 2 * 10 ^ 9
  timeout := 10 ^ 9
  retries := retries
  startPeriod := 0
  onUnhealthy := .ignore

/-- With a small budget the law holds over two outages, of which one is too short. -/
theorem Monitor.health_edges_outages :
    let results : List ProbeResult := [.ok (), .error "refused", .ok (), .error "refused",
      .error "refused", .error "refused", .ok ()]
    EdgeLaw (new 0 (exampleCheck 2)) results ∧
      (new 0 (exampleCheck 2)).allEdges results = [.healthy, .unhealthy, .healthy] := by
  refine ⟨?_, by decide⟩
  exact (health_edges 0 (exampleCheck 2) (by decide) (by decide) _).2.mpr (Or.inl (by decide))

/-- With a budget of 100000 failures, a service that is down is unhealthy once more at each failure
after that. -/
theorem Monitor.health_edges_again :
    let down : ProbeResult := .error "refused"
    ¬ EdgeLaw (new 0 (exampleCheck 100000)) (List.replicate 100001 down) ∧
      ((new 0 (exampleCheck 100000)).after (List.replicate 100000 down)).edges down =
        [.unhealthy] := by
  have hlong : failures (List.replicate 100001 (.error "refused")) = 100001 :=
    failures_replicate 100001 "refused"
  constructor
  · rw [edgeLaw_iff 0 (by decide) (by decide)]
    rintro (hbelow | hnever)
    · exact absurd hbelow (by decide)
    · have hle := hnever _ List.prefix_rfl
      rw [hlong] at hle
      exact absurd hle (by decide)
  · rw [edges_after_error 0 (by decide), failures_concat_error, failures_replicate]
    exact if_pos (by decide)

end Servicrab
