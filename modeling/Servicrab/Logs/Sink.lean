import Servicrab.Logs.Refinement

/-!
# Log sinks

`LogSink` hands lines to a blocking task, `pump`, through a queue that holds so many of them
(`logs.rs`). Handing a line over never waits: a line for which there is no room is dropped. The task
writes the lines in the order of the queue, and flushes whenever it runs dry. What goes wrong there is
kept in a slot, from which a later call takes it.

The caller and the task run at the same time. Each access to the queue or to the slot is a step.

## Main definitions

* `LogSink`, `LogSink.step`, `logSink`.
* `LogSink.Keeps`: what has become of the lines of a service.

## Main results

* `LogSink.keeps_lines`: nothing that was accepted is lost or out of order.
* `LogSink.told_once`: what is reported.
-/

open Std (ExtTreeMap)

namespace Servicrab

/-- How many lines may wait for the blocking writer. -/
def queueCapacity : ℕ := 4096

/-- One line on its way to the writer. -/
structure LogEntry where
  service : ServiceName
  line : List UInt8
  deriving DecidableEq

/-- The lines of a service. -/
def linesFor (service : ServiceName) (entries : List LogEntry) : List (List UInt8) :=
  (entries.filter (·.service = service)).map LogEntry.line

/-- Where `pump` is. -/
inductive PumpPhase
  /-- It is about to ask for the next line. -/
  | running
  | writing (entry : LogEntry)
  /-- The queue has run dry. -/
  | flushing
  /-- It waits for a line. -/
  | parked
  /-- No line will come any more. -/
  | draining
  | finished
  deriving DecidableEq

/-- The line that the task has taken from the queue. -/
def PumpPhase.inHand : PumpPhase → List LogEntry
  | .writing entry => [entry]
  | _ => []

/-- Where the caller is. -/
inductive CallerPhase
  | idle
  /-- `record` is about to take what there is to tell. -/
  | handed
  /-- `shutdown` waits for the task. -/
  | waiting
  | gone
  deriving DecidableEq

/-- Something worth telling the operator. -/
inductive SinkReport
  | behind (dropped : ℕ)
  | problem (message : String)
  deriving DecidableEq

def SinkReport.toString : SinkReport → String
  | .behind dropped => s!"the log writer cannot keep up; dropped {dropped} line(s) so far"
  | .problem message => message

/-- The problem that a report is about, if it is not about dropped lines. -/
def SinkReport.problem? : SinkReport → Option String
  | .behind _ => none
  | .problem message => some message

/-- How many lines are said to be dropped. -/
def SinkReport.behind? : SinkReport → Option ℕ
  | .behind dropped => some dropped
  | .problem _ => none

/-- A `LogRouter` driven from a blocking task. -/
structure LogSink where
  queue : List LogEntry
  /-- There is no sender any more. -/
  closed : Bool
  problem : Option String
  /-- Lines the writer was too far behind to accept. -/
  dropped : ℕ
  pump : PumpPhase
  caller : CallerPhase
  files : RouterState
  /-- The lines that were accepted so far. -/
  accepted : List LogEntry
  /-- What was reported so far. -/
  reports : List SinkReport
  /-- What went wrong so far. -/
  failures : List String

/-- What goes wrong when a line is recorded, whether or not it is reported. -/
def LogRouter.recordFailure (io : Io) (router : LogRouter) (d : LogDir) (service : ServiceName)
    (line : List UInt8) : Option String :=
  (LogRouter.record io { router with reportedError := false } d service line).1

/-- What goes wrong in a flush, whether or not it is reported. -/
def LogRouter.flushFailure (router : LogRouter) (d : LogDir) (io : ServiceName → Io) :
    Option String :=
  (LogRouter.flush { router with reportedError := false } d io).1

namespace LogRouter

variable (router : LogRouter)

theorem report_fst (message : String) :
    (router.report message).1 = if router.reportedError then none else some message := by
  rw [report]
  split_ifs <;> rfl

theorem reportedError_report (message : String) : (router.report message).2.reportedError = true := by
  rw [report]
  split_ifs with h
  · exact h
  · rfl

/-- What is said about a line is what goes wrong, the first time that something does. -/
theorem record_reports (io : Io) (d : LogDir) (service : ServiceName) (line : List UInt8) :
    (router.record io d service line).1 =
        (if router.reportedError then none else router.recordFailure io d service line) ∧
      (router.record io d service line).2.1.reportedError =
        (router.reportedError || (router.recordFailure io d service line).isSome) := by
  have hwriter : writerFor io { router with reportedError := false } d service =
      router.writerFor io d service := rfl
  rw [recordFailure, record, record, hwriter]
  by_cases hexcluded : service ∈ router.excluded
  · simp [hexcluded]
  simp only [if_neg hexcluded]
  rcases router.writerFor io d service with ⟨op | w, d'⟩
  · simp [report_fst, reportedError_report]
  · dsimp only
    cases writeFailure io (w.writeLine io d' line) with
    | none => simp [putBack]
    | some message => simp [report_fst, reportedError_report, putBack]

/-- A turn of a flush does not look at what was reported. -/
def forget (turn : Option String × LogRouter × LogDir) : Option String × LogRouter × LogDir :=
  (turn.1, { turn.2.1 with reportedError := false }, turn.2.2)

theorem flushWriter_forget (io : Io) (service : ServiceName)
    (turn : Option String × LogRouter × LogDir) :
    flushWriter io service (forget turn) = forget (flushWriter io service turn) := by
  obtain ⟨failure, router, d⟩ := turn
  rw [forget, flushWriter, flushWriter]
  dsimp only
  cases router.writers[service]? <;> rfl

theorem reportedError_flushWriter (io : Io) (service : ServiceName)
    (turn : Option String × LogRouter × LogDir) :
    (flushWriter io service turn).2.1.reportedError = turn.2.1.reportedError := by
  obtain ⟨failure, router, d⟩ := turn
  rw [flushWriter]
  cases router.writers[service]? <;> rfl

theorem flush_reports (d : LogDir) (io : ServiceName → Io) :
    (router.flush d io).1 = (if router.reportedError then none else router.flushFailure d io) ∧
      (router.flush d io).2.1.reportedError =
        (router.reportedError || (router.flushFailure d io).isSome) := by
  have hforget : router.writers.keys.foldl
      (fun turn service => flushWriter (io service) service turn) (forget (none, router, d)) =
      forget (router.writers.keys.foldl
        (fun turn service => flushWriter (io service) service turn) (none, router, d)) :=
    List.foldl_hom forget fun turn service => flushWriter_forget (io service) service turn
  have hreported : (router.writers.keys.foldl
      (fun turn service => flushWriter (io service) service turn)
      (none, router, d)).2.1.reportedError = router.reportedError :=
    List.foldlRecOn (motive := fun turn => turn.2.1.reportedError = router.reportedError) _ _ rfl
      fun turn hturn service _ => (reportedError_flushWriter (io service) service turn).trans hturn
  rw [forget] at hforget
  rw [flushFailure, flush, flush]
  dsimp only at hforget ⊢
  rw [hforget]
  generalize router.writers.keys.foldl
    (fun turn service => flushWriter (io service) service turn) (none, router, d) = turn at hreported
  obtain ⟨failure, router', d'⟩ := turn
  cases failure with
  | none => simpa [forget] using hreported
  | some message =>
    simp only at hreported
    simp [forget, report_fst, reportedError_report, hreported]

end LogRouter

inductive SinkAction
  /-- `record` hands a line over, or drops it. -/
  | record (service : ServiceName) (line : List UInt8)
  /-- `record` returns what there is to tell. -/
  | takeProblem
  /-- `shutdown` drops the sender. -/
  | shutdown
  /-- `shutdown` returns. -/
  | collect
  /-- `pump` asks for the next line. -/
  | receive
  /-- `pump` writes a line. -/
  | write (io : Io)
  /-- `pump` flushes. -/
  | flush (io : ServiceName → Io)

namespace LogSink

variable (s : LogSink)

/-- Hand one line to the writer, dropping it if the writer is too far behind. -/
def send (service : ServiceName) (line : List UInt8) : LogSink :=
  if s.pump = .finished then { s with caller := .handed }
  else if s.queue.length < queueCapacity then
    { s with
      queue := s.queue ++ [⟨service, line⟩]
      accepted := s.accepted ++ [⟨service, line⟩]
      caller := .handed }
  else
    let dropped := s.dropped + 1
    -- The first one, then one report per queue's worth.
    if dropped = 1 ∨ dropped % queueCapacity = 0 then
      { s with dropped, reports := s.reports ++ [.behind dropped] }
    else { s with dropped, caller := .handed }

def takeProblem (caller : CallerPhase) : LogSink :=
  { s with
    problem := none
    reports := s.reports ++ (s.problem.map SinkReport.problem).toList
    caller }

/-- What `try_recv` and `blocking_recv` come to. -/
def receive : Option LogSink :=
  match s.pump, s.queue with
  | .running, entry :: queue | .parked, entry :: queue =>
    some { s with queue, pump := .writing entry }
  | .running, [] => some { s with pump := if s.closed then .draining else .flushing }
  | .parked, [] => if s.closed then some { s with pump := .draining } else none
  | _, _ => none

/-- Keep the first problem the writer reports, for the next caller to collect. -/
def remember (message failure : Option String) : LogSink :=
  { s with problem := s.problem.or message, failures := s.failures ++ failure.toList }

def write (io : Io) (entry : LogEntry) : LogSink :=
  let message := (s.files.router.record io s.files.dir entry.service entry.line).1
  let failure := s.files.router.recordFailure io s.files.dir entry.service entry.line
  { s.remember message failure with
    files := s.files.step (.record io entry.service entry.line)
    pump := .running }

def flush (io : ServiceName → Io) (pump : PumpPhase) : LogSink :=
  let (message, router, dir) := s.files.router.flush s.files.dir io
  { s.remember message (s.files.router.flushFailure s.files.dir io) with
    files := { router, dir }
    pump }

def step : SinkAction → Option LogSink
  | .record service line => if s.caller = .idle then some (s.send service line) else none
  | .takeProblem => if s.caller = .handed then some (s.takeProblem .idle) else none
  | .shutdown =>
    if s.caller = .idle then some { s with closed := true, caller := .waiting } else none
  | .collect =>
    if s.caller = .waiting ∧ s.pump = .finished then some (s.takeProblem .gone) else none
  | .receive => s.receive
  | .write io =>
    match s.pump with
    | .writing entry => some (s.write io entry)
    | _ => none
  | .flush io =>
    match s.pump with
    | .flushing => some (s.flush io .parked)
    | .draining => some (s.flush io .finished)
    | _ => none

/-- `spawn`. -/
def spawn (settings : LogSettings) (excluded : Finset ServiceName)
    (files : String → Option (List UInt8)) : LogSink where
  queue := []
  closed := false
  problem := none
  dropped := 0
  pump := .running
  caller := .idle
  files := .initial settings excluded files
  accepted := []
  reports := []
  failures := []

end LogSink

/-- The sinks of a router. -/
def logSink (settings : LogSettings) (excluded : Finset ServiceName)
    (files : String → Option (List UInt8)) : TransitionSystem LogSink SinkAction where
  init s := s = .spawn settings excluded files
  step := LogSink.step

namespace LogSink

/-! ### What is reported -/

/-- The counts of dropped lines that are reported. -/
def announced (dropped : ℕ) : List ℕ :=
  (List.range' 1 dropped).filter fun count => count = 1 ∨ count % queueCapacity = 0

/-- What there was to tell, and what of it was told. -/
structure Tells (s : LogSink) : Prop where
  room : s.queue.length ≤ queueCapacity
  behind : s.reports.filterMap SinkReport.behind? = announced s.dropped
  problem : s.reports.filterMap SinkReport.problem? ++ s.problem.toList = s.failures.take 1
  reported : s.files.router.reportedError = decide (s.failures ≠ [])
  /-- The caller that has left has taken what there was. -/
  gone : s.caller = .gone → s.pump = .finished ∧ s.problem = none

variable {s s' : LogSink} {action : SinkAction}

theorem announced_succ (dropped : ℕ) : announced (dropped + 1) = announced dropped ++
    if dropped + 1 = 1 ∨ (dropped + 1) % queueCapacity = 0 then [dropped + 1] else [] := by
  rw [announced, List.range'_1_concat, List.filter_append, Nat.add_comm 1 dropped]
  refine congrArg _ ?_
  split_ifs with h
  · exact List.filter_cons_of_pos (by simpa using h)
  · exact List.filter_cons_of_neg (by simpa using h)

/-- What goes wrong is told if nothing was before. -/
theorem Tells.remember (h : s.Tells) {message failure : Option String} {reported : Bool}
    (hmessage : message = if s.files.router.reportedError then none else failure)
    (hreported : reported = (s.files.router.reportedError || failure.isSome)) :
    s.reports.filterMap SinkReport.problem? ++ (s.problem.or message).toList =
        (s.failures ++ failure.toList).take 1 ∧
      reported = decide (s.failures ++ failure.toList ≠ []) := by
  have hproblem := h.problem
  rw [h.reported] at hmessage hreported
  by_cases hnil : s.failures = []
  · rw [hnil] at hproblem hmessage hreported ⊢
    obtain ⟨htold, hnone⟩ := List.append_eq_nil_iff.mp hproblem
    rw [htold, Option.toList_eq_nil_iff.mp hnone, hmessage, hreported]
    cases failure <;> simp
  · obtain ⟨first, rest, hcons⟩ := List.exists_cons_of_ne_nil hnil
    rw [hcons] at hproblem hmessage hreported ⊢
    rw [hmessage, hreported]
    simpa using hproblem

theorem Tells.send (h : s.Tells) (hidle : s.caller = .idle) (service : ServiceName)
    (line : List UInt8) : (s.send service line).Tells := by
  rw [LogSink.send]
  dsimp only
  split_ifs with hfinished hroom hannounced
  · exact { h with gone := by simp }
  · exact { h with room := by simpa using hroom, gone := by simp }
  · refine ⟨h.room, ?_, ?_, h.reported, by simp [hidle]⟩
    · rw [announced_succ, if_pos hannounced, ← h.behind, List.filterMap_append]
      rfl
    · rw [List.filterMap_append]
      exact (List.append_nil _).symm ▸ h.problem
  · refine { h with behind := ?_, gone := by simp }
    rw [announced_succ, if_neg hannounced, List.append_nil]
    exact h.behind

theorem Tells.takeProblem (h : s.Tells) {caller : CallerPhase}
    (hgone : caller = .gone → s.pump = .finished) : (s.takeProblem caller).Tells where
  room := h.room
  behind := by
    rw [LogSink.takeProblem, List.filterMap_append]
    refine Eq.trans ?_ h.behind
    cases s.problem <;> simp [SinkReport.behind?]
  problem := by
    rw [LogSink.takeProblem, List.filterMap_append]
    refine Eq.trans ?_ h.problem
    cases s.problem <;> simp [SinkReport.problem?]
  reported := h.reported
  gone hcaller := ⟨hgone hcaller, rfl⟩

theorem Tells.step (h : s.Tells) (hstep : s.step action = some s') : s'.Tells := by
  -- While the task is not finished the caller has not left.
  have hstays : s.pump ≠ .finished → ∀ {P : Prop}, s.caller = .gone → P := fun hpump _ hgone =>
    absurd (h.gone hgone).1 hpump
  cases action with
  | record service line =>
    obtain ⟨hidle, hsome⟩ := Option.ite_none_right_eq_some.mp hstep
    exact Option.some.inj hsome ▸ h.send hidle service line
  | takeProblem =>
    obtain ⟨-, hsome⟩ := Option.ite_none_right_eq_some.mp hstep
    exact Option.some.inj hsome ▸ h.takeProblem (by simp)
  | shutdown =>
    obtain ⟨-, hsome⟩ := Option.ite_none_right_eq_some.mp hstep
    obtain rfl := Option.some.inj hsome
    exact { h with gone := by simp }
  | collect =>
    obtain ⟨hfinished, hsome⟩ := Option.ite_none_right_eq_some.mp hstep
    exact Option.some.inj hsome ▸ h.takeProblem fun _ => hfinished.2
  | receive =>
    rw [LogSink.step, LogSink.receive] at hstep
    have hroom : ∀ entry queue, s.queue = entry :: queue → queue.length ≤ queueCapacity := by
      intro entry queue hqueue
      have hroom := h.room
      rw [hqueue] at hroom
      exact (Nat.le_succ _).trans hroom
    split at hstep
    · rename_i entry queue hpump hqueue
      obtain rfl := Option.some.inj hstep
      exact { h with room := hroom entry queue hqueue, gone := hstays (by simp [hpump]) }
    · rename_i entry queue hpump hqueue
      obtain rfl := Option.some.inj hstep
      exact { h with room := hroom entry queue hqueue, gone := hstays (by simp [hpump]) }
    · rename_i hpump hqueue
      obtain rfl := Option.some.inj hstep
      exact { h with gone := hstays (by simp [hpump]) }
    · rename_i hpump hqueue
      split_ifs at hstep
      obtain rfl := Option.some.inj hstep
      exact { h with gone := hstays (by simp [hpump]) }
    · cases hstep
  | write io =>
    rw [LogSink.step] at hstep
    split at hstep
    · rename_i entry hpump
      obtain rfl := Option.some.inj hstep
      obtain ⟨hmessage, hreported⟩ :=
        s.files.router.record_reports io s.files.dir entry.service entry.line
      obtain ⟨hproblem, hreported'⟩ := h.remember hmessage hreported
      exact ⟨h.room, h.behind, hproblem, hreported', hstays (by simp [hpump])⟩
    · cases hstep
  | flush io =>
    obtain ⟨hmessage, hreported⟩ := s.files.router.flush_reports s.files.dir io
    obtain ⟨hproblem, hreported'⟩ := h.remember hmessage hreported
    rw [LogSink.step] at hstep
    split at hstep
    · rename_i hpump
      obtain rfl := Option.some.inj hstep
      exact ⟨h.room, h.behind, hproblem, hreported', hstays (by simp [hpump])⟩
    · rename_i hpump
      obtain rfl := Option.some.inj hstep
      exact ⟨h.room, h.behind, hproblem, hreported', hstays (by simp [hpump])⟩
    · cases hstep

/-- **What is told.** Never more lines wait than there is room for. Of the lines that are dropped the
first is told, and then one for each queue's worth; and of all that goes wrong with the files the
first thing is told, once, by the time that `shutdown` returns. -/
theorem told_once {settings : LogSettings} {excluded : Finset ServiceName}
    {files : String → Option (List UInt8)}
    (h : (logSink settings excluded files).Reachable TransitionSystem.AnyStep s) :
    s.queue.length ≤ queueCapacity ∧
      s.reports.filterMap SinkReport.behind? = announced s.dropped ∧
      s.reports.filterMap SinkReport.problem? ++ s.problem.toList = s.failures.take 1 ∧
      (s.caller = .gone → s.reports.filterMap SinkReport.problem? = s.failures.take 1) := by
  have htells : s.Tells := by
    refine h.invariant (I := Tells) ?_ fun _ hI _ hstep => hI.step hstep
    intro s₀ hinit
    obtain rfl : s₀ = LogSink.spawn settings excluded files := hinit
    exact ⟨Nat.zero_le _, rfl, rfl, rfl, nofun⟩
  refine ⟨htells.room, htells.behind, htells.problem, fun hgone => ?_⟩
  rw [← htells.problem, (htells.gone hgone).2, Option.toList_none, List.append_nil]

/-! ### What becomes of the lines -/

/-- The lines of a service that are not written yet. -/
def waiting (s : LogSink) (service : ServiceName) : List (List UInt8) :=
  linesFor service (s.pump.inHand ++ s.queue)

/-- The services that a step names have accepted names, and its file operations succeed. -/
def Succeeds (_ : LogSink) (action : SinkAction) (_ : LogSink) : Prop :=
  match action with
  | .record service _ => validateName service.raw 48 = .ok ()
  | .write io => io.Succeeds
  | .flush io => ∀ service, (io service).Succeeds
  | _ => True

theorem linesFor_append (service : ServiceName) (entries entries' : List LogEntry) :
    linesFor service (entries ++ entries') = linesFor service entries ++ linesFor service entries' := by
  rw [linesFor, List.filter_append, List.map_append]
  rfl

/-- The lines of a service that were taken from the queue have been handed to a folder that shows its
files. -/
structure Serves (settings : LogSettings) (excluded : Finset ServiceName)
    (files : String → Option (List UInt8)) (service : ServiceName) (s : LogSink) : Prop where
  works : s.files.Works settings excluded
  names : ∀ entry ∈ s.pump.inHand ++ s.queue, NameRules 48 entry.service.raw
  folder : ∃ handed f, (LogFolder.found settings files service).Hands handed f ∧
    s.files.Serves service f ∧ handed ++ s.waiting service = linesFor service s.accepted
  flushed : s.pump = .parked ∨ s.pump = .finished → s.files.Flushed service
  ended : s.pump = .draining ∨ s.pump = .finished → s.closed ∧ s.queue = []
  closed : s.closed → s.caller = .waiting ∨ s.caller = .gone

section Serves

variable {settings : LogSettings} {excluded : Finset ServiceName}
  {files : String → Option (List UInt8)} {service : ServiceName}

theorem Serves.send (h : s.Serves settings excluded files service) (hidle : s.caller = .idle)
    {other : ServiceName} (hother : NameRules 48 other.raw) (line : List UInt8) :
    (s.send other line).Serves settings excluded files service := by
  -- There is a sender yet, so that the task has not come to an end.
  have hopen : ¬s.closed := fun hclosed => by
    rcases h.closed hclosed with hcaller | hcaller <;>
      exact absurd (hidle.symm.trans hcaller) (by decide)
  have hended : ¬(s.pump = .draining ∨ s.pump = .finished) := fun hpump => hopen (h.ended hpump).1
  rw [LogSink.send]
  dsimp only
  split_ifs with hfinished hroom hannounced
  · exact absurd (.inr hfinished) hended
  · obtain ⟨handed, f, hhands, hserves, hlines⟩ := h.folder
    refine ⟨h.works, fun entry hentry => ?_, ⟨handed, f, hhands, hserves, ?_⟩, h.flushed,
      fun hpump => absurd hpump hended, fun hclosed => absurd hclosed hopen⟩
    · rw [← List.append_assoc] at hentry
      rcases List.mem_append.mp hentry with hentry | hentry
      · exact h.names entry hentry
      · exact List.mem_singleton.mp hentry ▸ hother
    · rw [linesFor_append, ← hlines, List.append_assoc]
      refine congrArg _ ?_
      rw [waiting, waiting, ← List.append_assoc, linesFor_append service (_ ++ _)]
  · exact { h with }
  · exact { h with closed := fun hclosed => absurd hclosed hopen }

/-- The task goes on, with what it has in hand and what is in the queue. -/
theorem Serves.goOn (h : s.Serves settings excluded files service) {queue : List LogEntry}
    {pump : PumpPhase} (hsame : pump.inHand ++ queue = s.pump.inHand ++ s.queue)
    (hflushed : ¬(pump = .parked ∨ pump = .finished))
    (hended : pump = .draining → s.closed ∧ queue = []) :
    Serves settings excluded files service { s with queue, pump } where
  works := h.works
  names := by rw [hsame]; exact h.names
  folder := by
    obtain ⟨handed, f, hhands, hserves, hlines⟩ := h.folder
    refine ⟨handed, f, hhands, hserves, ?_⟩
    rw [waiting, hsame]
    exact hlines
  flushed hpump := absurd hpump hflushed
  ended hpump := hended (hpump.resolve_right fun hfinished => hflushed (.inr hfinished))
  closed := h.closed

theorem Serves.receive (h : s.Serves settings excluded files service)
    (hreceive : s.receive = some s') : s'.Serves settings excluded files service := by
  rw [LogSink.receive] at hreceive
  split at hreceive
  · rename_i entry queue hpump hqueue
    obtain rfl := Option.some.inj hreceive
    exact h.goOn (by rw [hpump, hqueue]; rfl) (by simp) (by simp)
  · rename_i entry queue hpump hqueue
    obtain rfl := Option.some.inj hreceive
    exact h.goOn (by rw [hpump, hqueue]; rfl) (by simp) (by simp)
  · rename_i hpump hqueue
    obtain rfl := Option.some.inj hreceive
    refine h.goOn ?_ (by split_ifs <;> simp) fun hdraining => ?_
    · rw [hpump]
      split_ifs <;> rfl
    · split_ifs at hdraining with hclosed
      exact ⟨hclosed, hqueue⟩
  · rename_i hpump hqueue
    split_ifs at hreceive with hclosed
    obtain rfl := Option.some.inj hreceive
    exact h.goOn (by rw [hpump]; rfl) (by simp) fun _ => ⟨hclosed, hqueue⟩
  · cases hreceive

theorem Serves.write (h : s.Serves settings excluded files service) (hpos : 0 < settings.maxFiles)
    (hservice : NameRules 48 service.raw) (hexcluded : service ∉ excluded) {io : Io}
    (hio : io.Succeeds) {entry : LogEntry} (hpump : s.pump = .writing entry) :
    (s.write io entry).Serves settings excluded files service := by
  have hinHand : s.pump.inHand = [entry] := by rw [hpump]; rfl
  have hname : NameRules 48 entry.service.raw :=
    h.names entry (List.mem_append_left _ (hinHand ▸ List.mem_singleton_self entry))
  obtain ⟨handed, f, hhands, hserves, hlines⟩ := h.folder
  let op : RouterOp := .record io entry.service entry.line
  have hop : NameRules 48 op.service.raw := hname
  obtain ⟨f', hline, hserves'⟩ := hserves.step h.works hpos hservice hexcluded hop hio
  have hrecorded : op.recorded service = linesFor service [entry] := by
    by_cases heq : entry.service = service <;> simp [op, RouterOp.recorded, linesFor, heq]
  refine ⟨h.works.step hop, fun other hother => ?_, ⟨_, f', hhands.trans hline, hserves', ?_⟩,
    by simp [LogSink.write], by simp [LogSink.write], h.closed⟩
  · exact h.names other (List.mem_append_right _ hother)
  · refine Eq.trans ?_ hlines
    rw [hrecorded, List.append_assoc, waiting, waiting, hinHand, linesFor_append service [entry]]
    rfl

theorem Serves.flush (h : s.Serves settings excluded files service) (hpos : 0 < settings.maxFiles)
    (hservice : NameRules 48 service.raw) (hexcluded : service ∉ excluded) {io : ServiceName → Io}
    (hio : ∀ service, (io service).Succeeds) {pump : PumpPhase}
    (hpump : s.pump = .flushing ∧ pump = .parked ∨ s.pump = .draining ∧ pump = .finished) :
    (s.flush io pump).Serves settings excluded files service := by
  have hinHand : s.pump.inHand = [] ∧ pump.inHand = [] := by
    rcases hpump with ⟨hpump, rfl⟩ | ⟨hpump, rfl⟩ <;> exact ⟨by rw [hpump]; rfl, rfl⟩
  obtain ⟨handed, f, hhands, hserves, hlines⟩ := h.folder
  obtain ⟨hworks, hflushed, f', hnothing, hserves'⟩ :=
    hserves.flushAll h.works hpos hservice hexcluded hio
  refine ⟨hworks, fun other hother => ?_, ⟨_, f', hhands.trans hnothing, hserves', ?_⟩,
    fun _ => hflushed, fun hended => h.ended ?_, h.closed⟩
  · refine h.names other ?_
    rw [hinHand.1]
    exact hinHand.2 ▸ hother
  · refine Eq.trans ?_ hlines
    rw [List.append_nil, waiting, waiting, hinHand.1]
    exact congrArg (handed ++ linesFor service ·) (congrArg (· ++ s.queue) hinHand.2)
  · rcases hpump with ⟨-, rfl⟩ | ⟨hdraining, -⟩
    · rcases hended with hended | hended <;> cases hended
    · exact .inl hdraining

theorem Serves.step (h : s.Serves settings excluded files service) (hpos : 0 < settings.maxFiles)
    (hservice : NameRules 48 service.raw) (hexcluded : service ∉ excluded)
    (hguard : s.Succeeds action s') (hstep : s.step action = some s') :
    s'.Serves settings excluded files service := by
  cases action with
  | record other line =>
    obtain ⟨hidle, hsome⟩ := Option.ite_none_right_eq_some.mp hstep
    exact Option.some.inj hsome ▸ h.send hidle (validateName_eq_ok_iff.mp hguard) line
  | takeProblem =>
    obtain ⟨hcaller, hsome⟩ := Option.ite_none_right_eq_some.mp hstep
    obtain rfl := Option.some.inj hsome
    refine { h with closed := fun hclosed => ?_ }
    rcases h.closed hclosed with hwaiting | hgone
    · exact absurd (hcaller.symm.trans hwaiting) (by decide)
    · exact absurd (hcaller.symm.trans hgone) (by decide)
  | shutdown =>
    obtain ⟨-, hsome⟩ := Option.ite_none_right_eq_some.mp hstep
    obtain rfl := Option.some.inj hsome
    exact { h with ended := fun hended => ⟨rfl, (h.ended hended).2⟩, closed := fun _ => .inl rfl }
  | collect =>
    obtain ⟨-, hsome⟩ := Option.ite_none_right_eq_some.mp hstep
    obtain rfl := Option.some.inj hsome
    exact { h with closed := fun _ => .inr rfl }
  | receive => exact h.receive hstep
  | write io =>
    rw [LogSink.step] at hstep
    split at hstep
    · exact Option.some.inj hstep ▸ h.write hpos hservice hexcluded hguard ‹_›
    · cases hstep
  | flush io =>
    rw [LogSink.step] at hstep
    split at hstep
    · exact Option.some.inj hstep ▸ h.flush hpos hservice hexcluded hguard (.inl ⟨‹_›, rfl⟩)
    · exact Option.some.inj hstep ▸ h.flush hpos hservice hexcluded hguard (.inr ⟨‹_›, rfl⟩)
    · cases hstep

end Serves

/-- What has become of the lines of a service, which were put into files in groups. -/
structure Keeps (settings : LogSettings) (files : String → Option (List UInt8))
    (service : ServiceName) (s : LogSink) (groups : List (List (List UInt8))) : Prop where
  /-- Every line that was accepted is in one group, in order, or waits. -/
  lines : groups.flatten ++ s.waiting service = linesFor service s.accepted
  /-- The files are the last of those there were. -/
  stored : s.files.stored service <:+
    generations (LogFolder.found settings files service).rotated settings.maxFiles ++
      filledFiles ((files (settings.fileFor service)).getD []) groups
  kept : min groups.length (settings.maxFiles + 1) ≤ (s.files.stored service).length
  fits : ∀ lines ∈ groups, FitsFile settings.maxSize lines
  /-- While the task waits, and when it has finished, nothing is buffered. -/
  flushed : s.pump = .parked ∨ s.pump = .finished → s.files.buffered service = []
  /-- When `shutdown` returns, no line waits. -/
  finished : s.pump = .finished → s.waiting service = []

/-- **No line is lost that was accepted**, and none is out of order, whatever the caller and the task
do when, as long as the files can be written. -/
theorem keeps_lines {settings : LogSettings} {excluded : Finset ServiceName}
    {files : String → Option (List UInt8)} (hpos : 0 < settings.maxFiles)
    (h : (logSink settings excluded files).Reachable Succeeds s) {service : ServiceName}
    (hservice : validateName service.raw 48 = .ok ()) (hexcluded : service ∉ excluded) :
    ∃ groups, Keeps settings files service s groups := by
  have hname := validateName_eq_ok_iff.mp hservice
  have hserves : s.Serves settings excluded files service := by
    refine h.invariant ?_ fun _ hI hguard hstep => hI.step hpos hname hexcluded hguard hstep
    intro s₀ hinit
    obtain rfl : s₀ = LogSink.spawn settings excluded files := hinit
    refine ⟨RouterState.works_initial settings excluded files, nofun, ⟨[], _, ⟨[], rfl, rfl⟩,
      RouterState.serves_initial settings excluded files service, rfl⟩, ?_, ?_, nofun⟩
    · rintro (h | h) <;> cases h
    · rintro (h | h) <;> cases h
  obtain ⟨handed, f, hhands, hfolder, hlines⟩ := hserves.folder
  have hsettings := hserves.works.settings
  subst hsettings
  obtain ⟨groups, rfl, hstored, hkept, hfits⟩ :=
    hfolder.exists_retention hserves.works.apart hpos hhands
  refine ⟨groups, hlines, hstored, hkept, hfits, fun hpump => ?_, fun hpump => ?_⟩
  · exact RouterState.buffered_of_flushed (hserves.flushed hpump)
  · rw [waiting, (hserves.ended (.inr hpump)).2, hpump]
    rfl

/-- Two lines are handed over, one while the other is written, and the sink is shut down. -/
def twoLines (io : Io) : List SinkAction :=
  [.record ⟨"web"⟩ [97, 98], .receive, .takeProblem, .record ⟨"web"⟩ [99, 100], .write io,
    .takeProblem, .shutdown, .receive, .write io, .receive, .flush fun _ => io, .collect]

/-- A log directory without files. -/
def smallSink : TransitionSystem LogSink SinkAction := logSink ⟨"/logs", 4, 1⟩ ∅ fun _ => none

def smallStart : LogSink := .spawn ⟨"/logs", 4, 1⟩ ∅ fun _ => none

theorem reachable_twoLines {io : Io} (hio : io.Succeeds)
    (h : smallSink.run smallStart (twoLines io) = some s) : smallSink.Reachable Succeeds s := by
  have hname : validateName "web" 48 = .ok () := by decide
  have hactions : ∀ action ∈ twoLines io, ∀ u v : LogSink, u.Succeeds action v := by
    simp [twoLines, Succeeds, hname, hio]
  exact ⟨smallStart, rfl, TransitionSystem.steps_of_run_of_forall hactions h⟩

/-- The lines are in the files. -/
theorem keeps_lines_web : ∃ s groups, (s.caller = .gone ∧ s.accepted.length = 2) ∧
    Keeps ⟨"/logs", 4, 1⟩ (fun _ => none) ⟨"web"⟩ s groups := by
  obtain ⟨s, hrun, hview⟩ : ∃ s, smallSink.run smallStart (twoLines .quiet) = some s ∧
      (s.caller, s.accepted.length) = (.gone, 2) := Option.map_eq_some_iff.mp (by decide)
  obtain ⟨groups, hkeeps⟩ := keeps_lines (by decide) (reachable_twoLines Io.succeeds_quiet hrun)
    (show validateName (ServiceName.mk "web").raw 48 = .ok () by decide) (by decide)
  exact ⟨s, groups, Prod.mk.inj hview, hkeeps⟩

/-- No log file can be opened, twice, and it is told once. -/
theorem told_once_web : ∃ s : LogSink, s.caller = .gone ∧ s.failures.length = 2 ∧
    s.reports.filterMap SinkReport.problem? = s.failures.take 1 := by
  let io : Io := { Io.quiet with fails := fun op => op = .openLog }
  obtain ⟨s, hrun, hview⟩ : ∃ s, smallSink.run smallStart (twoLines io) = some s ∧
      (s.caller, s.failures.length) = (.gone, 2) := Option.map_eq_some_iff.mp (by decide)
  obtain ⟨hcaller, hfailures⟩ := Prod.mk.inj hview
  obtain ⟨-, -, -, htold⟩ :=
    told_once ⟨smallStart, rfl, TransitionSystem.steps_of_run hrun⟩
  exact ⟨s, hcaller, hfailures, htold hcaller⟩

end LogSink

end Servicrab
