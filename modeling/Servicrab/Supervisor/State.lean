import Servicrab.Core.Options
import Servicrab.Core.Plan
import Servicrab.Core.Readiness

/-!
# The state of the stack supervisor

What `StackSupervisor::run` keeps while it loops (`stack.rs`), together with what it shares with
its surroundings: the queue of operator commands, the queue of reports, the acknowledgement
channels, the stop channels and the cells that slots and supervision tasks write to.

A supervision task is named by its position in the list of all tasks spawned so far. The stop
channel of a task and its join handle are both named by the task. A cell is named by its position
in the list of cells, and an acknowledgement channel by the number of its command. Sending on a stop
channel or on an acknowledgement channel appends to a log, so that "sent", "answered" and "spawned"
are facts about the whole run and not only about the current state.

## Main definitions

* `Slot`, `Control`, `ControlOutcome`, `ControlRefusal`.
* `Stack`, with `Stack.spawn`, `Stack.answer`, `Stack.insertSlot`, `Stack.rewireDependencies`,
  `Stack.diff`.
-/

open Std (ExtTreeMap)

namespace Servicrab

/-! ### Options, results and commands -/

/-- Options for a stack run. -/
structure StackOptions where
  noRestart : Bool
  abortOnFailure : Bool
  keepRunning : Bool
  deriving DecidableEq, Repr

/-- How one service ended during a stack run. -/
inductive ServiceResult
  | finished (outcome : RunOutcome)
  | failed (error : RuntimeError)
  | skipped (dependency : ServiceName)
  deriving DecidableEq, Repr

/-- Whether this counts as a failure for the exit status. -/
def ServiceResult.isFailure : ServiceResult → Bool
  | .finished _ => false
  | .failed _ | .skipped _ => true

/-- The final report for a single service. -/
structure ServiceReport where
  service : ServiceName
  result : ServiceResult
  deriving DecidableEq, Repr

/-- What a command did. -/
inductive ControlOutcome
  | started
  | restarted
  | stopped
  | alreadyStopped
  | reloaded (added changed removed : ℕ)
  deriving DecidableEq, Repr

/-- Why a command was refused. -/
inductive ControlRefusal
  | unknownService (service : ServiceName)
  | busy (service : ServiceName)
  | alreadyRunning (service : ServiceName)
  deriving DecidableEq, Repr

/-- What is sent on an acknowledgement channel. -/
abbrev Verdict := Except ControlRefusal ControlOutcome

/-- A command an operator sends to a running stack. A reload comes with a loaded configuration
and a plan made from it. -/
inductive Control
  | start (service : ServiceName) (ack : ℕ)
  | stop (service : ServiceName) (ack : ℕ)
  | restart (service : ServiceName) (ack : ℕ)
  | reload (config : ValidConfig) (plan : StartPlan config.1) (ack : ℕ)
  deriving DecidableEq

/-- Take the acknowledgement channel out of a command. -/
def Control.intoAck : Control → ℕ
  | .start _ ack | .stop _ ack | .restart _ ack | .reload _ _ ack => ack

/-- The service that a command is about. -/
def Control.service : Control → Option ServiceName
  | .start service _ | .stop service _ | .restart service _ => some service
  | .reload _ _ _ => none

/-! ### Slots and tasks -/

/-- One dependency edge: who to wait for, for what, and where to watch it. -/
structure DependencyEdge where
  name : ServiceName
  condition : DependencyCondition
  status : ℕ
  deriving DecidableEq, Repr

/-- The two shared values of a slot: the readiness it broadcasts and its process group, `0` for
none. -/
structure Cell where
  status : DependencyStatus
  pgid : ℤ
  deriving DecidableEq, Repr

/-- Everything the supervisor needs to run, and re-run, one service. -/
structure Slot where
  service : Service
  deps : List DependencyEdge
  /-- The `readiness` and `pgid` this slot shares with its supervision tasks. -/
  shared : ℕ
  /-- The stop channel, present exactly while a supervision task is alive. -/
  stop : Option ℕ
  handle : Option ℕ
  /-- Set while a stop is only the first half of a restart. -/
  restartWhenStopped : Bool
  /-- Set when a reload dropped the service: the slot disappears as soon as its supervision task
  reports back. -/
  retired : Bool
  /-- The client waiting for the in-flight command to complete. -/
  pending : Option ℕ
  deriving DecidableEq

def Slot.isRunning (slot : Slot) : Bool := slot.handle.isSome

/-- What the client waiting on this slot is sent, if there is one. -/
def Slot.answers (slot : Slot) (result : Verdict) : List (ℕ × Verdict) :=
  match slot.pending with
  | some ack => [(ack, result)]
  | none => []

/-- What a supervision task was spawned with. -/
structure Task where
  service : Service
  deps : List DependencyEdge
  shared : ℕ
  deriving DecidableEq

/-- A debug assertion of the supervisor. -/
inductive DebugAssertion
  /-- "report from {} has no matching spawn" -/
  | reportMatchesSpawn (service : ServiceName)
  /-- "a live slot for {} was reported as added" -/
  | revivedSlotIsRetired (name : ServiceName)
  /-- "insert_slot would overwrite the live slot for {}" -/
  | insertedOverIdle (name : ServiceName)
  deriving DecidableEq, Repr

/-! ### The supervisor and its surroundings -/

/-- The state of a running stack. `config`, `plan` and `slots` are the source's `RunState`. -/
structure Stack where
  options : StackOptions
  config : ValidConfig
  plan : List ServiceName
  slots : ExtTreeMap ServiceName Slot
  /-- The loop's count of live tasks. -/
  running : ℕ
  /-- The reports collected so far. -/
  reports : List ServiceReport
  /-- Set once the loop was left, with the reason for shutting the stack down, if any. -/
  left : Option (Option ShutdownReason)
  /-- The commands sent but not taken yet. -/
  control : List Control
  /-- The reports sent but not taken yet, each with the task that sent it. The supervisor reads
  the report only. -/
  reportQueue : List (ℕ × ServiceReport)
  /-- Everything sent on the stack-wide event channel. -/
  events : List ServiceEvent
  /-- Everything sent on acknowledgement channels. -/
  answers : List (ℕ × Verdict)
  /-- Every stop request sent to a supervision task. -/
  requests : List (ℕ × ShutdownReason)
  /-- Every supervision task spawned. -/
  tasks : List Task
  /-- The tasks that have sent their report, which is the last thing a task does. -/
  finished : List ℕ
  /-- The shared cells, one for every slot ever inserted. -/
  cells : List Cell
  /-- The acknowledgement channel the next command is created with. -/
  nextAck : ℕ
  /-- The debug assertions that failed. -/
  failedAssertions : List DebugAssertion

namespace Stack

variable (w : Stack)

/-- `ack.send(result)`. -/
def send (ack : ℕ) (result : Verdict) : Stack :=
  { w with answers := w.answers ++ [(ack, result)] }

/-- `stop.send(Some(reason))`. -/
def request (task : ℕ) (reason : ShutdownReason) : Stack :=
  { w with requests := w.requests ++ [(task, reason)] }

/-- `debug_assert!(condition)`. -/
def debugAssert (condition : Bool) (assertion : DebugAssertion) : Stack :=
  if condition then w else { w with failedAssertions := w.failedAssertions ++ [assertion] }

section

variable {w : Stack} (condition : Bool) (assertion : DebugAssertion)

/-- A debug assertion is seen in the log of those that failed only. -/
theorem debugAssert_eq :
    w.debugAssert condition assertion =
      { w with failedAssertions := (w.debugAssert condition assertion).failedAssertions } := by
  unfold debugAssert
  split <;> rfl

@[simp] theorem slots_debugAssert : (w.debugAssert condition assertion).slots = w.slots := by
  rw [debugAssert_eq]

@[simp] theorem cells_debugAssert : (w.debugAssert condition assertion).cells = w.cells := by
  rw [debugAssert_eq]

@[simp] theorem tasks_debugAssert : (w.debugAssert condition assertion).tasks = w.tasks := by
  rw [debugAssert_eq]

@[simp] theorem finished_debugAssert :
    (w.debugAssert condition assertion).finished = w.finished := by
  rw [debugAssert_eq]

@[simp] theorem reports_debugAssert : (w.debugAssert condition assertion).reports = w.reports := by
  rw [debugAssert_eq]

@[simp] theorem requests_debugAssert :
    (w.debugAssert condition assertion).requests = w.requests := by
  rw [debugAssert_eq]

@[simp] theorem debugAssert_true : w.debugAssert true assertion = w := rfl

end

/-- Write a slot back after changing it in place. -/
def setSlot (name : ServiceName) (slot : Slot) : Stack :=
  { w with slots := w.slots.insert name slot }

/-- `Slot::spawn`, together with the `running += 1` that follows it at every call. The status and
the process group of an earlier task are wiped before the new task exists. -/
def spawn (name : ServiceName) (slot : Slot) : Stack :=
  { w with
    cells := w.cells.modify slot.shared fun _ => { status := .new, pgid := 0 }
    tasks := w.tasks ++ [{ service := slot.service, deps := slot.deps, shared := slot.shared }]
    slots := w.slots.insert name
      { slot with stop := some w.tasks.length, handle := some w.tasks.length }
    running := w.running + 1 }

/-- `Slot::answer`: answer the client waiting on this slot, which takes its channel away. -/
def answer (name : ServiceName) (slot : Slot) (result : Verdict) : Stack :=
  { w with
    answers := w.answers ++ slot.answers result
    slots := w.slots.insert name { slot with pending := none } }

/-- Add an idle slot for a service, with cells of its own. -/
def insertSlot (name : ServiceName) (service : Service) : Stack :=
  let idle := match w.slots[name]? with
    | some slot => !(slot.stop.isSome || slot.handle.isSome)
    | none => true
  let w := w.debugAssert idle (.insertedOverIdle name)
  { w with
    cells := w.cells ++ [{ status := .new, pgid := 0 }]
    slots := w.slots.insert name
      { service := service, deps := [], shared := w.cells.length, stop := none, handle := none,
        restartWhenStopped := false, retired := false, pending := none } }

/-- Report a service as stopped without ever starting it. -/
def publishStopped (name : ServiceName) : Stack :=
  match w.slots[name]? with
  | none => w
  | some slot =>
    { w with
      cells := w.cells.modify slot.shared fun cell =>
        { cell with status := { DependencyStatus.new with state := .stopped } }
      events := w.events ++ [⟨name, .state .stopped⟩] }

/-- The edge a `depends_on` entry stands for: none when its target is not part of the stack. -/
def edgeFor (entry : Dependency) : Option DependencyEdge :=
  match w.config.1.services[entry.service]?, w.slots[entry.service]? with
  | some target, some slot =>
    some { name := entry.service, condition := entry.conditionFor target, status := slot.shared }
  | _, _ => none

/-- Point every slot at the status of the dependencies it currently has. -/
def rewireDependencies : Stack :=
  { w with
    slots := w.slots.map fun name slot =>
      match w.config.1.services[name]? with
      | some service => { slot with deps := service.dependsOn.filterMap w.edgeFor }
      | none => slot }

end Stack

/-- What a configuration reload changes about the running stack. -/
structure ConfigDiff where
  added : List ServiceName
  changed : List ServiceName
  removed : List ServiceName
  deriving DecidableEq, Repr

namespace Stack

variable (w : Stack)

/-- Whether a planned service is new to the stack, or comes back before its slot is gone. -/
def isAdded (name : ServiceName) : Bool :=
  match w.slots[name]? with
  | some slot => slot.retired
  | none => true

/-- Whether a planned service is kept with another definition. -/
def isChanged (config : Config) (name : ServiceName) : Bool :=
  match w.slots[name]? with
  | some slot => !slot.retired && config.services[name]? != some slot.service
  | none => false

/-- Compare the running configuration with a new one. -/
def diff (config : Config) (plan : List ServiceName) : ConfigDiff where
  added := plan.filter w.isAdded
  changed := plan.filter (w.isChanged config)
  removed := w.slots.keys.filter fun name => name ∉ plan

end Stack

end Servicrab
