import Servicrab.Runner.Run
import Servicrab.Supervisor.Loop

/-!
# The supervisor and its tasks

The supervisor loop together with `supervise_service` (`stack.rs`) for every task it has spawned:
the wait for the dependencies, the run of the service, the relay that forwards the events of the
run while it derives the status of the service from them, and the end of the task once the relay
is drained or its time is up.

A task and its relay act on what they share, the cell of their slot, the stack-wide event channel
and the queue of reports, by `Effect`s, one in each step. What a step of a task reads is the status
of a dependency and its own stop channel.

## Main definitions

* `Effect`, `TaskLocal`, `World`.
* `World.stepLocal`, `World.step`, `worldSystem`.
-/

namespace Servicrab

/-- One write or send on something that is shared. -/
inductive Effect
  /-- `pgid.store(..)`. -/
  | store (pgid : ℤ)
  /-- `readiness.send_modify(|status| *status = ..)`. -/
  | write (status : DependencyStatus)
  /-- `readiness.send_modify(|status| status.gone = true)`. -/
  | giveUp
  | emit (kind : EventKind)
  | report (result : ServiceResult)
  deriving DecidableEq

/-- Where `supervise_service` is. -/
inductive TaskPhase
  /-- In `wait_for_dependencies`: these are left, and the first of them was read as pending if
  `looked` says so. -/
  | waiting (rest : List DependencyEdge) (looked : Bool)
  /-- The service is run. -/
  | running
  /-- These effects are left, the last of which is the report. -/
  | ending (effects : List Effect)
  deriving DecidableEq

/-- What belongs to one supervision task. -/
structure TaskLocal where
  phase : TaskPhase
  /-- The run of the service, once it has begun. -/
  run : Option Run
  /-- What the relay has left to do with the event it took last, `none` when there is no relay, or
  no relay any more. -/
  relay : Option (List Effect)

/-- A step of a supervision task, or of what it has spawned. -/
inductive TaskAction
  /-- The status of the next dependency is read, or there is none left. -/
  | look
  /-- The status of the next dependency can no longer change. -/
  | lost
  /-- A shutdown request is seen while waiting. -/
  | heed (reason : ShutdownReason)
  /-- The runner, a monitor or a reader takes a step. -/
  | run (action : RunAction)
  /-- The relay takes the next event. -/
  | receive
  /-- The relay has something to do with the event it took. -/
  | relay
  /-- The relay finds that no sender is left. -/
  | close
  /-- The runner has returned, and the relay has ended or has had its time. -/
  | wrapUp (drained : Bool)
  | conclude

namespace TaskLocal

/-- A supervision task as it is spawned. -/
def new (spawned : Task) : TaskLocal where
  phase := .waiting spawned.deps false
  run := none
  relay := none

/-- What the relay does with an event: it keeps the process group and the status of the service up
to date, and forwards the event. -/
def relayEffects (tracker : DependencyStatus) (kind : EventKind) : List Effect :=
  let stores := match kind with
    | .started group => [.store group]
    | .exited _ _ | .finished _ => [.store 0]
    | _ => []
  let writes := match tracker.observed kind with
    | some next => [.write next]
    | none => []
  stores ++ writes ++ [.emit kind]

/-- The end of a task whose dependency is not going to be available. -/
def blocked (dependency : ServiceName) : TaskPhase :=
  .ending [.emit (.skipped dependency), .giveUp, .report (.skipped dependency)]

/-- The end of a task that was asked to stop while it waited. -/
def shutDown (reason : ShutdownReason) : TaskPhase :=
  .ending [.giveUp, .report (.finished (.stopped reason))]

/-- The end of a task whose service was run. -/
def wrappedUp (result : Except RuntimeError RunOutcome) : TaskPhase :=
  match result with
  | .ok outcome => .ending [.store 0, .report (.finished outcome)]
  | .error error => .ending [.store 0, .emit (.failed (toString error)), .report (.failed error)]

/-- Whether the task, or the relay it has spawned, holds the status of the service. -/
def holdsStatus (l : TaskLocal) : Bool :=
  l.phase != .ending [] || l.relay.isSome

end TaskLocal

/-- The supervisor, and every task it has spawned. -/
structure World where
  stack : Stack
  /-- One for each of `stack.tasks`. -/
  locals : List TaskLocal
  /-- The stop requests of the final shutdown. -/
  final : List (ℕ × ShutdownReason)

/-- A step of the supervisor, of a file watcher, or of a task. -/
inductive WorldAction
  | stack (action : StackAction)
  /-- The final shutdown asks the task of a service to stop. -/
  | stopAll (name : ServiceName)
  | task (task : ℕ) (action : TaskAction)

/-- Whether an event comes from a file watcher. -/
def EventKind.isWatch (kind : EventKind) : Bool :=
  match kind with
  | .watchTriggered .. | .watchFailed _ | .watchTruncated _ => true
  | _ => false

/-- Whether a move belongs to the supervisor, its clients or the file watchers. The others are the
effects of tasks. -/
def StackAction.isOutside (action : StackAction) : Bool :=
  match action with
  | .submit _ | .control | .report | .interrupt _ | .idle => true
  | .emit event => event.kind.isWatch
  | .finish _ _ | .write _ _ | .store _ _ => false

/-- The value an action reads from the stop channel of its task, if it reads it. -/
def RunAction.stopRead (action : RunAction) : Option (Option ShutdownReason) :=
  match action with
  | .runner (.head stop) => some stop
  | .runner (.interrupted reason) => some (some reason)
  | _ => none

namespace World

variable (w : World)

/-- What a service is run with. -/
def runOptions : RunOptions where
  noRestart := w.stack.options.noRestart
  output := .capture

/-- The value on the stop channel of a task. -/
def stopValue (task : ℕ) : Option ShutdownReason :=
  (((w.stack.requests ++ w.final).filter fun request => request.1 = task).getLast?).map Prod.snd

/-- Whether somebody holds the sending half of the status in a cell. -/
def hasSender (cell : ℕ) : Bool :=
  (w.stack.slots.toList.any fun entry => entry.2.shared = cell) ||
    (w.stack.tasks.zip w.locals).any fun task => task.1.shared = cell && task.2.holdsStatus

/-- The stack after a step of the supervisor: tasks that were spawned exist from now on. -/
def withStack (stack : Stack) : World :=
  { w with
    stack := stack
    locals := w.locals ++ (stack.tasks.drop w.locals.length).map TaskLocal.new }

/-- A step of a task on what is its own, with the effect it has. -/
def stepLocal (task : ℕ) (spawned : Task) (l : TaskLocal) :
    TaskAction → Option (TaskLocal × Option Effect)
  | .look =>
    match l.phase with
    | .waiting (edge :: rest) _ => w.stack.cells[edge.status]?.map fun cell =>
      match cell.status.readiness edge.condition with
      | .ready => ({ l with phase := .waiting rest false }, none)
      | .gone => ({ l with phase := TaskLocal.blocked edge.name }, none)
      | .pending => ({ l with phase := .waiting (edge :: rest) true }, none)
    | .waiting [] _ => some
      ({ phase := .running, run := some (.new spawned.service w.runOptions), relay := some [] },
        none)
    | _ => none
  | .lost =>
    match l.phase with
    | .waiting (edge :: _) true =>
      if w.hasSender edge.status then none
      else some ({ l with phase := TaskLocal.blocked edge.name }, none)
    | _ => none
  | .heed reason =>
    match l.phase with
    | .waiting (_ :: _) true =>
      if w.stopValue task = some reason then
        some ({ l with phase := TaskLocal.shutDown reason }, none)
      else none
    | _ => none
  | .run action =>
    match l.run with
    | some run =>
      if action ≠ .receive ∧ ∀ stop ∈ action.stopRead, stop = w.stopValue task then
        (run.step action).map fun run => ({ l with run := some run }, none)
      else none
    | none => none
  | .receive =>
    match l.relay, l.run with
    | some [], some run =>
      match run.channel with
      | event :: _ => (run.step .receive).map fun next =>
        ({ l with
          run := some next, relay := some (TaskLocal.relayEffects run.tracker event.2) }, none)
      | [] => none
    | _, _ => none
  | .relay =>
    match l.relay with
    | some (effect :: rest) => some ({ l with relay := some rest }, some effect)
    | _ => none
  | .close =>
    match l.relay, l.run with
    | some [], some run =>
      if run.channel = [] ∧ ¬ run.isOpen then some ({ l with relay := none }, none) else none
    | _, _ => none
  | .wrapUp drained =>
    match l.phase, l.run with
    | .running, some run =>
      match run.runner.phase with
      | .returned result =>
        if drained → l.relay = none then
          some ({ l with phase := TaskLocal.wrappedUp result }, none)
        else none
      | _ => none
    | _, _ => none
  | .conclude =>
    match l.phase with
    | .ending (effect :: rest) => some ({ l with phase := .ending rest }, some effect)
    | _ => none

/-- An effect of a task on what it shares. -/
def perform (task : ℕ) (spawned : Task) : Effect → Option Stack
  | .store pgid => w.stack.step (.store spawned.shared pgid)
  | .write status => w.stack.step (.write spawned.shared status)
  | .giveUp => w.stack.cells[spawned.shared]?.bind fun cell =>
    w.stack.step (.write spawned.shared { cell.status with gone := true })
  | .emit kind => w.stack.step (.emit ⟨spawned.service.name, kind⟩)
  | .report result => w.stack.step (.finish task result)

/-- A step of a task. -/
def stepTask (task : ℕ) (spawned : Task) (l : TaskLocal) (action : TaskAction) : Option World :=
  (w.stepLocal task spawned l action).bind fun next =>
    let w := { w with locals := w.locals.set task next.1 }
    match next.2 with
    | some effect => (w.perform task spawned effect).map fun stack => { w with stack := stack }
    | none => some w

/-- One step of the supervisor, of its surroundings or of a task. -/
def step : WorldAction → Option World
  | .stack action =>
    if action.isOutside then (w.stack.step action).map w.withStack else none
  | .stopAll name =>
    match w.stack.left, w.stack.slots[name]? with
    | some (some reason), some slot => slot.stop.map fun stop =>
      { w with final := w.final ++ [(stop, reason)] }
    | _, _ => none
  | .task task action =>
    match w.stack.tasks[task]?, w.locals[task]? with
    | some spawned, some l => w.stepTask task spawned l action
    | _, _ => none

/-- The supervisor as it enters its loop, with the tasks it has spawned. -/
def initial (stack : Stack) : World where
  stack := stack
  locals := stack.tasks.map TaskLocal.new
  final := []

end World

/-- The runs of `StackSupervisor::run` with all its supervision tasks. -/
def worldSystem : TransitionSystem World WorldAction where
  init w := ∃ stack, stackSystem.init stack ∧ w = World.initial stack
  step := World.step

end Servicrab
