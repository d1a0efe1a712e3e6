import Servicrab.Core.Outlook
import Servicrab.Daemon.Session
import Servicrab.Protocol.Response
import Servicrab.Runner.Verdicts
import Servicrab.Supervisor.Services
import Servicrab.Tasks.Renewal

/-!
# The supervisor, seen by a client

The collector of the daemon folds everything the stack publishes into the registry (`server.rs`), a
client asks for the status of a service as it goes over the wire (`wire.rs`), and makes up its mind
whether the service is ready (`commands/daemon.rs`). The supervisor itself goes by the status in the
slot of the service.

A request to reload synchronises the registry before it sends its command, and once more when the
command is refused; at which points of a run it does so is left open.

## Main definitions

* `toWireStatus`, `Client.readiness`.
* `Overview`, `overviewSystem`: the supervisor with its tasks, and the registry.
* `Overview.Agrees`: the client and the supervisor give the same answer.
* `Overview.SameDeclarations`, `Overview.Undisturbed`, `Overview.RenewedInTime`: the guards.

## Main results

* `Overview.outlook_collect`, `Overview.outlook_world`: what is known of a service once everything
  that was published is folded in.
-/

open Std (ExtTreeMap)

namespace Servicrab

/-! ### The client -/

def toWireState (state : ServiceState) : Protocol.ServiceState :=
  match state with
  | .pending => .pending
  | .starting => .starting
  | .running => .running
  | .backoff => .backoff
  | .stopping => .stopping
  | .stopped => .stopped
  | .exited => .exited
  | .failed => .failed

/-- Convert a runtime status into its wire representation. -/
def toWireStatus (status : ServiceStatus) : Protocol.ServiceInfo where
  name := status.name.raw
  state := toWireState status.state
  pgid := status.pid.map Int32.ofInt
  pid := status.pid.map Int32.ofInt
  uptimeSecs := status.uptime.map fun uptime => UInt64.ofNat (uptime / 10 ^ 9)
  restarts := UInt32.ofNat status.restarts
  health := match status.health with
    | .none => .none
    | .starting => .starting
    | .healthy => .healthy
    | .unhealthy => .unhealthy
  message := status.message

namespace Client

/-- What a status snapshot says about the readiness of one service. -/
inductive Readiness
  /-- Up, and health-checked if it promised a health check. -/
  | ready
  /-- Not there yet, but still on its way. -/
  | waiting
  /-- It will not become ready without someone intervening. -/
  | gone (reason : String)
  deriving DecidableEq, Repr

def readiness (service : Protocol.ServiceInfo) : Readiness :=
  match service.state with
  | .running =>
    match service.health with
    | .none | .healthy => .ready
    | .starting | .unhealthy | .unknown => .waiting
  -- A one-shot service has done its job, unless it was stopped because it was unhealthy.
  | .exited => if service.health ≠ .unhealthy then .ready else .gone "exited unhealthy"
  | .failed => .gone (service.message.getD "failed")
  | .stopped => .gone "stopped"
  | .pending | .starting | .backoff | .stopping | .unknown => .waiting

/-- The answer of the supervisor that an answer of the client stands for. -/
def Readiness.answer : Readiness → Servicrab.Readiness
  | .ready => .ready
  | .waiting => .pending
  | .gone _ => .gone

/-- The answers stand for each other. -/
def Readiness.Matches (client : Readiness) (own : Servicrab.Readiness) : Prop :=
  (client = .ready ↔ own = .ready) ∧ (client = .waiting ↔ own = .pending) ∧
    ((∃ reason, client = .gone reason) ↔ own = .gone)

theorem matches_iff {client : Readiness} {own : Servicrab.Readiness} :
    client.Matches own ↔ client.answer = own := by
  cases client <;> cases own <;> simp [Readiness.Matches, Readiness.answer]

/-- The client goes by the state and the health. -/
theorem answer_readiness (status : ServiceStatus) :
    (readiness (toWireStatus status)).answer = Outlook.readiness ⟨status.state, status.health⟩ := by
  obtain ⟨name, state, pid, uptime, restarts, health, message⟩ := status
  cases state <;> cases health <;> rfl

end Client

/-! ### The system -/

/-- The supervisor with its tasks, and the registry its events are folded into. -/
structure Overview where
  world : World
  registry : StatusRegistry
  /-- How many events the collector has folded. -/
  collected : ℕ

inductive OverviewAction
  | world (action : WorldAction)
  /-- The collector folds the next event. -/
  | collect (now : Instant)
  /-- A reload request points the registry at a plan. -/
  | sync (config : ValidConfig) (names : List ServiceName)

namespace Overview

/-- One step of the supervisor, of the collector or of a reload request. -/
def step (o : Overview) : OverviewAction → Option Overview
  | .world action => (o.world.step action).map fun world => { o with world := world }
  | .collect now => o.world.stack.events[o.collected]?.map fun event =>
    { o with registry := o.registry.apply now event, collected := o.collected + 1 }
  | .sync config names => some { o with registry := syncRegistry o.registry config.1 names }

/-- The daemon as its supervisor enters its loop. -/
def initial (options : StackOptions) (config : ValidConfig) (plan : StartPlan config.1)
    (stopped : Finset ServiceName) : Overview where
  world := World.initial (Stack.initial options config plan.1 stopped)
  registry := initialRegistry config.1 plan.1
  collected := 0

end Overview

/-- The runs of `StackSupervisor::run`, with its tasks and the collector of its events. -/
def overviewSystem : TransitionSystem Overview OverviewAction where
  init o := ∃ options config plan stopped, o = Overview.initial options config plan stopped
  step := Overview.step

namespace Overview

variable {o o' : Overview} {name : ServiceName} {declared : Bool}

/-- The events of a service that the collector has yet to fold. -/
def uncollected (o : Overview) (name : ServiceName) : List EventKind :=
  ((o.world.stack.events.drop o.collected).filter fun event => event.service = name).map
    ServiceEvent.kind

/-- Everything that was published about the service was folded by both sides. -/
structure Folded (o : Overview) (name : ServiceName) : Prop where
  relayed : o.world.Relayed name
  collected : o.uncollected name = []

/-- Beside, the status in the slot of the service has heard of it since it was wiped. -/
structure CaughtUp (o : Overview) (name : ServiceName) : Prop extends o.Folded name where
  heard : ∀ (slot : Slot) (cell : Cell), o.world.stack.slots[name]? = some slot →
    o.world.stack.cells[slot.shared]? = some cell → cell.status.state ≠ .pending

/-- The client's answer for the entry of the service is that of its slot under the default
condition. -/
def Agrees (o : Overview) (name : ServiceName) : Prop :=
  ∀ (slot : Slot) (cell : Cell) (now : Instant) (status : ServiceStatus),
    o.world.stack.slots[name]? = some slot → o.world.stack.cells[slot.shared]? = some cell →
    status ∈ o.registry.snapshot now → status.name = name →
    (Client.readiness (toWireStatus status)).Matches
      (cell.status.readiness ((⟨name, none⟩ : Dependency).conditionFor slot.service))

/-- What the entry of a service says once everything that was published is folded in. -/
def outlook (o : Overview) (name : ServiceName) : Option Outlook :=
  o.registry.services[name]?.map fun entry =>
    entry.outlook.observeAll name (o.world.stack.events.drop o.collected)

/-! ### The guards -/

/-- Every definition of the service declares a health check, or none does. -/
def Declares (name : ServiceName) (declared : Bool) (service : Service) : Prop :=
  service.name = name → service.health.isSome = declared

/-- The guard that no reload changes whether the service declares a health check. -/
def SameDeclarations (name : ServiceName) (declared : Bool) (_ : Overview)
    (action : OverviewAction) (_ : Overview) : Prop :=
  match action with
  | .world (.stack (.submit command)) => command.Brings (Declares name declared)
  | .sync config _ => config.1.Each (Declares name declared)
  | _ => True

/-- The guard that nothing comes between the status of a service and its entry, once both tell of the
same run. -/
structure Undisturbed (name : ServiceName) (declared : Bool) (o : Overview)
    (action : OverviewAction) (o' : Overview) : Prop where
  same : SameDeclarations name declared o action o'
  /-- No task of the service gives up waiting for its dependencies. -/
  keeps_on : ∀ (task : ℕ) (spawned : Task) (l : TaskLocal) (rest : List Effect),
    action = .world (.task task .conclude) → o.world.stack.tasks[task]? = some spawned →
    spawned.service.name = name → o.world.locals[task]? = some l →
    l.phase ≠ .ending (.giveUp :: rest)
  /-- No run of the service is announced to have exited after its process was condemned. -/
  stands : ∀ (task : ℕ) (spawned : Task) (l : TaskLocal) (run run' : Run) (runAction : RunAction),
    action = .world (.task task (.run runAction)) → o.world.stack.tasks[task]? = some spawned →
    spawned.service.name = name → o.world.locals[task]? = some l → l.run = some run →
    run.VerdictStands runAction run'
  /-- The service gets a task, or a new slot, once nothing is left of its earlier tasks. -/
  renewed : ∀ slot : Slot, o'.world.stack.slots[name]? = some slot →
    o.world.stack.Renews o'.world.stack slot.shared →
    ∀ (task : ℕ) (spawned : Task) (l : TaskLocal), o.world.stack.tasks[task]? = some spawned →
      spawned.service.name = name → o.world.locals[task]? = some l → l.relay = none
  /-- An entry is made for the service if it has no slot yet, and is configured. -/
  entries : ∀ (config : ValidConfig) (names : List ServiceName), action = .sync config names →
    name ∈ names → o.registry.services[name]? = none →
    o.world.stack.slots[name]? = none ∧ name ∈ config.1.services

/-- The guard that the service gets a task, or a new slot, while its entry waits for it in any
case. -/
def RenewedInTime (name : ServiceName) (o : Overview) (_ : OverviewAction) (o' : Overview) : Prop :=
  ∀ slot : Slot, o'.world.stack.slots[name]? = some slot →
    o.world.stack.Renews o'.world.stack slot.shared →
    ∀ outlook, o.outlook name = some outlook → outlook.waits

/-! ### What is known of a service -/

theorem outlook_of_uncollected {entry : StatusEntry} (hentry : o.registry.services[name]? = some entry)
    (h : o.uncollected name = []) : o.outlook name = some entry.outlook := by
  simp only [outlook, hentry, Option.map_some, Outlook.observeAll]
  rw [show List.map _ _ = o.uncollected name from rfl, h]
  rfl

/-- Nothing new is known after an event is collected. -/
theorem outlook_collect {now : Instant} (hstep : o.step (.collect now) = some o')
    (name : ServiceName) : o'.outlook name = o.outlook name := by
  obtain ⟨event, hevent, rfl⟩ := Option.map_eq_some_iff.mp hstep
  have hdrop : o.world.stack.events.drop o.collected =
      event :: o.world.stack.events.drop (o.collected + 1) := by
    obtain ⟨hlt, rfl⟩ := List.getElem?_eq_some_iff.mp hevent
    exact List.drop_eq_getElem_cons hlt
  simp only [outlook, StatusRegistry.getElem?_apply, hdrop, Outlook.observeAll_cons]
  by_cases he : event.service = name
  · simp only [he, if_true, Option.map_map]
    refine congrArg (fun f => Option.map f _) (funext fun entry => ?_)
    rw [Function.comp_apply, StatusEntry.outlook_apply]
  · simp [he, Ne.symm he]

/-- What is published is known at once. -/
theorem outlook_world {world : World} {events : List ServiceEvent}
    (hevents : world.stack.events = o.world.stack.events ++ events)
    (hcollected : o.collected ≤ o.world.stack.events.length) (name : ServiceName) :
    outlook { o with world := world } name =
      (o.outlook name).map fun outlook => outlook.observeAll name events := by
  simp only [outlook, hevents, List.drop_append_of_le_length hcollected,
    Outlook.observeAll_append, Option.map_map]
  rfl

/-- The entries that a synchronised registry keeps are what they were. -/
theorem outlook_sync {config : Config} {names : List ServiceName} {outlook : Outlook}
    (h : Overview.outlook { o with registry := syncRegistry o.registry config names } name =
      some outlook) :
    name ∈ names ∧ (o.outlook name = some outlook ∨ o.registry.services[name]? = none ∧
      outlook = (StatusEntry.new (config.hasHealth name)).outlook.observeAll name
        (o.world.stack.events.drop o.collected)) := by
  simp only [Overview.outlook, syncRegistry, StatusRegistry.getElem?_sync] at h
  split_ifs at h with hname
  · refine ⟨hname, ?_⟩
    cases hentry : o.registry.services[name]? with
    | none =>
      rw [hentry] at h
      exact .inr ⟨rfl, (Option.some.inj h).symm⟩
    | some entry =>
      rw [hentry] at h
      left
      rw [Overview.outlook, hentry]
      exact h
  · cases h

end Overview

end Servicrab
