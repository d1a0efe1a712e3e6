import Servicrab.Core.Event
import Servicrab.Library.TreeMap

/-!
# The live view of the services

The registry the daemon folds every event of the stack into (`status.rs`): one entry for each
known service, and the order in which they are reported. Reading the clock is a parameter of
`apply` and of `snapshot`.

## Main definitions

* `Health`, `StatusEntry`, `StatusRegistry`.
* `StatusRegistry.new`, `StatusRegistry.sync`, `StatusRegistry.apply`, `StatusRegistry.snapshot`.

## Main results

* `StatusRegistry.getElem?_sync`, `StatusRegistry.getElem?_apply`: one entry after each operation.
* `StatusRegistry.getElem?_applyAll`: one entry after a run of events.
-/

open Std (ExtTreeMap)

namespace Servicrab

/-- A reading of the monotonic clock, in nanoseconds. -/
abbrev Instant := ℕ

/-- What the health checks say about a service. -/
inductive Health
  /-- The service declares no health check. -/
  | none
  /-- A health check exists but has not passed yet. -/
  | starting
  | healthy
  | unhealthy
  deriving DecidableEq, Repr

/-- What the registry keeps about one service. -/
structure StatusEntry where
  state : ServiceState
  pid : Option ℤ
  startedAt : Option Instant
  restarts : ℕ
  health : Health
  message : Option String
  deriving DecidableEq, Repr

/-- A point-in-time report about one service. -/
structure ServiceStatus where
  name : ServiceName
  state : ServiceState
  pid : Option ℤ
  uptime : Option Duration
  restarts : ℕ
  health : Health
  message : Option String
  deriving DecidableEq, Repr

/-! ### Entries -/

/-- `Path::file_name`: the last component of a path, when it is a plain name. -/
def fileName (path : String) : Option String :=
  match ((path.splitOn "/").filter fun part => part != "" && part != ".").getLast? with
  | some part => if part = ".." then none else some part
  | none => none

namespace StatusEntry

/-- The entry of a service nothing is known about yet. -/
def new (hasHealth : Bool) : StatusEntry where
  state := .pending
  pid := none
  startedAt := none
  restarts := 0
  health := if hasHealth then .starting else .none
  message := none

/-- Fold one event into the entry of its service. -/
def apply (entry : StatusEntry) (now : Instant) (kind : EventKind) : StatusEntry :=
  match kind with
  | .state state =>
    let entry := { entry with state := state }
    let entry := if state = .running then entry else { entry with pid := none, startedAt := none }
    -- Whatever ended the previous run is history, and the next one has yet to prove itself.
    if state = .starting then
      { entry with
        message := none
        health := if entry.health = .none then .none else .starting }
    else entry
  | .started pgid => { entry with pid := some pgid, startedAt := some now }
  | .backoff _ attempt => { entry with restarts := attempt }
  | .skipped dependency =>
    { entry with message := some s!"skipped: {dependency} never became available" }
  | .healthy => { entry with health := .healthy }
  | .unhealthy message =>
    { entry with health := .unhealthy, message := some s!"unhealthy: {message}" }
  | .healthProbeFailed message consecutive retries =>
    { entry with message := some s!"probe failed ({consecutive}/{retries}): {message}" }
  | .failed message => { entry with message := some message }
  | .finished summary => { entry with message := some summary }
  | .watchTriggered path changed =>
    let name := (fileName path).getD path
    { entry with message := some (
        if changed = 1 then s!"restarting: {name} changed"
        else s!"restarting: {name} and {changed - 1} more changed") }
  | .watchFailed message => { entry with message := some s!"watch: {message}" }
  | .watchTruncated limit =>
    { entry with
      message := some s!"watch: more than {limit} files; narrow `paths` or add `ignore` entries" }
  | .logLinesDropped count =>
    { entry with message := some s!"dropped {count} output line(s)" }
  | .log _ _ | .exited _ _ | .stopping _ => entry

/-- Fold a run of events of one service into its entry. -/
def applyAll (entry : StatusEntry) (events : List (Instant × EventKind)) : StatusEntry :=
  events.foldl (fun entry event => entry.apply event.1 event.2) entry

theorem applyAll_append (entry : StatusEntry) (events events' : List (Instant × EventKind)) :
    entry.applyAll (events ++ events') = (entry.applyAll events).applyAll events' :=
  List.foldl_append

end StatusEntry

/-! ### The registry -/

/-- Folds the runtime event stream into per-service status. -/
@[ext]
structure StatusRegistry where
  services : ExtTreeMap ServiceName StatusEntry
  order : List ServiceName
  deriving DecidableEq

namespace StatusRegistry

/-- Build a registry for the given services, in the order they will be reported. -/
def new (services : List (ServiceName × Bool)) : StatusRegistry where
  services := services.foldl (fun map service => map.insert service.1 (.new service.2)) ∅
  order := services.map Prod.fst

/-- Bring the registry in line with a reloaded configuration. Services that are still present keep
their entry. -/
def sync (registry : StatusRegistry) (services : List (ServiceName × Bool)) : StatusRegistry :=
  let order := services.map Prod.fst
  let known := services.foldl
    (fun map service => map.insertIfNew service.1 (.new service.2)) registry.services
  { services := known.filter fun name _ => name ∈ order, order := order }

/-- Fold one event into the registry. -/
def apply (registry : StatusRegistry) (now : Instant) (event : ServiceEvent) : StatusRegistry :=
  match registry.services[event.service]? with
  | none => registry
  | some entry =>
    { registry with
      services := registry.services.insert event.service (entry.apply now event.kind) }

/-- The current status of every service, in the order of the registry. -/
def snapshot (registry : StatusRegistry) (now : Instant) : List ServiceStatus :=
  registry.order.filterMap fun name =>
    registry.services[name]?.map fun entry =>
      { name := name
        state := entry.state
        pid := entry.pid
        uptime := entry.startedAt.map fun at' => now - at'
        restarts := entry.restarts
        health := entry.health
        message := entry.message }

/-- Fold a run of events into the registry, each with the time it is folded at. -/
def applyAll (registry : StatusRegistry) (events : List (Instant × ServiceEvent)) :
    StatusRegistry :=
  events.foldl (fun registry event => registry.apply event.1 event.2) registry

variable {registry : StatusRegistry}

/-! ### One entry -/

theorem getElem?_apply (registry : StatusRegistry) (now : Instant) (event : ServiceEvent)
    (name : ServiceName) :
    (registry.apply now event).services[name]? =
      if name = event.service then
        registry.services[name]?.map fun entry => entry.apply now event.kind
      else registry.services[name]? := by
  unfold apply
  cases hs : registry.services[event.service]? with
  | none =>
    split_ifs with he
    · rw [he, hs, Option.map_none]
    · rfl
  | some entry =>
    rw [TreeMap.getElem?_insert]
    split_ifs with he
    · rw [he, hs, Option.map_some]
    · rfl

@[simp] theorem order_apply (registry : StatusRegistry) (now : Instant) (event : ServiceEvent) :
    (registry.apply now event).order = registry.order := by
  unfold apply
  split <;> rfl

/-- The events of one service, with the times they are folded at. -/
def eventsOf (events : List (Instant × ServiceEvent)) (name : ServiceName) :
    List (Instant × EventKind) :=
  (events.filter fun event => event.2.service = name).map fun event => (event.1, event.2.kind)

theorem eventsOf_append (events events' : List (Instant × ServiceEvent)) (name : ServiceName) :
    eventsOf (events ++ events') name = eventsOf events name ++ eventsOf events' name := by
  rw [eventsOf, List.filter_append, List.map_append]
  rfl

theorem eventsOf_cons (event : Instant × ServiceEvent) (events : List (Instant × ServiceEvent))
    (name : ServiceName) :
    eventsOf (event :: events) name =
      if name = event.2.service then (event.1, event.2.kind) :: eventsOf events name
      else eventsOf events name := by
  simp only [eventsOf, List.filter_cons, eq_comm (a := name)]
  split_ifs <;> simp_all

/-- An entry sees the events of its own service only. -/
theorem getElem?_applyAll (events : List (Instant × ServiceEvent)) (name : ServiceName) :
    ∀ registry : StatusRegistry, (registry.applyAll events).services[name]? =
      registry.services[name]?.map fun entry => entry.applyAll (eventsOf events name) := by
  induction events with
  | nil =>
    intro registry
    simp [applyAll, eventsOf, StatusEntry.applyAll]
  | cons event events ih =>
    intro registry
    have hrest := ih (registry.apply event.1 event.2)
    rw [getElem?_apply] at hrest
    refine hrest.trans ?_
    rw [eventsOf_cons]
    split_ifs
    · rw [Option.map_map]
      rfl
    · rfl

@[simp] theorem order_applyAll (events : List (Instant × ServiceEvent)) :
    ∀ registry : StatusRegistry, (registry.applyAll events).order = registry.order := by
  induction events with
  | nil => exact fun _ => rfl
  | cons event events ih =>
    intro registry
    exact (ih _).trans (order_apply registry event.1 event.2)

theorem applyAll_append (registry : StatusRegistry)
    (events events' : List (Instant × ServiceEvent)) :
    registry.applyAll (events ++ events') = (registry.applyAll events).applyAll events' :=
  List.foldl_append

/-- The known entries stay, the missing ones are made. -/
theorem getElem?_foldl_insertIfNew (f : ServiceName → Bool) (names : List ServiceName)
    (name : ServiceName) : ∀ map : ExtTreeMap ServiceName StatusEntry,
      ((names.map fun name => (name, f name)).foldl
        (fun map service => map.insertIfNew service.1 (StatusEntry.new service.2)) map)[name]? =
      if name ∈ names then some (map[name]?.getD (StatusEntry.new (f name))) else map[name]? := by
  induction names with
  | nil => simp
  | cons head names ih =>
    intro map
    rw [List.map_cons, List.foldl_cons, ih, ExtTreeMap.getElem?_insertIfNew]
    simp only [compare_eq_iff_eq, ExtTreeMap.mem_iff_isSome_getElem?, List.mem_cons]
    by_cases he : head = name
    · subst he
      cases map[head]? <;> simp
    · simp [he, Ne.symm he]

/-- A sync keeps the entries it knows, and drops those of services it is not given. -/
theorem getElem?_sync (registry : StatusRegistry) (f : ServiceName → Bool)
    (names : List ServiceName) (name : ServiceName) :
    (registry.sync (names.map fun name => (name, f name))).services[name]? =
      if name ∈ names then some (registry.services[name]?.getD (StatusEntry.new (f name))) else none := by
  have horder : (names.map fun name => (name, f name)).map Prod.fst = names := by
    rw [List.map_map]
    exact List.map_id names
  simp only [sync, ExtTreeMap.getElem?_filter', getElem?_foldl_insertIfNew, horder]
  split_ifs with hmem
  · simp [hmem]
  · cases registry.services[name]? <;> simp [hmem]

theorem order_sync (registry : StatusRegistry) (f : ServiceName → Bool)
    (names : List ServiceName) :
    (registry.sync (names.map fun name => (name, f name))).order = names := by
  simp only [sync, List.map_map]
  exact List.map_id names

theorem getElem?_new (f : ServiceName → Bool) (names : List ServiceName) (name : ServiceName) :
    (new (names.map fun name => (name, f name))).services[name]? =
      if name ∈ names then some (StatusEntry.new (f name)) else none := by
  have hfold : ∀ (names : List ServiceName) (map : ExtTreeMap ServiceName StatusEntry),
      ((names.map fun name => (name, f name)).foldl
        (fun map service => map.insert service.1 (StatusEntry.new service.2)) map)[name]? =
      if name ∈ names then some (StatusEntry.new (f name)) else map[name]? := by
    intro names
    induction names with
    | nil => simp
    | cons head names ih =>
      intro map
      rw [List.map_cons, List.foldl_cons, ih, TreeMap.getElem?_insert]
      by_cases he : name = head
      · simp [he]
      · simp [he]
  rw [new, hfold names ∅, ExtTreeMap.getElem?_empty]

end StatusRegistry

end Servicrab
