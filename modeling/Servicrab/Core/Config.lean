import Mathlib.Data.String.Basic
import Mathlib.Order.Compare
import Std.Data.ExtTreeMap

/-!
# The validated configuration

The types the validation pipeline produces (`config.rs`). `Service` keeps every field of the
source, because its equality is what a hot reload goes by; `Config` keeps the two fields that the
supervisor and the planner read. A `BTreeMap` is an `ExtTreeMap`, iterated in the order of its
keys.

## Main definitions

* `ServiceName`, `Service`, `Config`.
* `Dependency.conditionFor`: the condition an edge waits for, resolved against its target.
* `ValidConfig`: a configuration with what the validation promises of it.
-/

open Std (ExtTreeMap)

namespace Servicrab

/-- A `std::time::Duration`, in nanoseconds. -/
abbrev Duration := ℕ

/-- A service name. Names are ordered as their bytes are, so a map over names is iterated in that
order. -/
structure ServiceName where
  raw : String
  deriving DecidableEq, Repr

theorem ServiceName.raw_injective : Function.Injective ServiceName.raw := fun ⟨_⟩ ⟨_⟩ h => by
  simpa using h

instance : LinearOrder ServiceName := LinearOrder.lift' ServiceName.raw ServiceName.raw_injective

instance : Std.LawfulEqOrd ServiceName := ⟨compare_eq_iff_eq.mp⟩

instance : Std.TransOrd ServiceName := inferInstance

instance : ToString ServiceName := ⟨ServiceName.raw⟩

/-! ### Policies -/

/-- Restart policy for a service. -/
inductive RestartPolicy
  | never
  | onFailure
  | always
  | unlessStopped
  deriving DecidableEq, Repr

/-- Signal sent to a service when requesting graceful shutdown. -/
inductive ShutdownSignal
  | term
  | int
  | quit
  | hup
  deriving DecidableEq, Repr

/-- What a dependent waits for before it starts. -/
inductive DependencyCondition
  | serviceStarted
  | serviceHealthy
  | serviceCompletedSuccessfully
  deriving DecidableEq, Repr

/-- One `depends_on` entry. The condition is left as declared: an unspecified one is resolved by
`conditionFor`, against the dependency as it is configured at the time. -/
structure Dependency where
  service : ServiceName
  condition : Option DependencyCondition
  deriving DecidableEq, Repr

/-! ### Health checks and watches -/

/-- How a service's health is probed. -/
inductive HealthProbe
  | command (executable : String) (args : List String)
  | http (url host : String) (port : ℕ) (path : String)
  | tcp (host : String) (port : ℕ)
  deriving DecidableEq, Repr

/-- What the supervisor does when a service is declared unhealthy. -/
inductive UnhealthyAction
  | restart
  | ignore
  deriving DecidableEq, Repr

/-- Health-check configuration for a service. -/
structure HealthCheck where
  probe : HealthProbe
  interval : Duration
  timeout : Duration
  retries : ℕ
  startPeriod : Duration
  onUnhealthy : UnhealthyAction
  deriving DecidableEq, Repr

/-- File-watching settings for a service. -/
structure WatchSettings where
  paths : List String
  ignore : List String
  interval : Duration
  debounce : Duration
  deriving DecidableEq, Repr

/-! ### Services -/

/-- Configuration of a single managed service. -/
structure Service where
  name : ServiceName
  executable : String
  args : List String
  cwd : String
  env : ExtTreeMap String String
  envFiles : List String
  dependsOn : List Dependency
  profiles : List String
  autostart : Bool
  restart : RestartPolicy
  restartDelay : Duration
  restartMaxDelay : Duration
  maxRestarts : ℕ
  stableAfter : Duration
  shutdownSignal : ShutdownSignal
  shutdownTimeout : Duration
  health : Option HealthCheck
  logToFile : Bool
  watch : Option WatchSettings
  deriving DecidableEq

/-- The condition to actually wait for, given the dependency the entry points at: an unspecified
one means healthy if a health check was promised, and up otherwise. -/
def Dependency.conditionFor (entry : Dependency) (dependency : Service) : DependencyCondition :=
  entry.condition.getD
    (if dependency.health.isSome then .serviceHealthy else .serviceStarted)

/-- A configuration: its services keyed by name, and the order they are started in. -/
structure Config where
  services : ExtTreeMap ServiceName Service
  startOrder : List ServiceName
  deriving DecidableEq

/-- What the validation promises of a configuration, as far as the supervisor relies on it. -/
structure Config.Valid (config : Config) : Prop where
  /-- Every service is filed under its own name. -/
  keyed : ∀ entry ∈ config.services.toList, entry.2.name = entry.1
  /-- No service is started twice. -/
  nodup_startOrder : config.startOrder.Nodup
  /-- The start order names declared services only. -/
  declared : ∀ name ∈ config.startOrder, name ∈ config.services

/-- A configuration that has been loaded: the validation accepted it. -/
abbrev ValidConfig := { config : Config // config.Valid }

theorem Config.Valid.name_eq {config : Config} (h : config.Valid) {name : ServiceName}
    {service : Service} (hs : config.services[name]? = some service) : service.name = name :=
  h.keyed (name, service) (ExtTreeMap.mem_toList_iff_getElem?_eq_some.mpr hs)

/-- Whether the configuration declares a health check for a service, as `sync_registry` asks. -/
def Config.hasHealth (config : Config) (name : ServiceName) : Bool :=
  match config.services[name]? with
  | some service => service.health.isSome
  | none => false

end Servicrab
