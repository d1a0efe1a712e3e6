import Servicrab.Config.Host
import Servicrab.Library.Checked

/-!
# The configuration as it is written

What `servicrab.toml` is read into (`raw.rs`), and the substitution of variables in its values
(`expand_raw` in `subst.rs`). The project name, what a service depends on and its profiles are not
expanded, and neither are keys. The list of includes is left out: loading has merged it.

## Main definitions

* `RawConfig`, `RawService`, `RawDependsOn.entries`.
* `Validation`: a check of the validation.
* `expandRaw`.
-/

open Std (ExtTreeMap)

namespace Servicrab

/-! ### The data -/

/-- One path or a list of paths. -/
inductive RawEnvFile
  | one (path : String)
  | many (paths : List String)

/-- The declared paths, in declaration order. -/
def RawEnvFile.paths : RawEnvFile → List String
  | one path => [path]
  | many paths => paths

/-- File-logging settings. -/
structure RawLogs where
  dir : Option String
  maxSize : Option String
  maxFiles : Option ℕ

/-- Project metadata. -/
structure RawProject where
  name : String
  env : ExtTreeMap String String
  envFile : Option RawEnvFile
  logs : Option RawLogs

/-- Per-service logging settings. -/
structure RawServiceLogs where
  enabled : Bool

/-- An entry of the table form of `depends_on`. -/
structure RawDependency where
  condition : Option String

/-- The two accepted spellings of `depends_on`. -/
inductive RawDependsOn
  | names (services : List String)
  | detailed (table : ExtTreeMap String RawDependency)

/-- The declared dependencies with their conditions. -/
def RawDependsOn.entries : RawDependsOn → List (String × Option String)
  | names services => services.map fun name => (name, none)
  | detailed table => table.toList.map fun entry => (entry.1, entry.2.condition)

inductive RawRestartPolicy
  | never
  | onFailure
  | always
  | unlessStopped
  deriving DecidableEq

/-- Health-check configuration. -/
structure RawHealthCheck where
  command : Option (List String)
  http : Option String
  tcp : Option String
  interval : Option String
  timeout : Option String
  retries : Option ℕ
  startPeriod : Option String
  onUnhealthy : Option String

/-- File-watching settings. -/
structure RawWatch where
  paths : List String
  ignore : List String
  interval : Option String
  debounce : Option String

/-- A service as it is declared. -/
structure RawService where
  /-- The file that declares the service, when loading has filled it in. -/
  origin : Option String
  command : List String
  cwd : Option String
  env : ExtTreeMap String String
  envFile : Option RawEnvFile
  dependsOn : Option RawDependsOn
  profiles : List String
  autostart : Bool
  restart : RawRestartPolicy
  restartDelay : Option String
  restartMaxDelay : Option String
  maxRestarts : Option ℕ
  stableAfter : Option String
  shutdownSignal : Option String
  shutdownTimeout : Option String
  health : Option RawHealthCheck
  logs : Option RawServiceLogs
  watch : Option RawWatch

/-- A configuration as it is written. -/
structure RawConfig where
  version : ℕ
  project : RawProject
  services : ExtTreeMap String RawService

/-! ### Substitution -/

/-- A check of the validation, which collects all errors before it returns. -/
abbrev Validation := Checked ConfigError ConfigWarning

theorem isSome_expand (vars : Vars) (input : List Char) : (expand vars input).isSome :=
  Option.isSome_iff_exists.mpr (exists_expandFrom (Nat.lt_succ_self input.length))

/-- Expand every reference in one value. -/
def expandText (vars : Vars) (value : String) : Except SubstError String :=
  ((expand vars value.toList).get (isSome_expand vars value.toList)).map String.ofList

namespace Expander

variable (vars : Vars) (scope field : String)

def toConfigError : SubstError → ConfigError
  | .undefined name => .undefinedVariable scope field name
  | .malformed reason => .invalidSubstitution scope field reason

/-- Expand a value, which is left as it is when that fails. -/
def one (value : String) : Validation String :=
  match expandText vars value with
  | .ok expanded => pure expanded
  | .error err => do
    Checked.report (toConfigError scope field err)
    return value

def maybe : Option String → Validation (Option String)
  | some value => some <$> one vars scope field value
  | none => pure none

def list (values : List String) : Validation (List String) :=
  values.zipIdx.mapM fun entry => one vars scope s!"{field}[{entry.2}]" entry.1

def mapValues (map : ExtTreeMap String String) : Validation (ExtTreeMap String String) := do
  let entries ← map.toList.mapM fun entry => do
    return (entry.1, ← one vars scope s!"{field}.{entry.1}" entry.2)
  return .ofList entries

def envFile : Option RawEnvFile → Validation (Option RawEnvFile)
  | some (.one path) => (some ∘ .one) <$> one vars scope "env_file" path
  | some (.many paths) => (some ∘ .many) <$> list vars scope "env_file" paths
  | none => pure none

def logs (logs : RawLogs) : Validation RawLogs := do
  let dir ← maybe vars "project.logs" "dir" logs.dir
  let maxSize ← maybe vars "project.logs" "max_size" logs.maxSize
  return { logs with dir, maxSize }

def watch (watch : RawWatch) : Validation RawWatch := do
  let paths ← list vars scope "watch.paths" watch.paths
  let ignore ← list vars scope "watch.ignore" watch.ignore
  let interval ← maybe vars scope "watch.interval" watch.interval
  let debounce ← maybe vars scope "watch.debounce" watch.debounce
  return { paths, ignore, interval, debounce }

def health (health : RawHealthCheck) : Validation RawHealthCheck := do
  let command ← health.command.mapM (list vars scope "health.command")
  let http ← maybe vars scope "health.http" health.http
  let tcp ← maybe vars scope "health.tcp" health.tcp
  let interval ← maybe vars scope "health.interval" health.interval
  let timeout ← maybe vars scope "health.timeout" health.timeout
  let startPeriod ← maybe vars scope "health.start_period" health.startPeriod
  let onUnhealthy ← maybe vars scope "health.on_unhealthy" health.onUnhealthy
  return { health with command, http, tcp, interval, timeout, startPeriod, onUnhealthy }

def service (service : RawService) : Validation RawService := do
  let command ← list vars scope "command" service.command
  let cwd ← maybe vars scope "cwd" service.cwd
  let env ← mapValues vars scope "env" service.env
  let envFile ← envFile vars scope service.envFile
  let restartDelay ← maybe vars scope "restart_delay" service.restartDelay
  let restartMaxDelay ← maybe vars scope "restart_max_delay" service.restartMaxDelay
  let stableAfter ← maybe vars scope "stable_after" service.stableAfter
  let shutdownSignal ← maybe vars scope "shutdown_signal" service.shutdownSignal
  let shutdownTimeout ← maybe vars scope "shutdown_timeout" service.shutdownTimeout
  let health ← service.health.mapM (health vars scope)
  let watch ← service.watch.mapM (watch vars scope)
  return { service with
    command, cwd, env, envFile, restartDelay, restartMaxDelay, stableAfter, shutdownSignal
    shutdownTimeout, health, watch }

end Expander

/-- Expand every value of a configuration. -/
def expandRaw (vars : Vars) (raw : RawConfig) : Validation RawConfig := do
  let env ← Expander.mapValues vars "project" "env" raw.project.env
  let envFile ← Expander.envFile vars "project" raw.project.envFile
  let logs ← raw.project.logs.mapM (Expander.logs vars)
  let services ← raw.services.toList.mapM fun entry => do
    return (entry.1, ← Expander.service vars s!"service {Debug.str entry.1}" entry.2)
  return { raw with
    project := { raw.project with env, envFile, logs }
    services := .ofList services }

end Servicrab
