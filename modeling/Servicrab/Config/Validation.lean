import Servicrab.Config.Health
import Servicrab.Config.Settings
import Servicrab.Core.Graph

/-!
# The validation of a configuration

`validate_raw` (`validation.rs`): variables are substituted first, and what is wrong with them is
reported on its own. The project and every service are checked then, where a service whose name or
command is unusable is left out, and the dependencies are checked as they are declared, so that those
of a service that was left out are seen as well. All errors are collected before the start order is
made.

## Main definitions

* `LoadedConfig`: a configuration with all that the source keeps of it.
* `validateService`, `validateServices`, `checkDependencies`.
* `validateRaw`.

## Main results

* `isSome_name_of_clean`: a project has a name when no error was found.
-/

open Std (ExtTreeMap)

namespace Servicrab

open Checked (report reject skip warnIf)

/-- Validated project metadata. -/
structure Project where
  name : ProjectName
  env : ExtTreeMap String String
  envFiles : List String
  logs : Option LogSettings
  deriving DecidableEq

/-- A configuration with all that the source keeps of it. -/
structure LoadedConfig extends Config where
  sourcePath : String
  sourceDir : String
  project : Project

/-! ### Services -/

/-- What a service takes over from its project. -/
structure ProjectScope where
  sourceDir : String
  /-- The variables of the environment files. -/
  fileEnv : ExtTreeMap String String
  /-- The variables that are declared. -/
  env : ExtTreeMap String String
  /-- Whether the project declares a log directory. -/
  hasLogs : Bool

/-- The `depends_on` entries of a service, whichever form it used. -/
def dependencyEntries (service : RawService) : List (String × Option String) :=
  (service.dependsOn.map RawDependsOn.entries).getD []

/-- Parse a `depends_on` condition token. -/
def parseDependencyCondition (value : String) : Option DependencyCondition :=
  match value with
  | "service_started" => some .serviceStarted
  | "service_healthy" => some .serviceHealthy
  | "service_completed_successfully" => some .serviceCompletedSuccessfully
  | _ => none

/-- The restart policy that is declared. -/
def RawRestartPolicy.toPolicy : RawRestartPolicy → RestartPolicy
  | never => .never
  | onFailure => .onFailure
  | always => .always
  | unlessStopped => .unlessStopped

/-- A dependency as it is declared. A condition that cannot be parsed is dropped: the check of the
dependencies reports it. -/
def toDependency (entry : String × Option String) : Dependency where
  service := ⟨entry.1⟩
  condition := entry.2.bind parseDependencyCondition

/-- Warn of settings that have no effect on a service that is never restarted. -/
def warnNeverRestarted (raw : RawService) (restart : RestartPolicy) (name : String) :
    Validation PUnit :=
  if restart = .never then do
    warnIf (raw.restartDelay.isSome) (.restartSettingsIgnored name "restart_delay")
    warnIf (raw.restartMaxDelay.isSome) (.restartSettingsIgnored name "restart_max_delay")
    warnIf (raw.maxRestarts.isSome) (.restartSettingsIgnored name "max_restarts")
    warnIf (raw.stableAfter.isSome) (.restartSettingsIgnored name "stable_after")
    warnIf (raw.health.any (·.onUnhealthy = some "restart")) (.unhealthyRestartWithoutPolicy name)
  else pure ⟨⟩

/-- Check a table, if it is there. -/
def validateTable {α β : Type} (raw : Option α) (validate : α → Validation (Option β)) :
    Validation (Option β) :=
  match raw with
  | some table => validate table
  | none => pure none

/-- The settings of a service whose name and command are usable. -/
def buildService (host : Host) (project : ProjectScope) (raw : RawService) (name : ServiceName)
    (executable : String) (args : List String) : Validation Service := do
  let dir := (raw.origin.map (resolveSourceDir host)).getD project.sourceDir
  let cwd ← resolveCwd host raw.cwd dir name.raw
  let env ← validateServiceEnv raw.env name.raw
  let files ← loadEnvFiles host raw.envFile dir s!"service {Debug.str name.raw}"
  let restart := raw.restart.toPolicy
  let restartDelay ← parseDurationField host raw.restartDelay "restart_delay" (.ofSecs 1) name.raw
    dur100ms dur1h
  let restartMaxDelay ← parseDurationField host raw.restartMaxDelay "restart_max_delay" (.ofSecs 30)
    name.raw dur100ms dur24h
  let maxRestarts := raw.maxRestarts.getD 10
  let stableAfter ← parseDurationField host raw.stableAfter "stable_after" (.ofSecs 60) name.raw
    dur1s dur24h
  let shutdownSignal ← parseShutdownSignal raw.shutdownSignal name.raw
  let shutdownTimeout ← parseDurationField host raw.shutdownTimeout "shutdown_timeout" (.ofSecs 10)
    name.raw dur100ms dur1h
  let health ← validateTable raw.health fun table => validateHealth host table name.raw
  let logToFile := raw.logs.all RawServiceLogs.enabled
  let watch ← validateTable raw.watch fun table => validateWatch host table cwd name.raw
  reject (restartMaxDelay < restartDelay)
    (.restartMaxDelayTooSmall name.raw restartDelay restartMaxDelay)
  warnNeverRestarted raw restart name.raw
  warnIf (!project.hasLogs ∧ raw.logs.any RawServiceLogs.enabled) (.logsWithoutProjectLogs name.raw)
  checkExecutableInPath host executable name.raw
  -- Later layers override earlier ones.
  let env := extend (extend (extend (extend host.vars project.fileEnv) project.env) files.2) env
  let dependsOn := (dependencyEntries raw).map toDependency
  let profiles ← validateProfiles raw.profiles name.raw
  return {
    name, executable, args, cwd, env, envFiles := files.1, dependsOn, profiles
    autostart := raw.autostart, restart, restartDelay, restartMaxDelay, maxRestarts, stableAfter
    shutdownSignal, shutdownTimeout, health, logToFile, watch }

/-- Check a service, which is left out when its name or its command is unusable. -/
def validateService (host : Host) (project : ProjectScope) (rawName : String) (raw : RawService) :
    Validation (Option Service) :=
  match validateServiceName rawName with
  | .error e => skip e
  | .ok name =>
    match raw.command with
    | [] => skip (.emptyCommand rawName)
    | executable :: args =>
      if executable = "" ∨ '\x00' ∈ executable.toList then skip (.invalidExecutable rawName)
      else if args.any ('\x00' ∈ ·.toList) then skip (.nulInCommandArg rawName)
      else some <$> buildService host project raw name executable args

/-- Check all services, and file those that are usable under their names. -/
def validateServices (host : Host) (project : ProjectScope) (raw : ExtTreeMap String RawService) :
    Validation (ExtTreeMap ServiceName Service) :=
  raw.toList.foldlM
    (fun services entry => do
      match ← validateService host project entry.1 entry.2 with
      | some service => return services.insert service.name service
      | none => return services)
    ∅

/-! ### Dependencies -/

/-- Check the condition on a dependency: one that it can never satisfy is rejected. -/
def checkCondition (name dep : String) (target : RawService) (condition : Option String) :
    Validation PUnit :=
  match condition with
  | none => pure ⟨⟩
  | some condition =>
    match parseDependencyCondition condition with
    | none => report (.invalidDependencyCondition name dep condition)
    | some .serviceHealthy => reject (target.health = none) (.dependencyNotHealthChecked name dep)
    | some .serviceCompletedSuccessfully =>
      reject (target.restart = .always ∨ target.restart = .unlessStopped)
        (.dependencyNeverCompletes name dep)
    | some .serviceStarted => pure ⟨⟩

/-- Check the dependencies of a service from one on, with those that were seen before it. -/
def checkEntries (services : ExtTreeMap String RawService) (name : String) :
    List String → List (String × Option String) → Validation PUnit
  | _, [] => pure ⟨⟩
  | seen, (dep, condition) :: entries =>
    if dep = name then do
      report (.selfDependency name)
      checkEntries services name seen entries
    else
      match services[dep]? with
      | none => do
        report (.unknownDependency name dep)
        checkEntries services name seen entries
      | some target =>
        if dep ∈ seen then do
          report (.duplicateDependency name dep)
          checkEntries services name seen entries
        else do
          checkCondition name dep target condition
          checkEntries services name (dep :: seen) entries

/-- Check the dependencies of all services as they are declared. -/
def checkDependencies (services : ExtTreeMap String RawService) : Validation PUnit :=
  forM services.toList fun entry =>
    checkEntries services entry.1 [] (dependencyEntries entry.2)

/-! ### The configuration -/

/-- What is known of a configuration when everything but its start order was checked. -/
structure CheckedConfig where
  sourceDir : String
  name : Option ProjectName
  env : ExtTreeMap String String
  envFiles : List String
  logs : Option LogSettings
  services : ExtTreeMap ServiceName Service

/-- Check the name of the project. -/
def checkProjectName (name : String) : Validation (Option ProjectName) :=
  match validateProjectName name with
  | .ok name => pure (some name)
  | .error e => skip e

/-- Check everything but the start order. -/
def checkConfig (host : Host) (raw : RawConfig) (sourcePath : String) :
    Validation CheckedConfig := do
  reject (raw.version ≠ 1) (.unsupportedVersion raw.version)
  let sourceDir := resolveSourceDir host sourcePath
  let name ← checkProjectName raw.project.name
  let env ← validateProjectEnv raw.project.env
  let files ← loadEnvFiles host raw.project.envFile sourceDir "project"
  let logs ← validateTable raw.project.logs fun table => validateLogs host table sourceDir
  reject (raw.services.isEmpty) .noServices
  let services ← validateServices host
    { sourceDir, fileEnv := files.2, env, hasLogs := raw.project.logs.isSome } raw.services
  checkDependencies raw.services
  return { sourceDir, name, env, envFiles := files.1, logs, services }

/-- A project has a name when no error was found. -/
theorem isSome_name_of_clean {host : Host} {raw : RawConfig} {sourcePath : String}
    (h : (checkConfig host raw sourcePath).Clean) :
    (checkConfig host raw sourcePath).value.name.isSome := by
  have hname : (checkProjectName raw.project.name).Clean :=
    (Checked.clean_bind.mp (Checked.clean_bind.mp h).2).1
  show (checkProjectName raw.project.name).value.isSome
  unfold checkProjectName at hname ⊢
  split at hname
  · rfl
  · exact absurd hname (Checked.not_clean_skip _)

/-- Convert a configuration as it is written into a validated one, with all errors. -/
def validateRaw (host : Host) (raw : RawConfig) (sourcePath : String) :
    Except (List ConfigError) (LoadedConfig × List ConfigWarning) :=
  let expanded := expandRaw host.vars raw
  if expanded.errors ≠ [] then .error expanded.errors
  else
    let checked := checkConfig host expanded.value sourcePath
    if h : checked.Clean then
      let unsorted : Config := { services := checked.value.services, startOrder := [] }
      match topologicalSort unsorted.dependencyGraph with
      | .error e => .error [e]
      | .ok startOrder =>
        let config : LoadedConfig := {
          services := checked.value.services
          startOrder
          sourcePath
          sourceDir := checked.value.sourceDir
          project := {
            name := checked.value.name.get (isSome_name_of_clean h)
            env := checked.value.env
            envFiles := checked.value.envFiles
            logs := checked.value.logs } }
        .ok (config, checked.warnings)
    else .error checked.errors

end Servicrab
