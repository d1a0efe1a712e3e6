import Servicrab.Config.EnvFile
import Servicrab.Config.Raw
import Servicrab.Core.Name

/-!
# The fields of a configuration

The checks of single fields (`validation.rs`): names, environments, paths and durations. A duration
that fails its check becomes the default, and so does one that is not declared.

## Main definitions

* `validateProjectName`, `validateServiceName`, `validateProfiles`.
* `loadEnvFiles`, `resolveSourceDir`, `resolveCwd`.
* `parseDurationField`.

## Main results

* `parseDurationField_mem`: a duration is in its range, whether it was declared or not.
-/

open Std (ExtTreeMap)

namespace Servicrab

open Checked (report warn reject skip)

/-! ### Names -/

/-- A validated project name. -/
structure ProjectName where
  raw : String
  deriving DecidableEq, Repr

/-- Validate and wrap a project name. -/
def validateProjectName (name : String) : Except ConfigError ProjectName :=
  match validateName name 64 with
  | .ok () => .ok ⟨name⟩
  | .error reason => .error (.invalidProjectName name reason)

/-- Validate and wrap a service name. -/
def validateServiceName (name : String) : Except ConfigError ServiceName :=
  match validateName name 48 with
  | .ok () => .ok ⟨name⟩
  | .error reason => .error (.invalidServiceName name reason)

/-- Validate the profiles of a service, without those that are unusable. -/
def validateProfiles (raw : List String) (service : String) : Validation (List String) :=
  raw.foldlM
    (fun profiles name => do
      match validateName name 48 with
      | .error reason =>
        report (.invalidProfileName service name reason)
        return profiles
      | .ok () =>
        if name ∈ profiles then
          report (.duplicateProfile service name)
          return profiles
        else return profiles ++ [name])
    []

/-! ### Environments -/

def isValidEnvKey (key : String) : Bool :=
  key.toList ≠ [] && '=' ∉ key.toList && '\x00' ∉ key.toList

/-- Validate environment variables, without those that are unusable. -/
def validateEnv (invalidKey nulValue : String → ConfigError) (env : ExtTreeMap String String) :
    Validation (ExtTreeMap String String) :=
  env.toList.foldlM
    (fun out entry => do
      if !isValidEnvKey entry.1 then
        report (invalidKey entry.1)
        return out
      else if '\x00' ∈ entry.2.toList then
        report (nulValue entry.1)
        return out
      else return out.insert entry.1 entry.2)
    ∅

def validateProjectEnv : ExtTreeMap String String → Validation (ExtTreeMap String String) :=
  validateEnv .invalidProjectEnvKey .nulInProjectEnvValue

def validateServiceEnv (env : ExtTreeMap String String) (service : String) :
    Validation (ExtTreeMap String String) :=
  validateEnv (.invalidEnvKey service) (.nulInEnvValue service) env

/-- `BTreeMap::extend`. -/
def extend (env layer : ExtTreeMap String String) : ExtTreeMap String String :=
  layer.toList.foldl (fun env entry => env.insert entry.1 entry.2) env

/-- The variables of one environment file, into those of the files before it. -/
def loadEnvFile (host : Host) (scope path : String) (merged : ExtTreeMap String String) :
    Validation (ExtTreeMap String String) :=
  match EnvFile.load host path with
  | .ok vars =>
    vars.toList.foldlM
      (fun merged entry => do
        if !isValidEnvKey entry.1 ∨ '\x00' ∈ entry.2.toList then
          report (.invalidEnvFile scope path s!"invalid entry for key {Debug.str entry.1}")
          return merged
        else return merged.insert entry.1 entry.2)
      merged
  | .error e => do
    report (.invalidEnvFile scope path (toString e))
    return merged

/-- Resolve and read the declared environment files: their paths, and the variables of all of them,
where a later file overrides an earlier one. -/
def loadEnvFiles (host : Host) (declared : Option RawEnvFile) (sourceDir scope : String) :
    Validation (List String × ExtTreeMap String String) :=
  match declared with
  | none => pure ([], ∅)
  | some declared =>
    declared.paths.foldlM
      (fun loaded candidate => do
        let path := Path.join sourceDir candidate
        let merged ← loadEnvFile host scope path loaded.2
        return (loaded.1 ++ [path], merged))
      ([], ∅)

/-! ### Paths -/

/-- The directory that the relative paths of a file are resolved against. -/
def resolveSourceDir (host : Host) (sourcePath : String) : String :=
  let parent := match Path.parent sourcePath with
    | some parent => if parent = "" then "." else parent
    | none => "."
  match host.canonicalize parent with
  | .ok path => path
  | .error _ => parent

def resolveCwd (host : Host) (rawCwd : Option String) (sourceDir service : String) :
    Validation String :=
  let candidate := match rawCwd with
    | none => sourceDir
    | some cwd => Path.join sourceDir cwd
  match host.canonicalize candidate with
  | .ok path =>
    if host.isDir path then pure path
    else do
      report (.invalidCwd service path)
      return sourceDir
  | .error _ => do
    report (.invalidCwd service candidate)
    return sourceDir

/-- Minimal `which`, by the variable `PATH`. -/
def whichInPath (host : Host) (name : String) : Option String :=
  match host.vars["PATH"]? with
  | none => none
  | some path =>
    let candidates := (path.toList.splitOn ':').map fun dir => Path.join (String.ofList dir) name
    candidates.find? host.isFile

def checkExecutableInPath (host : Host) (executable service : String) : Validation PUnit :=
  if '/' ∈ executable.toList then pure ⟨⟩
  else if (whichInPath host executable).isNone then warn (.executableNotInPath service executable)
  else pure ⟨⟩

/-! ### Durations -/

def Duration.ofMillis (n : ℕ) : Duration := n * 10 ^ 6

def Duration.ofSecs (n : ℕ) : Duration := n * 10 ^ 9

def dur100ms : Duration := .ofMillis 100

def dur1s : Duration := .ofSecs 1

def dur1h : Duration := .ofSecs 3600

def dur24h : Duration := .ofSecs 86400

/-- A duration in its range, which is the default if none is declared, or with an error. -/
def parseDurationField (host : Host) (raw : Option String) (field : String) (default : Duration)
    (service : String) (min max : Duration) : Validation Duration :=
  match raw with
  | none => pure default
  | some s =>
    match host.parseDuration s with
    | .error reason => do
      report (.invalidDuration service field s reason)
      return default
    | .ok dur =>
      if dur < min then do
        report (.durationOutOfRange service field
          s!"must be at least {Duration.debug min}, got {Duration.debug dur}")
        return default
      else if max < dur then do
        report (.durationOutOfRange service field
          s!"must be at most {Duration.debug max}, got {Duration.debug dur}")
        return default
      else pure dur

/-- A duration is in its range, if the default is. -/
theorem parseDurationField_mem {host : Host} {raw : Option String} {field service : String}
    {default min max : Duration} (hdefault : default ∈ Set.Icc min max) :
    (parseDurationField host raw field default service min max).value ∈ Set.Icc min max := by
  unfold parseDurationField
  split
  · exact hdefault
  · split
    · exact hdefault
    · split_ifs with hmin hmax
      · exact hdefault
      · exact hdefault
      · exact ⟨not_lt.mp hmin, not_lt.mp hmax⟩

end Servicrab
