import Servicrab.Core.Lifecycle
import Servicrab.Library.Debug

/-!
# Errors

The errors raised while a configuration is validated, and while services are planned and supervised
(`error.rs`), with their texts: the text of a fatal error is what the `Failed` event of a service
carries. A string in `{:?}` is rendered by `Debug.str`.

## Main definitions

* `RuntimeError`, `ConfigError`, `ConfigWarning`.
-/

namespace Servicrab

/-- The kinds of I/O error the runner tells apart. -/
inductive IoErrorKind
  | notFound
  | permissionDenied
  | other
  deriving DecidableEq, Repr

/-- An I/O error: its kind and how it reads. -/
structure IoError where
  kind : IoErrorKind
  text : String
  deriving DecidableEq, Repr

/-- The digits after the point, without trailing zeros; nothing for a whole number. -/
private def fractionText (fraction width : ℕ) : String :=
  if fraction = 0 then ""
  else
    let digits := (Nat.toDigits 10 fraction).leftpad width '0'
    "." ++ String.ofList (digits.reverse.dropWhile (· == '0')).reverse

/-- How a duration reads in `{:?}`: in the largest unit that leaves a whole part. -/
def Duration.debug (d : Duration) : String :=
  if 10 ^ 9 ≤ d then s!"{d / 10 ^ 9}{fractionText (d % 10 ^ 9) 9}s"
  else if 10 ^ 6 ≤ d then s!"{d / 10 ^ 6}{fractionText (d % 10 ^ 6) 6}ms"
  else if 10 ^ 3 ≤ d then s!"{d / 10 ^ 3}{fractionText (d % 10 ^ 3) 3}µs"
  else s!"{d}ns"

/-- An error raised while planning or supervising services. -/
inductive RuntimeError
  | unknownService (service known : String)
  | unknownProfile (profile known : String)
  | nothingToStart (reason : String)
  | spawnFailed (service executable : String) (source : IoError)
  | signalDeliveryFailed (service signal : String) (pgid : ℤ) (source : IoError)
  | waitFailed (service : String) (source : IoError)
  | forceKillFailed (service : String) (pgid : ℤ) (timeout : Duration) (source : IoError)
  | restartLimitExhausted (service : String) (attempts : ℕ)
  | invalidTransition (service : String) (source : InvalidTransition)
  deriving DecidableEq, Repr

instance : ToString RuntimeError where
  toString
    | .unknownService service known =>
      s!"unknown service {Debug.str service}; known services: {known}"
    | .unknownProfile profile known =>
      s!"no service is in profile {Debug.str profile}; profiles in use: {known}"
    | .nothingToStart reason => s!"no services to start: {reason}"
    | .spawnFailed service executable source =>
      s!"service {Debug.str service}: failed to spawn {Debug.str executable}: {source.text}"
    | .signalDeliveryFailed service signal pgid source =>
      s!"service {Debug.str service}: failed to send {signal} to process group {pgid}: {source.text}"
    | .waitFailed service source =>
      s!"service {Debug.str service}: failed to wait for child process: {source.text}"
    | .forceKillFailed service pgid timeout source =>
      s!"service {Debug.str service}: failed to force-kill process group {pgid} after " ++
        s!"{Duration.debug timeout}: {source.text}"
    | .restartLimitExhausted service attempts =>
      s!"service {Debug.str service}: giving up after {attempts} restart attempt(s)"
    | .invalidTransition service source => s!"service {Debug.str service}: {source}"

/-- Whether a spawn error is worth retrying: a missing executable or a permission problem will
not fix itself. -/
def IoError.spawnErrorIsRetryable (e : IoError) : Bool :=
  match e.kind with
  | .notFound | .permissionDenied => false
  | .other => true

/-! ### The validation -/

/-- An error of the validation. -/
inductive ConfigError
  | unsupportedVersion (version : ℕ)
  | invalidProjectName (name reason : String)
  | invalidServiceName (name reason : String)
  | invalidProfileName (service profile reason : String)
  | duplicateProfile (service profile : String)
  | noServices
  | emptyCommand (service : String)
  | invalidExecutable (service : String)
  | nulInCommandArg (service : String)
  | invalidCwd (service cwd : String)
  | invalidEnvKey (service key : String)
  | invalidProjectEnvKey (key : String)
  | nulInEnvValue (service key : String)
  | nulInProjectEnvValue (key : String)
  | unknownDependency (service dep : String)
  | selfDependency (service : String)
  | duplicateDependency (service dep : String)
  | dependencyCycle (cycle : String)
  | invalidDependencyCondition (service dep value : String)
  | dependencyNotHealthChecked (service dep : String)
  | dependencyNeverCompletes (service dep : String)
  | invalidDuration (service field value reason : String)
  | durationOutOfRange (service field reason : String)
  | restartMaxDelayTooSmall (service : String) (delay maxDelay : Duration)
  | invalidShutdownSignal (service value : String)
  | missingHealthProbe (service : String)
  | conflictingHealthProbes (service probes : String)
  | invalidHealthProbe (service field value reason : String)
  | invalidHealthRetries (service : String)
  | invalidSize (field value reason : String)
  | invalidMaxFiles (value : ℕ)
  | invalidLogDir (dir reason : String)
  | invalidUnhealthyAction (service value : String)
  | invalidEnvFile (scope path reason : String)
  | undefinedVariable (scope field name : String)
  | invalidSubstitution (scope field reason : String)
  | invalidWatch (service reason : String)
  deriving DecidableEq, Repr

/-- What is wrong with an environment key. -/
private def keyRules : String :=
  "(must be non-empty and must not contain '=' or NUL)"

instance : ToString ConfigError where
  toString
    | .unsupportedVersion version =>
      s!"unsupported schema version {version}; only version 1 is supported"
    | .invalidProjectName name reason => s!"invalid project name {Debug.str name}: {reason}"
    | .invalidServiceName name reason => s!"invalid service name {Debug.str name}: {reason}"
    | .invalidProfileName service profile reason =>
      s!"service {Debug.str service}: invalid profile name {Debug.str profile}: {reason}"
    | .duplicateProfile service profile =>
      s!"service {Debug.str service}: duplicate profile {Debug.str profile}"
    | .noServices => "no services defined; at least one [services.*] entry is required"
    | .emptyCommand service => s!"service {Debug.str service}: command must not be empty"
    | .invalidExecutable service =>
      s!"service {Debug.str service}: executable must not be empty or contain a NUL byte"
    | .nulInCommandArg service =>
      s!"service {Debug.str service}: command argument contains a NUL byte"
    | .invalidCwd service cwd =>
      s!"service {Debug.str service}: cwd {Debug.str cwd} does not exist or is not a directory"
    | .invalidEnvKey service key =>
      s!"service {Debug.str service}: environment key {Debug.str key} is invalid {keyRules}"
    | .invalidProjectEnvKey key => s!"project: environment key {Debug.str key} is invalid {keyRules}"
    | .nulInEnvValue service key =>
      s!"service {Debug.str service}: environment value for key {Debug.str key} contains a NUL byte"
    | .nulInProjectEnvValue key =>
      s!"project: environment value for key {Debug.str key} contains a NUL byte"
    | .unknownDependency service dep =>
      s!"service {Debug.str service}: depends on unknown service {Debug.str dep}"
    | .selfDependency service => s!"service {Debug.str service}: depends on itself"
    | .duplicateDependency service dep =>
      s!"service {Debug.str service}: duplicate dependency {Debug.str dep}"
    | .dependencyCycle cycle => s!"dependency cycle detected: {cycle}"
    | .invalidDependencyCondition service dep value =>
      s!"service {Debug.str service}: unknown condition {Debug.str value} for dependency {Debug.str dep}; " ++
        "expected one of: service_started, service_healthy, service_completed_successfully"
    | .dependencyNotHealthChecked service dep =>
      s!"service {Debug.str service}: dependency {Debug.str dep} has condition \"service_healthy\" " ++
        "but no [health] block, so it can never become healthy"
    | .dependencyNeverCompletes service dep =>
      s!"service {Debug.str service}: dependency {Debug.str dep} has condition " ++
        "\"service_completed_successfully\" but restart = \"always\", so it never stays exited"
    | .invalidDuration service field value reason =>
      s!"service {Debug.str service}: invalid duration {Debug.str value} for field `{field}`: {reason}"
    | .durationOutOfRange service field reason =>
      s!"service {Debug.str service}: field `{field}` is out of range: {reason}"
    | .restartMaxDelayTooSmall service delay maxDelay =>
      s!"service {Debug.str service}: restart_max_delay ({Duration.debug maxDelay}) " ++
        s!"must be >= restart_delay ({Duration.debug delay})"
    | .invalidShutdownSignal service value =>
      s!"service {Debug.str service}: unknown shutdown_signal {Debug.str value}; " ++
        "expected one of: term, int, quit, hup"
    | .missingHealthProbe service =>
      s!"service {Debug.str service}: [health] must declare exactly one of " ++
        "`command`, `http` or `tcp`"
    | .conflictingHealthProbes service probes =>
      s!"service {Debug.str service}: [health] declares multiple probes ({probes}); " ++
        "exactly one of `command`, `http` or `tcp` is allowed"
    | .invalidHealthProbe service field value reason =>
      s!"service {Debug.str service}: invalid [health] {field} probe {Debug.str value}: {reason}"
    | .invalidHealthRetries service =>
      s!"service {Debug.str service}: [health] retries must be at least 1, got 0"
    | .invalidSize field value reason =>
      s!"project.logs: invalid size {Debug.str value} for field `{field}`: {reason}"
    | .invalidMaxFiles value =>
      s!"project.logs: max_files must be between 0 and 100, got {value}"
    | .invalidLogDir dir reason =>
      s!"project.logs: log directory {dir} could not be created: {reason}"
    | .invalidUnhealthyAction service value =>
      s!"service {Debug.str service}: unknown [health] on_unhealthy {Debug.str value}; " ++
        "expected one of: restart, ignore"
    | .invalidEnvFile scope path reason =>
      s!"{scope}: env_file {path} could not be loaded: {reason}"
    | .undefinedVariable scope field name =>
      s!"{scope}: {field} refers to $\x7b{name}\x7d, which is not set; " ++
        s!"use $\x7b{name}:-default\x7d if it may be absent"
    | .invalidSubstitution scope field reason =>
      s!"{scope}: {field} has an invalid substitution: {reason}"
    | .invalidWatch service reason => s!"service {Debug.str service}: [watch] {reason}"

/-- A finding of the validation that is not fatal. -/
inductive ConfigWarning
  | executableNotInPath (service executable : String)
  | restartSettingsIgnored (service field : String)
  | logsWithoutProjectLogs (service : String)
  | unhealthyRestartWithoutPolicy (service : String)
  deriving DecidableEq, Repr

end Servicrab
