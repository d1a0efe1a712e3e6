import Servicrab.Library.Serde

/-!
# Responses

The responses the daemon sends to a client, and how they are written as JSON and read back
(`response.rs`). Most enumerations read a name this build does not know as `unknown`.

## Main definitions

* `ServiceInfo`, `Event`, `Response`, each with `toJson` and `ofJson`.

## Main results

* `Response.ofJson_toJson`: a response is read back.
-/

namespace Servicrab

/-- Machine-readable classification of an error. -/
inductive ErrorCode
  | unknownService
  | busy
  | notRunning
  | alreadyRunning
  | validationFailed
  | unsupported
  | failed
  deriving DecidableEq, Repr

namespace ErrorCode

open Serde

/-- `ErrorCode::as_str`. -/
def asStr : ErrorCode → String
  | unknownService => "unknown_service"
  | busy => "busy"
  | notRunning => "not_running"
  | alreadyRunning => "already_running"
  | validationFailed => "validation_failed"
  | unsupported => "unsupported"
  | failed => "failed"

/-- The names of the variants, of which there is none for what is not known. -/
def known : List (String × ErrorCode) :=
  [unknownService, busy, notRunning, alreadyRunning, validationFailed, unsupported, failed].map
    fun code => (code.asStr, code)

def toJson (code : ErrorCode) : Json := .string code.asStr

def ofJson : Json → Result ErrorCode := variant known none

@[simp] theorem ofJson_toJson (code : ErrorCode) : ofJson code.toJson = .ok code := by
  cases code <;> rfl

end ErrorCode

namespace Protocol

open Json (values)
open Serde

/-- The version of the output contract. -/
def schemaVersion : UInt32 := 1

/-! ### Enumerations of names -/

/-- The tag every enumeration falls back to. -/
def unknownTag : String := "unknown"

/-- The lifecycle state of a service, as reported by the daemon. -/
inductive ServiceState
  | pending
  | starting
  | running
  | backoff
  | stopping
  | stopped
  | exited
  | failed
  | unknown
  deriving DecidableEq, Repr

namespace ServiceState

def name : ServiceState → String
  | pending => "pending"
  | starting => "starting"
  | running => "running"
  | backoff => "backoff"
  | stopping => "stopping"
  | stopped => "stopped"
  | exited => "exited"
  | failed => "failed"
  | unknown => unknownTag

def known : List (String × ServiceState) :=
  [pending, starting, running, backoff, stopping, stopped, exited, failed].map
    fun state => (state.name, state)

def toJson (state : ServiceState) : Json := .string state.name

def ofJson : Json → Result ServiceState := variant known (some unknown)

@[simp] theorem ofJson_toJson (state : ServiceState) : ofJson state.toJson = .ok state := by
  cases state <;> rfl

end ServiceState

/-- What the health checks say about a service. -/
inductive Health
  | none
  | starting
  | healthy
  | unhealthy
  | unknown
  deriving DecidableEq, Repr

namespace Health

def name : Health → String
  | none => "none"
  | starting => "starting"
  | healthy => "healthy"
  | unhealthy => "unhealthy"
  | unknown => unknownTag

def known : List (String × Health) :=
  [none, starting, healthy, unhealthy].map fun health => (health.name, health)

def toJson (health : Health) : Json := .string health.name

def ofJson : Json → Result Health := variant known (some unknown)

@[simp] theorem ofJson_toJson (health : Health) : ofJson health.toJson = .ok health := by
  cases health <;> rfl

end Health

/-- Which standard stream a captured line came from. -/
inductive Stream
  | stdout
  | stderr
  | unknown
  deriving DecidableEq, Repr

namespace Stream

def name : Stream → String
  | stdout => "stdout"
  | stderr => "stderr"
  | unknown => unknownTag

def known : List (String × Stream) := [stdout, stderr].map fun stream => (stream.name, stream)

def toJson (stream : Stream) : Json := .string stream.name

def ofJson : Json → Result Stream := variant known (some unknown)

@[simp] theorem ofJson_toJson (stream : Stream) : ofJson stream.toJson = .ok stream := by
  cases stream <;> rfl

end Stream

/-! ### Structures -/

/-- A report about one service. -/
structure ServiceInfo where
  name : String
  state : ServiceState
  pgid : Option Int32
  pid : Option Int32
  uptimeSecs : Option UInt64
  restarts : UInt32
  health : Health
  message : Option String
  deriving DecidableEq

namespace ServiceInfo

def entries (info : ServiceInfo) : List (String × Json) :=
  [("name", .string info.name), ("state", info.state.toJson)] ++
    skipNone "pgid" ofI32 info.pgid ++ skipNone "pid" ofI32 info.pid ++
    skipNone "uptime_secs" ofU64 info.uptimeSecs ++
    [("restarts", ofU32 info.restarts), ("health", info.health.toJson)] ++
    skipNone "message" .string info.message

def toJson (info : ServiceInfo) : Json := .object info.entries

def ofJson (json : Json) : Result ServiceInfo := do
  let entries ← fields json
  return {
    name := ← required string "name" entries
    state := ← required ServiceState.ofJson "state" entries
    pgid := ← optional i32 "pgid" entries
    pid := ← optional i32 "pid" entries
    uptimeSecs := ← optional u64 "uptime_secs" entries
    restarts := ← required u32 "restarts" entries
    health := ← required Health.ofJson "health" entries
    message := ← optional string "message" entries }

/-- A report is read from an object that differs at most in how the state and the health are
written. -/
theorem ofJson_object {info : ServiceInfo} {entries : List (String × Json)}
    (hstate : required ServiceState.ofJson "state" entries = .ok info.state)
    (hhealth : required Health.ofJson "health" entries = .ok info.health)
    (h : ∀ key, key ≠ "state" → key ≠ "health" → values key entries = values key info.entries) :
    ofJson (.object entries) = .ok info := by
  have hname : required string "name" entries = .ok info.name :=
    required_eq (by rw [h _ (by decide) (by decide)]; simp [ServiceInfo.entries]; rfl) rfl
  have hpgid : optional i32 "pgid" entries = .ok info.pgid :=
    optional_eq ofI32 (by rw [h _ (by decide) (by decide)]; simp [ServiceInfo.entries])
      i32_ofI32 nofun
  have hpid : optional i32 "pid" entries = .ok info.pid :=
    optional_eq ofI32 (by rw [h _ (by decide) (by decide)]; simp [ServiceInfo.entries])
      i32_ofI32 nofun
  have huptime : optional u64 "uptime_secs" entries = .ok info.uptimeSecs :=
    optional_eq ofU64 (by rw [h _ (by decide) (by decide)]; simp [ServiceInfo.entries])
      u64_ofU64 nofun
  have hrestarts : required u32 "restarts" entries = .ok info.restarts :=
    required_eq (by rw [h _ (by decide) (by decide)]; simp [ServiceInfo.entries])
      (u32_ofU32 _)
  have hmessage : optional string "message" entries = .ok info.message :=
    optional_eq .string (by rw [h _ (by decide) (by decide)]; simp [ServiceInfo.entries])
      string_string nofun
  rw [ofJson, fields]
  simp only [bind, Except.bind, hname, hstate, hpgid, hpid, huptime, hrestarts, hhealth, hmessage]
  rfl

@[simp] theorem ofJson_toJson (info : ServiceInfo) : ofJson info.toJson = .ok info :=
  ofJson_object (required_eq (by simp [entries]) info.state.ofJson_toJson)
    (required_eq (by simp [entries]) info.health.ofJson_toJson) fun _ _ _ => rfl

end ServiceInfo

/-- How many services a reload added, changed and removed. -/
structure ReloadChanges where
  added : USize
  changed : USize
  removed : USize
  deriving DecidableEq

namespace ReloadChanges

def entries (changes : ReloadChanges) : List (String × Json) :=
  [("added", ofUsize changes.added), ("changed", ofUsize changes.changed),
    ("removed", ofUsize changes.removed)]

def toJson (changes : ReloadChanges) : Json := .object changes.entries

def ofJson (json : Json) : Result ReloadChanges := do
  let entries ← fields json
  return {
    added := ← required usize "added" entries
    changed := ← required usize "changed" entries
    removed := ← required usize "removed" entries }

@[simp] theorem ofJson_toJson (changes : ReloadChanges) : ofJson changes.toJson = .ok changes := by
  have hadded : required usize "added" changes.entries = .ok changes.added :=
    required_eq (by simp [entries]) (usize_ofUsize _)
  have hchanged : required usize "changed" changes.entries = .ok changes.changed :=
    required_eq (by simp [entries]) (usize_ofUsize _)
  have hremoved : required usize "removed" changes.entries = .ok changes.removed :=
    required_eq (by simp [entries]) (usize_ofUsize _)
  simp only [ofJson, toJson, fields, bind, Except.bind, hadded, hchanged, hremoved]
  rfl

end ReloadChanges

/-! ### Events -/

/-- Something that happened to a service. -/
inductive Event
  | state (state : ServiceState)
  | started (pgid : Int32)
  | log (stream : Stream) (line : String)
  | exited (reason : String) (code signal : Option Int32) (uptimeMs : UInt64)
  | backoff (delayMs : UInt64) (attempt : UInt32)
  | skipped (dependency : String)
  | stopping (reason : String)
  | finished (summary : String)
  | healthy
  | healthProbeFailed (message : String) (consecutive retries : UInt32)
  | unhealthy (message : String)
  | watchTriggered (path : String) (changed : USize)
  | watchFailed (message : String)
  | watchTruncated (limit : USize)
  | logLinesDropped (count : UInt64)
  | failed (message : String)
  /-- Something that this build has no name for. -/
  | unknown
  deriving DecidableEq

namespace Event

/-- The tag. -/
def kind : Event → String
  | state _ => "state"
  | started _ => "started"
  | log .. => "log"
  | exited .. => "exited"
  | backoff .. => "backoff"
  | skipped _ => "skipped"
  | stopping _ => "stopping"
  | finished _ => "finished"
  | healthy => "healthy"
  | healthProbeFailed .. => "health_probe_failed"
  | unhealthy _ => "unhealthy"
  | watchTriggered .. => "watch_triggered"
  | watchFailed _ => "watch_failed"
  | watchTruncated _ => "watch_truncated"
  | logLinesDropped _ => "log_lines_dropped"
  | failed _ => "failed"
  | unknown => unknownTag

/-- The fields next to the tag. -/
def entries : Event → List (String × Json)
  | state newState => [("state", newState.toJson)]
  | started pgid => [("pgid", ofI32 pgid)]
  | log stream line => [("stream", stream.toJson), ("line", .string line)]
  | exited reason code signal uptimeMs =>
    [("reason", .string reason)] ++ skipNone "code" ofI32 code ++
      skipNone "signal" ofI32 signal ++ [("uptime_ms", ofU64 uptimeMs)]
  | backoff delayMs attempt => [("delay_ms", ofU64 delayMs), ("attempt", ofU32 attempt)]
  | skipped dependency => [("dependency", .string dependency)]
  | stopping reason => [("reason", .string reason)]
  | finished summary => [("summary", .string summary)]
  | healthy => []
  | healthProbeFailed message consecutive retries =>
    [("message", .string message), ("consecutive", ofU32 consecutive), ("retries", ofU32 retries)]
  | unhealthy message => [("message", .string message)]
  | watchTriggered path changed => [("path", .string path), ("changed", ofUsize changed)]
  | watchFailed message => [("message", .string message)]
  | watchTruncated limit => [("limit", ofUsize limit)]
  | logLinesDropped count => [("count", ofU64 count)]
  | failed message => [("message", .string message)]
  | unknown => []

def toJson (event : Event) : Json := .object (("kind", .string event.kind) :: event.entries)

/-- Read the fields next to a tag. -/
def ofEntries (kind : String) (entries : List (String × Json)) : Result Event :=
  match kind with
  | "state" => return state (← required ServiceState.ofJson "state" entries)
  | "started" => return started (← required i32 "pgid" entries)
  | "log" =>
    return log (← required Stream.ofJson "stream" entries) (← required string "line" entries)
  | "exited" =>
    return exited (← required string "reason" entries) (← optional i32 "code" entries)
      (← optional i32 "signal" entries) (← required u64 "uptime_ms" entries)
  | "backoff" =>
    return backoff (← required u64 "delay_ms" entries) (← required u32 "attempt" entries)
  | "skipped" => return skipped (← required string "dependency" entries)
  | "stopping" => return stopping (← required string "reason" entries)
  | "finished" => return finished (← required string "summary" entries)
  | "healthy" => return healthy
  | "health_probe_failed" =>
    return healthProbeFailed (← required string "message" entries)
      (← required u32 "consecutive" entries) (← required u32 "retries" entries)
  | "unhealthy" => return unhealthy (← required string "message" entries)
  | "watch_triggered" =>
    return watchTriggered (← required string "path" entries) (← required usize "changed" entries)
  | "watch_failed" => return watchFailed (← required string "message" entries)
  | "watch_truncated" => return watchTruncated (← required usize "limit" entries)
  | "log_lines_dropped" => return logLinesDropped (← required u64 "count" entries)
  | "failed" => return failed (← required string "message" entries)
  | _ => return unknown

def ofJson (json : Json) : Result Event := do
  let (kind, entries) ← tagged "kind" json
  ofEntries kind entries

theorem values_kind_entries (event : Event) : values "kind" event.entries = [] := by
  cases event <;> simp [entries]

theorem ofEntries_entries (event : Event) : ofEntries event.kind event.entries = .ok event := by
  cases event with
  | exited reason code signal uptimeMs =>
    have hreason : required string "reason" (exited reason code signal uptimeMs).entries =
        .ok reason :=
      required_eq (by simp [entries]) (string_string reason)
    have hcode : optional i32 "code" (exited reason code signal uptimeMs).entries = .ok code :=
      optional_eq ofI32 (by simp [entries]) i32_ofI32 nofun
    have hsignal : optional i32 "signal" (exited reason code signal uptimeMs).entries =
        .ok signal :=
      optional_eq ofI32 (by simp [entries]) i32_ofI32 nofun
    have huptime : required u64 "uptime_ms" (exited reason code signal uptimeMs).entries =
        .ok uptimeMs :=
      required_eq (by simp [entries]) (u64_ofU64 uptimeMs)
    rw [kind, ofEntries, hreason, hcode, hsignal, huptime]
    rfl
  | backoff delayMs attempt =>
    have hdelay : required u64 "delay_ms" (backoff delayMs attempt).entries = .ok delayMs :=
      required_eq (by simp [entries]) (u64_ofU64 delayMs)
    have hattempt : required u32 "attempt" (backoff delayMs attempt).entries = .ok attempt :=
      required_eq (by simp [entries]) (u32_ofU32 attempt)
    rw [kind, ofEntries, hdelay, hattempt]
    rfl
  | healthProbeFailed message consecutive retries =>
    have hmessage : required string "message"
        (healthProbeFailed message consecutive retries).entries = .ok message :=
      required_eq (by simp [entries]) (string_string message)
    have hconsecutive : required u32 "consecutive"
        (healthProbeFailed message consecutive retries).entries = .ok consecutive :=
      required_eq (by simp [entries]) (u32_ofU32 consecutive)
    have hretries : required u32 "retries"
        (healthProbeFailed message consecutive retries).entries = .ok retries :=
      required_eq (by simp [entries]) (u32_ofU32 retries)
    rw [kind, ofEntries, hmessage, hconsecutive, hretries]
    rfl
  | logLinesDropped count =>
    have hcount : required u64 "count" (logLinesDropped count).entries = .ok count :=
      required_eq (by simp [entries]) (u64_ofU64 count)
    rw [kind, ofEntries, hcount]
    rfl
  | _ =>
    simp [kind, entries, ofEntries, required, field, bind, Except.bind, pure, Except.pure,
      unknownTag]

theorem ofJson_object {name : String} {entries : List (String × Json)}
    (h : values "kind" entries = []) :
    ofJson (.object (("kind", .string name) :: entries)) = ofEntries name entries := by
  rw [ofJson, tagged_cons h]
  rfl

@[simp] theorem ofJson_toJson (event : Event) : ofJson event.toJson = .ok event :=
  (ofJson_object event.values_kind_entries).trans event.ofEntries_entries

end Event

/-! ### Responses -/

/-- A response returned by the daemon to a client. -/
inductive Response
  | ok (message : Option String) (changes : Option ReloadChanges) (schemaVersion : Option UInt32)
  | pong (project : String) (pid : UInt32) (version : Option UInt32)
  | status (services : List ServiceInfo)
  | event (service : String) (event : Event)
  | lagged (skipped : UInt64)
  | error (code : ErrorCode) (message : String) (errors : List String)
  /-- A reply this build has no name for. -/
  | unknown
  deriving DecidableEq

namespace Response

/-- The tag. -/
def type : Response → String
  | ok .. => "ok"
  | pong .. => "pong"
  | status _ => "status"
  | event .. => "event"
  | lagged _ => "lagged"
  | error .. => "error"
  | unknown => unknownTag

/-- The fields next to the tag. -/
def entries : Response → List (String × Json)
  | ok message changes schemaVersion =>
    skipNone "message" .string message ++ skipNone "changes" ReloadChanges.toJson changes ++
      skipNone "schema_version" ofU32 schemaVersion
  | pong project pid version =>
    [("project", .string project), ("pid", ofU32 pid)] ++ skipNone "version" ofU32 version
  | status services => [("services", .array (services.map ServiceInfo.toJson))]
  | event service what => [("service", .string service), ("event", what.toJson)]
  | lagged skipped => [("skipped", ofU64 skipped)]
  | error code message errors =>
    [("code", code.toJson), ("message", .string message)] ++
      skipEmpty "errors" (errors.map .string)
  | unknown => []

def toJson (response : Response) : Json :=
  .object (("type", .string response.type) :: response.entries)

/-- Read the fields next to a tag. -/
def ofEntries (type : String) (entries : List (String × Json)) : Result Response :=
  match type with
  | "ok" =>
    return ok (← optional string "message" entries)
      (← optional ReloadChanges.ofJson "changes" entries) (← optional u32 "schema_version" entries)
  | "pong" =>
    return pong (← required string "project" entries) (← required u32 "pid" entries)
      (← optional u32 "version" entries)
  | "status" => return status (← required (list ServiceInfo.ofJson) "services" entries)
  | "event" =>
    return event (← required string "service" entries) (← required Event.ofJson "event" entries)
  | "lagged" => return lagged (← required u64 "skipped" entries)
  | "error" =>
    return error (← orDefault ErrorCode.ofJson .failed "code" entries)
      (← required string "message" entries) (← orDefault (list string) [] "errors" entries)
  | _ => return unknown

def ofJson (json : Json) : Result Response := do
  let (type, entries) ← tagged "type" json
  ofEntries type entries

theorem values_type_entries (response : Response) : values "type" response.entries = [] := by
  cases response <;> simp [entries]

theorem ofEntries_entries (response : Response) :
    ofEntries response.type response.entries = .ok response := by
  cases response with
  | ok message changes schemaVersion =>
    have hmessage : optional string "message" (ok message changes schemaVersion).entries =
        .ok message :=
      optional_eq .string (by simp [entries]) string_string nofun
    have hchanges : optional ReloadChanges.ofJson "changes"
        (ok message changes schemaVersion).entries = .ok changes :=
      optional_eq ReloadChanges.toJson (by simp [entries]) ReloadChanges.ofJson_toJson nofun
    have hversion : optional u32 "schema_version" (ok message changes schemaVersion).entries =
        .ok schemaVersion :=
      optional_eq ofU32 (by simp [entries]) u32_ofU32 nofun
    rw [type, ofEntries, hmessage, hchanges, hversion]
    rfl
  | pong project pid version =>
    have hproject : required string "project" (pong project pid version).entries = .ok project :=
      required_eq (by simp [entries]) (string_string project)
    have hpid : required u32 "pid" (pong project pid version).entries = .ok pid :=
      required_eq (by simp [entries]) (u32_ofU32 pid)
    have hversion : optional u32 "version" (pong project pid version).entries = .ok version :=
      optional_eq ofU32 (by simp [entries]) u32_ofU32 nofun
    rw [type, ofEntries, hproject, hpid, hversion]
    rfl
  | status services =>
    have hservices : required (list ServiceInfo.ofJson) "services" (status services).entries =
        .ok services :=
      required_eq rfl (list_map ServiceInfo.toJson fun info _ => info.ofJson_toJson)
    rw [type, ofEntries, hservices]
    rfl
  | lagged skipped =>
    have hskipped : required u64 "skipped" (lagged skipped).entries = .ok skipped :=
      required_eq (by simp [entries]) (u64_ofU64 skipped)
    rw [type, ofEntries, hskipped]
    rfl
  | error code message errors =>
    have hcode : orDefault ErrorCode.ofJson .failed "code" (error code message errors).entries =
        .ok code :=
      orDefault_eq (by simp [entries]) code.ofJson_toJson
    have hmessage : required string "message" (error code message errors).entries = .ok message :=
      required_eq (by simp [entries]) (string_string message)
    have herrors : orDefault (list string) [] "errors" (error code message errors).entries =
        .ok errors := by
      cases errors with
      | nil => exact orDefault_nil (by simp [entries]) []
      | cons first rest =>
        exact orDefault_eq (by simp [entries])
          (list_map .string fun s _ => string_string s)
    rw [type, ofEntries, hcode, hmessage, herrors]
    rfl
  | _ =>
    simp [type, entries, ofEntries, required, field, bind, Except.bind, pure, Except.pure,
      unknownTag]

theorem ofJson_object {name : String} {entries : List (String × Json)}
    (h : values "type" entries = []) :
    ofJson (.object (("type", .string name) :: entries)) = ofEntries name entries := by
  rw [ofJson, tagged_cons h]
  rfl

/-- A response is read back. -/
theorem ofJson_toJson (response : Response) : ofJson response.toJson = .ok response :=
  (ofJson_object response.values_type_entries).trans response.ofEntries_entries

end Response

end Protocol

end Servicrab
