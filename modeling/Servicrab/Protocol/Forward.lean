import Servicrab.Protocol.Response
import Mathlib.Tactic.Tauto

/-!
# Reading what a newer daemon sends

A response names variants of enumerations: its type, the kind of an event, a state, a verdict on
health, a stream, the code of an error. A newer daemon may put a name there that this build does not
know.

## Main definitions

* `Slot`, `Slot.path`, `Slot.known`, `Response.Has`, `Response.fallback`.

## Main results

* `Response.ofJson_put_iff`: the response is read, but for what is in the place of the unknown name,
  unless that is the code of an error.
-/

namespace Servicrab

namespace Protocol

open Json (values put Step)
open Serde

/-- A place in a response that holds a name of a variant. -/
inductive Slot
  | type
  | kind
  | state
  | stream
  | serviceState (i : ℕ)
  | serviceHealth (i : ℕ)
  | code
  deriving DecidableEq, Repr

/-- The tags of the events this build knows. -/
def Event.kinds : List String :=
  ["state", "started", "log", "exited", "backoff", "skipped", "stopping", "finished", "healthy",
    "health_probe_failed", "unhealthy", "watch_triggered", "watch_failed", "watch_truncated",
    "log_lines_dropped", "failed"]

/-- The tags of the responses this build knows. -/
def Response.types : List String := ["ok", "pong", "status", "event", "lagged", "error"]

namespace Slot

/-- Where the name stands. -/
def path : Slot → List Step
  | type => [.key "type"]
  | kind => [.key "event", .key "kind"]
  | state => [.key "event", .key "state"]
  | stream => [.key "event", .key "stream"]
  | serviceState i => [.key "services", .index i, .key "state"]
  | serviceHealth i => [.key "services", .index i, .key "health"]
  | code => [.key "code"]

/-- The names that this build knows there. -/
def known : Slot → List String
  | type => Response.types
  | kind => Event.kinds
  | state | serviceState _ => ServiceState.known.map (·.1)
  | stream => Stream.known.map (·.1)
  | serviceHealth _ => Health.known.map (·.1)
  | code => ErrorCode.known.map (·.1)

end Slot

namespace Response

/-- The response has such a place. -/
def Has : Response → Slot → Prop
  | _, .type => True
  | event .., .kind => True
  | event _ (.state _), .state => True
  | event _ (.log ..), .stream => True
  | status services, .serviceState i | status services, .serviceHealth i => i < services.length
  | error .., .code => True
  | _, _ => False

/-- The response with the fallback in a place. -/
def fallback : Response → Slot → Response
  | _, .type => unknown
  | event service _, .kind => event service .unknown
  | event service (.state _), .state => event service (.state .unknown)
  | event service (.log _ line), .stream => event service (.log .unknown line)
  | status services, .serviceState i =>
    status (services.modify i fun info => { info with state := .unknown })
  | status services, .serviceHealth i =>
    status (services.modify i fun info => { info with health := .unknown })
  | error _ message errors, .code => error .failed message errors
  | response, _ => response

end Response

/-! ### A name that is not known -/

variable {s : String}

/-- A name that is not known is read as the fallback, when there is one. -/
theorem variant_of_notMem {α : Type} {known : List (String × α)} (h : s ∉ known.map (·.1))
    (other : Option α) :
    variant known other (.string s) = other.elim (.error (.unknownVariant s)) .ok := by
  have hlookup : known.lookup s = none := by
    rw [List.lookup_eq_none_iff]
    intro entry hentry
    have hne : entry.1 ≠ s := fun heq => h (List.mem_map.mpr ⟨entry, hentry, heq⟩)
    simpa using hne.symm
  simp only [variant, hlookup]
  cases other <;> rfl

theorem Event.ofEntries_of_notMem (h : s ∉ kinds) (entries : List (String × Json)) :
    ofEntries s entries = .ok unknown := by
  simp only [kinds, List.mem_cons, List.not_mem_nil, or_false, not_or] at h
  rw [ofEntries]
  · rfl
  all_goals tauto

theorem Response.ofEntries_of_notMem (h : s ∉ types) (entries : List (String × Json)) :
    ofEntries s entries = .ok unknown := by
  simp only [types, List.mem_cons, List.not_mem_nil, or_false, not_or] at h
  rw [ofEntries]
  · rfl
  all_goals tauto

/-! ### Reports about services -/

namespace ServiceInfo

variable (info : ServiceInfo)

theorem ofJson_put_state (h : s ∉ ServiceState.known.map (·.1)) :
    ofJson (put (.string s) [.key "state"] info.toJson) =
      .ok { info with state := .unknown } := by
  have hstate : values "state" info.entries = [info.state.toJson] := by simp [entries]
  have hhealth : values "health" info.entries = [info.health.toJson] := by simp [entries]
  refine ofJson_object ?_ ?_ fun key hkey _ => ?_
  · refine required_eq ?_ (variant_of_notMem h (some .unknown))
    rw [Json.values_put, if_pos rfl, hstate]
    rfl
  · refine required_eq ?_ info.health.ofJson_toJson
    rw [Json.values_put, if_neg (by decide), hhealth]
  · rw [Json.values_put, if_neg hkey]
    simp only [entries, Json.values_append, Json.values_cons, if_neg hkey.symm]

theorem ofJson_put_health (h : s ∉ Health.known.map (·.1)) :
    ofJson (put (.string s) [.key "health"] info.toJson) =
      .ok { info with health := .unknown } := by
  have hstate : values "state" info.entries = [info.state.toJson] := by simp [entries]
  have hhealth : values "health" info.entries = [info.health.toJson] := by simp [entries]
  refine ofJson_object ?_ ?_ fun key _ hkey => ?_
  · refine required_eq ?_ info.state.ofJson_toJson
    rw [Json.values_put, if_neg (by decide), hstate]
  · refine required_eq ?_ (variant_of_notMem h (some .unknown))
    rw [Json.values_put, if_pos rfl, hhealth]
    rfl
  · rw [Json.values_put, if_neg hkey]
    simp only [entries, Json.values_append, Json.values_cons, if_neg hkey.symm]

end ServiceInfo

/-! ### Events and responses -/

/-- A state that is not known is read as the fallback. -/
theorem Event.ofJson_put_state (h : s ∉ ServiceState.known.map (·.1)) (moved : ServiceState) :
    ofJson (put (.string s) [.key "state"] (state moved).toJson) = .ok (state .unknown) := by
  have hput : put (.string s) [.key "state"] (state moved).toJson =
      .object [("kind", .string "state"), ("state", .string s)] := rfl
  have hstate : required ServiceState.ofJson "state" [("state", .string s)] = .ok .unknown :=
    required_eq rfl (variant_of_notMem h (some .unknown))
  rw [hput, ofJson_object rfl, ofEntries, hstate]
  rfl

/-- A stream that is not known is read as the fallback. -/
theorem Event.ofJson_put_stream (h : s ∉ Stream.known.map (·.1)) (stream : Stream) (line : String) :
    ofJson (put (.string s) [.key "stream"] (log stream line).toJson) = .ok (log .unknown line) := by
  have hput : put (.string s) [.key "stream"] (log stream line).toJson =
      .object [("kind", .string "log"), ("stream", .string s), ("line", .string line)] := rfl
  have hstream : required Stream.ofJson "stream" [("stream", .string s), ("line", .string line)] =
      .ok .unknown :=
    required_eq rfl (variant_of_notMem h (some .unknown))
  rw [hput, ofJson_object rfl, ofEntries, hstream]
  rfl

/-- An event of a kind that is not known is read as the fallback. -/
theorem Event.ofJson_put_kind (h : s ∉ kinds) (event : Event) :
    ofJson (put (.string s) [.key "kind"] event.toJson) = .ok unknown := by
  rw [toJson, Json.put_key_cons _ _ _ event.values_kind_entries]
  exact (ofJson_object event.values_kind_entries).trans (ofEntries_of_notMem h _)

namespace Response

/-- A response of a type that is not known is read as the fallback. -/
theorem ofJson_put_type (h : s ∉ types) (response : Response) :
    ofJson (put (.string s) [.key "type"] response.toJson) = .ok unknown := by
  rw [toJson, Json.put_key_cons _ _ _ response.values_type_entries]
  exact (ofJson_object response.values_type_entries).trans (ofEntries_of_notMem h _)

/-- What stands in the event of a response is read as the event would be. -/
theorem ofJson_put_event (service : String) {what what' : Event} {path : List Step}
    (h : Event.ofJson (put (.string s) path what.toJson) = .ok what') :
    ofJson (put (.string s) (.key "event" :: path) (event service what).toJson) =
      .ok (event service what') := by
  have hput : put (.string s) (.key "event" :: path) (event service what).toJson =
      .object [("type", .string "event"), ("service", .string service),
        ("event", put (.string s) path what.toJson)] := rfl
  have hservice : required string "service" [("service", .string service),
      ("event", put (.string s) path what.toJson)] = .ok service :=
    required_eq rfl (string_string service)
  have hevent : required Event.ofJson "event" [("service", .string service),
      ("event", put (.string s) path what.toJson)] = .ok what' :=
    required_eq rfl h
  rw [hput, ofJson_object rfl, ofEntries, hservice, hevent]
  rfl

/-- What stands in the report about a service is read as the report would be. -/
theorem ofJson_put_services (services : List ServiceInfo) (i : ℕ) {path : List Step}
    {change : ServiceInfo → ServiceInfo}
    (h : ∀ info : ServiceInfo, ServiceInfo.ofJson (put (.string s) path info.toJson) =
      .ok (change info)) :
    ofJson (put (.string s) (.key "services" :: .index i :: path) (status services).toJson) =
      .ok (status (services.modify i change)) := by
  have hput : put (.string s) (.key "services" :: .index i :: path) (status services).toJson =
      .object [("type", .string "status"), ("services",
        .array ((services.map ServiceInfo.toJson).modify i (put (.string s) path)))] := rfl
  have hservices : required (list ServiceInfo.ofJson) "services" [("services",
      .array ((services.map ServiceInfo.toJson).modify i (put (.string s) path)))] =
      .ok (services.modify i change) :=
    required_eq rfl (list_modify ServiceInfo.toJson ServiceInfo.ofJson_toJson h services i)
  rw [hput, ofJson_object rfl, ofEntries, hservices]
  rfl

/-- A code that is not known is refused, and the response with it. -/
theorem ofJson_put_code (h : s ∉ ErrorCode.known.map (·.1)) (code : ErrorCode) (message : String)
    (errors : List String) :
    ofJson (put (.string s) [.key "code"] (error code message errors).toJson) =
      .error (.unknownVariant s) := by
  have hvalues : values "code" (error code message errors).entries = [code.toJson] := by
    simp [entries]
  have htype := values_type_entries (error code message errors)
  rw [toJson, put, List.map_cons, if_neg (by simp), ofJson_object]
  · have hcode : orDefault ErrorCode.ofJson .failed "code"
        ((error code message errors).entries.map fun entry =>
          if entry.1 = "code" then (entry.1, put (.string s) [] entry.2) else entry) =
        .error (.unknownVariant s) := by
      refine orDefault_eq ?_ (variant_of_notMem h none)
      rw [Json.values_put, if_pos rfl, hvalues]
      rfl
    rw [type, ofEntries, hcode]
    rfl
  · rw [Json.values_put, if_neg (by decide), htype]

/-- **An unknown name is read as the fallback, unless it is the code of an error.** The rest of the
response is read as it was. -/
theorem ofJson_put_iff {response : Response} {slot : Slot} (hslot : response.Has slot)
    (hs : s ∉ slot.known) :
    ofJson (put (.string s) slot.path response.toJson) = .ok (response.fallback slot) ↔
      slot ≠ .code := by
  cases slot with
  | type => exact iff_of_true (response.ofJson_put_type hs) nofun
  | code =>
    cases response with
    | error code message errors =>
      refine iff_of_false (fun h => ?_) (fun h => h rfl)
      rw [Slot.path, ofJson_put_code hs] at h
      cases h
    | _ => exact hslot.elim
  | kind =>
    cases response with
    | event service what =>
      exact iff_of_true (ofJson_put_event service (Event.ofJson_put_kind hs what)) nofun
    | _ => exact hslot.elim
  | state =>
    cases response with
    | event service what =>
      cases what with
      | state moved =>
        exact iff_of_true (ofJson_put_event service (Event.ofJson_put_state hs moved)) nofun
      | _ => exact hslot.elim
    | _ => exact hslot.elim
  | stream =>
    cases response with
    | event service what =>
      cases what with
      | log stream line =>
        exact iff_of_true (ofJson_put_event service (Event.ofJson_put_stream hs stream line)) nofun
      | _ => exact hslot.elim
    | _ => exact hslot.elim
  | serviceState i =>
    cases response with
    | status services =>
      exact iff_of_true (ofJson_put_services services i fun info => info.ofJson_put_state hs) nofun
    | _ => exact hslot.elim
  | serviceHealth i =>
    cases response with
    | status services =>
      exact iff_of_true (ofJson_put_services services i fun info => info.ofJson_put_health hs) nofun
    | _ => exact hslot.elim

/-- A newer daemon reports that a service is in a state this build has no name for. -/
theorem ofJson_put_iff_paused :
    let info : ServiceInfo := ⟨"api", .running, some 7, some 7, none, 2, .healthy, none⟩
    ofJson (put (.string "paused") (Slot.serviceState 0).path (status [info]).toJson) =
      .ok (status [{ info with state := .unknown }]) :=
  have hhas : (status [⟨"api", .running, some 7, some 7, none, 2, .healthy, none⟩]).Has
      (.serviceState 0) := Nat.one_pos
  (ofJson_put_iff hhas (by decide)).mpr nofun

/-- A newer daemon gives an error a code this build has no name for. -/
theorem ofJson_put_rateLimited :
    (error .busy "slow down" []).Has .code ∧ "rate_limited" ∉ Slot.code.known ∧
      ¬ ∃ response, ofJson (put (.string "rate_limited") Slot.code.path
        (error .busy "slow down" []).toJson) = .ok response := by
  refine ⟨trivial, by decide, fun ⟨response, h⟩ => ?_⟩
  rw [Slot.path, ofJson_put_code (by decide)] at h
  cases h

end Response

end Protocol

end Servicrab
