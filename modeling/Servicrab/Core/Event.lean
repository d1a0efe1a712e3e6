import Servicrab.Core.Lifecycle

/-!
# Runtime events

What the runtime publishes about a service (`event.rs`), on the channel of its own supervision
task first and, once relayed, on the stack-wide one.
-/

namespace Servicrab

/-- Which standard stream a captured log line came from. -/
inductive Stream
  | stdout
  | stderr
  deriving DecidableEq, Repr

/-- What happened to a supervised service. -/
inductive EventKind
  | state (state : ServiceState)
  | started (pgid : ℤ)
  | log (stream : Stream) (line : String)
  | exited (reason : ExitReason) (uptime : Duration)
  | backoff (delay : Duration) (attempt : ℕ)
  | skipped (dependency : ServiceName)
  | stopping (reason : ShutdownReason)
  | finished (summary : String)
  | healthy
  | healthProbeFailed (message : String) (consecutive retries : ℕ)
  | unhealthy (message : String)
  | watchTriggered (path : String) (changed : ℕ)
  | watchFailed (message : String)
  | watchTruncated (limit : ℕ)
  | logLinesDropped (count : ℕ)
  | failed (message : String)
  deriving DecidableEq, Repr

/-- A single runtime event, tagged with the service it belongs to. -/
structure ServiceEvent where
  service : ServiceName
  kind : EventKind
  deriving DecidableEq, Repr

/-- The events that one service publishes are all about that service. -/
theorem kinds_filter_mk (kinds : List EventKind) (service name : ServiceName) :
    ((kinds.map (ServiceEvent.mk service)).filter fun event => event.service = name).map
      ServiceEvent.kind = if service = name then kinds else [] := by
  by_cases h : service = name <;> simp [h, List.filter_map, Function.comp_def]

/-- Whether the event is a verdict of a health probe. -/
def EventKind.isHealthVerdict : EventKind → Bool
  | .healthy | .unhealthy _ => true
  | _ => false

end Servicrab
