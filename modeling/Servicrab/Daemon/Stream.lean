import Servicrab.Core.Status
import Servicrab.Daemon.Overview
import Servicrab.Daemon.Server
import Servicrab.Events.Channel
import Servicrab.Library.Broadcast
import Servicrab.Library.Overwriting
import Servicrab.Protocol.Response

/-!
# The event stream of a client

The collector takes the events of the stack one by one, folds each into the registry, and then hands
it to the clients that have subscribed (`server.rs`). Between these two steps a client may subscribe,
or ask for the status. A subscriber that falls too far behind is told how many events it has missed.

What a subscriber was offered and has received, and what was folded when, is kept for the record;
nothing the program does depends on it. The log files are left out here.

## Main definitions

* `toWireEvent`, `Filter`, `Subscriber`.
* `Streaming`, `streamSystem`: the collector, the registry and the subscribers.
-/

open Broadcast (Receipt)
open Std (ExtTreeSet)

namespace Servicrab

/-- How many events a subscriber may fall behind. -/
def streamBacklog : ℕ := 4096

/-! ### Events on the wire -/

/-- Translate a runtime event into its wire form. -/
def toWireEvent (kind : EventKind) : Protocol.Event :=
  match kind with
  | .state state => .state (toWireState state)
  | .started pgid => .started (Int32.ofInt pgid)
  | .log stream line =>
    .log (match stream with
      | .stdout => .stdout
      | .stderr => .stderr) line
  | .exited reason uptime =>
    .exited (toString reason)
      (match reason with
        | .code code => some (Int32.ofInt code)
        | _ => none)
      (match reason with
        | .signal signal => some (Int32.ofInt signal)
        | _ => none)
      (UInt64.ofNat (uptime / 10 ^ 6))
  | .backoff delay attempt => .backoff (UInt64.ofNat (delay / 10 ^ 6)) (UInt32.ofNat attempt)
  | .skipped dependency => .skipped dependency.raw
  | .stopping reason => .stopping (toString reason)
  | .finished summary => .finished summary
  | .healthy => .healthy
  | .healthProbeFailed message consecutive retries =>
    .healthProbeFailed message (UInt32.ofNat consecutive) (UInt32.ofNat retries)
  | .unhealthy message => .unhealthy message
  | .watchTriggered path changed => .watchTriggered path (USize.ofNat changed)
  | .watchFailed message => .watchFailed message
  | .watchTruncated limit => .watchTruncated (USize.ofNat limit)
  | .logLinesDropped count => .logLinesDropped (UInt64.ofNat count)
  | .failed message => .failed message

/-- Which events a subscriber asked for. -/
structure Filter where
  /-- Empty means every service. -/
  services : ExtTreeSet String
  logs : Bool

namespace Filter

def wants (filter : Filter) (event : ServiceEvent) : Bool :=
  if !filter.logs && event.kind.isLog then false
  else filter.services.isEmpty || filter.services.contains event.service.raw

/-- What `stream_events` writes about an event. -/
def eventResponse (event : ServiceEvent) : Protocol.Response :=
  .event event.service.raw (toWireEvent event.kind)

/-- What `stream_events` writes when it was given something, if anything. -/
def response (filter : Filter) : Receipt ServiceEvent → Option Protocol.Response
  | .value event => if filter.wants event then some (eventResponse event) else none
  | .lagged skipped => some (.lagged (UInt64.ofNat skipped))

end Filter

/-! ### Subscribers -/

/-- Where the connection of a subscriber is. -/
inductive SubscriberPhase
  /-- The receiver is made, and the handshake is to be written. -/
  | greeting
  | receiving
  | writing (response : Protocol.Response)
  /-- The connection is closed. -/
  | gone

/-- A subscriber, with its position in the stream. -/
structure Subscriber where
  filter : Filter
  phase : SubscriberPhase
  next : ℕ
  /-- What was sent since it subscribed. -/
  offered : List ServiceEvent
  received : List (Receipt ServiceEvent)
  written : List Protocol.Response

namespace Subscriber

/-- Whether the connection still has its receiver. -/
def isLive (sub : Subscriber) : Bool :=
  match sub.phase with
  | .gone => false
  | _ => true

def new (filter : Filter) (next : ℕ) : Subscriber := ⟨filter, .greeting, next, [], [], []⟩

/-- An event is sent. -/
def offer (event : ServiceEvent) (sub : Subscriber) : Subscriber :=
  if sub.isLive then { sub with offered := sub.offered ++ [event] } else sub

/-- A response is written, or the client is found to be gone. -/
def write (sub : Subscriber) (response : Protocol.Response) (alive : Bool) : Subscriber :=
  if alive then { sub with phase := .receiving, written := sub.written ++ [response] }
  else { sub with phase := .gone }

/-- One round of `stream_events`, up to its write, with what was received. -/
def take (sub : Subscriber) (receipt : Receipt ServiceEvent) (next : ℕ) : Subscriber :=
  { sub with
    next := next
    received := sub.received ++ [receipt]
    phase := match sub.filter.response receipt with
      | none => .receiving
      | some response => .writing response }

/-- How many events it has yet to be told about. -/
def behind (sub : Subscriber) : ℕ :=
  sub.offered.length - (sub.received.map Receipt.span).sum

end Subscriber

/-! ### The system -/

/-- Where the loop of `collect` is. -/
inductive CollectorPhase
  | receiving
  | applying (event : ServiceEvent)
  | sending (event : ServiceEvent)
  /-- All event senders are gone, and so is the sender of the collector. -/
  | done

/-- The collector of the daemon, with what it works on. -/
structure Streaming where
  /-- The events that are on their way to the collector. -/
  queued : List ServiceEvent
  /-- Whether there is a sender of events. -/
  isOpen : Bool
  collector : CollectorPhase
  registry : StatusRegistry
  stream : Broadcast ServiceEvent
  /-- Whether the session, which has a sender of the stream, is held by anyone but the
  subscribers. -/
  held : Bool
  subscribers : List Subscriber
  /-- What was folded into the registry. -/
  folded : List (Instant × ServiceEvent)

inductive StreamAction
  /-- An event is sent to the collector. -/
  | publish (event : ServiceEvent)
  /-- The last sender of events is dropped. -/
  | hangUp
  /-- The collector takes the next event, or finds that there are no more. -/
  | receive
  /-- The collector folds the event it has taken. -/
  | apply (now : Instant)
  /-- The collector sends the event to the subscribers. -/
  | send
  /-- A reload request points the registry at a plan. -/
  | sync (config : ValidConfig) (names : List ServiceName)
  /-- The daemon lets go of the session. -/
  | release
  /-- A client subscribes. -/
  | subscribe (filter : Filter)
  /-- A subscriber is written the handshake, if it is still there. -/
  | greet (subscriber : ℕ) (alive : Bool)
  /-- A subscriber receives. -/
  | next (subscriber : ℕ)
  /-- A subscriber is written a response, if it is still there. -/
  | write (subscriber : ℕ) (alive : Bool)

namespace Streaming

variable (s : Streaming)

/-- Whether the stream has a sender: the one of the collector, or that of the session. -/
def hasSender : Bool :=
  (match s.collector with
    | .done => false
    | _ => true) || s.held || s.subscribers.any Subscriber.isLive

/-- The stream takes an event, if there is anyone to receive it. -/
def broadcast (event : ServiceEvent) : Streaming :=
  { s with
    stream := if s.subscribers.any Subscriber.isLive then s.stream.send streamBacklog event
      else s.stream
    subscribers := s.subscribers.map (Subscriber.offer event) }

/-- A receive of a subscriber. -/
def receiveAt (k : ℕ) (sub : Subscriber) : Option Streaming :=
  match s.stream.recv sub.next with
  | some (receipt, next) =>
    some { s with subscribers := s.subscribers.set k (sub.take receipt next) }
  | none =>
    if s.hasSender then none
    else some { s with subscribers := s.subscribers.set k { sub with phase := .gone } }

/-- One step of the collector, of a subscriber, or of the rest of the daemon. -/
def step : StreamAction → Option Streaming
  | .publish event => if s.isOpen then some { s with queued := s.queued ++ [event] } else none
  | .hangUp => some { s with isOpen := false }
  | .receive =>
    match s.collector, s.queued with
    | .receiving, event :: rest => some { s with queued := rest, collector := .applying event }
    | .receiving, [] => if s.isOpen then none else some { s with collector := .done }
    | _, _ => none
  | .apply now =>
    match s.collector with
    | .applying event => some { s with
        registry := s.registry.apply now event
        folded := s.folded ++ [(now, event)]
        collector := .sending event }
    | _ => none
  | .send =>
    match s.collector with
    | .sending event => some { s.broadcast event with collector := .receiving }
    | _ => none
  | .sync config names => some { s with registry := syncRegistry s.registry config.1 names }
  | .release => some { s with held := false }
  | .subscribe filter =>
    some { s with subscribers := s.subscribers ++ [.new filter s.stream.tail] }
  | .greet k alive =>
    match s.subscribers[k]? with
    | some sub =>
      match sub.phase with
      | .greeting => some { s with subscribers := s.subscribers.set k (sub.write Server.hello alive) }
      | _ => none
    | none => none
  | .next k =>
    match s.subscribers[k]? with
    | some sub =>
      match sub.phase with
      | .receiving => s.receiveAt k sub
      | _ => none
    | none => none
  | .write k alive =>
    match s.subscribers[k]? with
    | some sub =>
      match sub.phase with
      | .writing response =>
        some { s with subscribers := s.subscribers.set k (sub.write response alive) }
      | _ => none
    | none => none

/-- The collector as it is started. -/
def initial (config : Config) (plan : List ServiceName) : Streaming where
  queued := []
  isOpen := true
  collector := .receiving
  registry := initialRegistry config plan
  stream := .new
  held := true
  subscribers := []
  folded := []

end Streaming

/-- The runs of the collector and its subscribers. -/
def streamSystem : TransitionSystem Streaming StreamAction where
  init s := ∃ (config : ValidConfig) (plan : StartPlan config.1),
    s = Streaming.initial config.1 plan.1
  step := Streaming.step

end Servicrab
