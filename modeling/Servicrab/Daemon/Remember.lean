import Servicrab.Daemon.Stopped
import Servicrab.Protocol.Response
import Servicrab.Supervisor.Intent

/-!
# What the daemon remembers of the operators' decisions

Each client has a connection of its own. A request to start, stop or restart a service is sent to
the supervisor as a command; once the supervisor has acknowledged it as successful, the connection
records in the file of stopped services whether the service is stopped now, and answers
(`server.rs`). Between the acknowledgement and the record the other connections go on, so that the
order in which decisions are recorded need not be the order in which they were carried out.

The supervisor tracks one command a service at a time, so commands on one service are acknowledged
in the order they are carried out. A connection is named by the acknowledgement channel of its
command.

## Main definitions

* `ServiceRequest`, `Connection`, `Clients`, `clientSystem`.
* `Clients.RemembersLast`: the file agrees with the last decision about each service.
* `Clients.Overtaken`, `Clients.InOrder`.

## Main results

* `Clients.remembersLast_of_steps`.
-/

open Std (ExtTreeMap ExtTreeSet)
open TransitionSystem (AnyStep)

namespace Servicrab

/-! ### Requests and responses -/

/-- The requests of a client that are about one service. -/
inductive ServiceRequest
  | startService
  | stopService
  | restartService
  deriving DecidableEq, Repr

/-- The command that a request sends. -/
def ServiceRequest.control (service : ServiceName) (ack : ℕ) : ServiceRequest → Control
  | .startService => .start service ack
  | .stopService => .stop service ack
  | .restartService => .restart service ack

/-- Whether the service counts as stopped by hand once the request was carried out. -/
def ServiceRequest.isStop : ServiceRequest → Bool
  | .startService | .restartService => false
  | .stopService => true

/-- An answer to a client, as `Response::message` and `Response::error` make it. -/
inductive Response
  | ok (message : String)
  | error (code : ErrorCode) (message : String)
  deriving DecidableEq, Repr

def ControlOutcome.toString : ControlOutcome → String
  | .started => "started"
  | .restarted => "restarted"
  | .stopped => "stopped"
  | .alreadyStopped => "already stopped"
  | .reloaded 0 0 0 => "no changes"
  | .reloaded added changed removed => s!"{added} added, {changed} changed, {removed} removed"

def ControlRefusal.toString : ControlRefusal → String
  | .unknownService service => s!"{service} is not part of the running stack"
  | .busy service => s!"{service} is busy with another command"
  | .alreadyRunning service => s!"{service} is already running"

/-- The wire code for a refusal the supervisor sent back. -/
def refusalCode : ControlRefusal → ErrorCode
  | .unknownService _ => .unknownService
  | .busy _ => .busy
  | .alreadyRunning _ => .alreadyRunning

/-! ### Connections -/

/-- How far a request is whose command was sent. -/
inductive ConnectionPhase
  /-- The acknowledgement is awaited. -/
  | waiting
  /-- The command was carried out: the decision is to be recorded. -/
  | deciding (response : Response)
  | answered (response : Response)
  deriving DecidableEq

def ConnectionPhase.isAnswered : ConnectionPhase → Bool
  | .waiting | .deciding _ => false
  | .answered _ => true

/-- A request whose command was sent. -/
structure Connection where
  request : ServiceRequest
  name : String
  phase : ConnectionPhase
  deriving DecidableEq

/-- A service name that the validation lets through. -/
abbrev ValidName := { name : ServiceName // validateName name.raw 48 = .ok () }

/-- The clients of a daemon, and what they share. -/
structure Clients where
  stack : Stack
  /-- The services that the running configuration knows about. -/
  names : List ValidName
  /-- The file of stopped services, if there is one. -/
  file : Option String
  connections : ExtTreeMap ℕ Connection
  /-- What requests were answered whose command was not sent. -/
  refused : List Response

/-- A move of a client's connection, or of what it shares with the others. -/
inductive ClientAction
  /-- The supervisor, one of its tasks, a reload or a file watcher moves. -/
  | stack (action : StackAction)
  /-- A reload replaces the known names. -/
  | sync (names : List ValidName)
  /-- A client sends a request, which is turned into a command if the supervisor takes any. -/
  | request (request : ServiceRequest) (name : String) (taken : Bool)
  /-- A connection gets the acknowledgement of its command. -/
  | receive (ack : ℕ)
  /-- The acknowledgement channel is dropped as the stack shuts down. -/
  | dropped (ack : ℕ)
  /-- A connection records the decision of its command. -/
  | remember (ack : ℕ)

namespace Clients

variable (s : Clients)

/-- The first half of `command`: the command is sent. -/
def send (request : ServiceRequest) (name : String) (taken : Bool) : Option Clients :=
  match s.names.find? fun known => known.1.raw == name with
  | none =>
    let names := commaSeparated (s.names.map fun known => known.1.raw)
    some { s with refused := s.refused ++ [.error .unknownService
      s!"unknown service {Debug.str name}; this daemon supervises: {names}"] }
  | some known =>
    if taken then
      (s.stack.step (.submit (request.control known.1 s.stack.nextAck))).map fun stack =>
        { s with
          stack := stack
          connections := s.connections.insert s.stack.nextAck ⟨request, name, .waiting⟩ }
    else if s.stack.left.isSome then
      some { s with refused := s.refused ++
        [.error .failed "the supervisor is no longer accepting commands"] }
    else none

/-- The second half of `command`: what the connection goes on with. -/
def verdictPhase (name : String) : Verdict → ConnectionPhase
  | .ok outcome => .deciding (.ok s!"{name} {outcome.toString}")
  | .error refusal => .answered (.error (refusalCode refusal) refusal.toString)

/-- A connection is in another phase. -/
def setPhase (ack : ℕ) (connection : Connection) (phase : ConnectionPhase) : Clients :=
  { s with connections := s.connections.insert ack { connection with phase := phase } }

/-- One move. -/
def step : ClientAction → Option Clients
  | .stack action => (s.stack.step action).map fun stack => { s with stack := stack }
  | .sync names => some { s with names := names }
  | .request request name taken => s.send request name taken
  | .receive ack =>
    match s.connections[ack]?, s.stack.answersTo ack with
    | some ⟨request, name, .waiting⟩, verdict :: _ =>
      some (s.setPhase ack ⟨request, name, .waiting⟩ (verdictPhase name verdict))
    | _, _ => none
  | .dropped ack =>
    match s.connections[ack]?, s.stack.answersTo ack with
    | some ⟨request, name, .waiting⟩, [] =>
      if s.stack.left.isSome then
        some (s.setPhase ack ⟨request, name, .waiting⟩ (.answered
          (.error .failed "the stack stopped before the command completed")))
      else none
    | _, _ => none
  | .remember ack =>
    match s.connections[ack]? with
    | some ⟨request, name, .deciding response⟩ =>
      some { s.setPhase ack ⟨request, name, .deciding response⟩ (.answered response) with
        file := Stopped.record s.file name request.isStop }
    | _ => none

end Clients

/-- The runs of the clients of a daemon, from its start, with any file. -/
def clientSystem : TransitionSystem Clients ClientAction where
  init s := stackSystem.init s.stack ∧ s.connections = ∅ ∧ s.refused = []
  step := Clients.step

namespace Clients

/-! ### Decisions -/

/-- The connection whose command on a service is acknowledged as successful by an answer. -/
def success (s : Clients) (name : String) (answer : ℕ × Verdict) : Option Connection :=
  match answer.2 with
  | .ok _ => s.connections[answer.1]?.filter fun connection => connection.name = name
  | .error _ => none

/-- What was decided about a service, in the order it was carried out. -/
def decisions (s : Clients) (name : String) : List Bool :=
  (s.stack.answers.filterMap (s.success name)).map fun connection => connection.request.isStop

/-- Every request was answered. -/
def AllAnswered (s : Clients) : Prop :=
  ∀ (ack : ℕ) (connection : Connection), s.connections[ack]? = some connection →
    connection.phase.isAnswered

/-- The file lists a service exactly when the last decision about it was to stop it, or, when there
was none, when it did before. -/
def RemembersLast (s : Clients) (before : Option String) : Prop :=
  ∀ name, name ∈ Stopped.read s.file ↔
    match (s.decisions name).getLast? with
    | some stopped => stopped = true
    | none => name ∈ Stopped.read before

/-- What was answered after the command of a connection. -/
def laterAnswers (s : Clients) (ack : ℕ) : List (ℕ × Verdict) :=
  (s.stack.answers.dropWhile fun answer => answer.1 ≠ ack).tail

/-- A later decision about the same service, of the other kind, is recorded already. -/
def Overtaken (s : Clients) (ack : ℕ) : Prop :=
  ∃ connection ∈ s.connections[ack]?,
    ∃ other ∈ (s.laterAnswers ack).filterMap (s.success connection.name),
      other.phase.isAnswered ∧ other.request.isStop ≠ connection.request.isStop

instance (s : Clients) (ack : ℕ) : Decidable (s.Overtaken ack) :=
  inferInstanceAs (Decidable (∃ connection ∈ s.connections[ack]?, _))

/-- The guard that no decision is recorded after a later one of the other kind was. -/
def InOrder (s : Clients) (action : ClientAction) (_ : Clients) : Prop :=
  ∀ ack, action = .remember ack → ¬ s.Overtaken ack

/-! ### Connections -/

variable {s s' : Clients} {name : String} {ack : ℕ} {connection : Connection}

/-- What every state of the clients meets. -/
structure Served (s : Clients) : Prop where
  reachable : stackSystem.Reachable AnyStep s.stack
  fresh : ∀ (ack : ℕ) (connection : Connection), s.connections[ack]? = some connection →
    ack < s.stack.nextAck
  plain : ∀ (ack : ℕ) (connection : Connection), s.connections[ack]? = some connection →
    Stopped.Plain connection.name
  deciding : ∀ (ack : ℕ) (connection : Connection) (response : Response),
    s.connections[ack]? = some connection → connection.phase = .deciding response →
      ∃ outcome, (ack, .ok outcome) ∈ s.stack.answers
  answered : ∀ (ack : ℕ) (connection : Connection), s.connections[ack]? = some connection →
    connection.phase.isAnswered → ack ∈ s.stack.answeredAcks ∨ s.stack.left.isSome

theorem Served.stack (h : s.Served) {action : StackAction} {stack : Stack}
    (hstep : s.stack.step action = some stack) : Served { s with stack := stack } := by
  have hI := Stack.inv_of_reachable h.reachable
  have hanswers : s.stack.answers <+: stack.answers := by
    obtain ha | ⟨_, _, ha, -⟩ :=
      Stack.step_answers hI (Stack.acksUnique_of_reachable h.reachable) hstep <;> rw [ha]
    exact List.prefix_append _ _
  constructor
  case reachable => exact h.reachable.step trivial hstep
  case fresh =>
    exact fun ack connection hc => (h.fresh ack connection hc).trans_le (Stack.step_nextAck hI hstep)
  case plain => exact h.plain
  case deciding =>
    intro ack connection response hc hphase
    obtain ⟨outcome, hmem⟩ := h.deciding ack connection response hc hphase
    exact ⟨outcome, hanswers.subset hmem⟩
  case answered =>
    intro ack connection hc hphase
    rcases h.answered ack connection hc hphase with hmem | hleft
    · exact .inl ((hanswers.map Prod.fst).subset hmem)
    · obtain ⟨reason, hleft⟩ := Option.isSome_iff_exists.mp hleft
      right
      rw [(Stack.step_of_left hleft hstep).2.1, hleft]
      rfl

/-- A connection is made, or goes on to another phase. -/
theorem Served.insert (h : s.Served) (hfresh : ack < s.stack.nextAck)
    (hplain : Stopped.Plain connection.name)
    (hdeciding : ∀ response, connection.phase = .deciding response →
      ∃ outcome, (ack, .ok outcome) ∈ s.stack.answers)
    (hanswered : connection.phase.isAnswered → ack ∈ s.stack.answeredAcks ∨ s.stack.left.isSome)
    (file : Option String) :
    Served { s with connections := s.connections.insert ack connection, file := file } := by
  have hold : ∀ (other : ℕ) (c : Connection), (s.connections.insert ack connection)[other]? = some c →
      other = ack ∧ c = connection ∨ s.connections[other]? = some c := by
    intro other c hother
    rw [TreeMap.getElem?_insert] at hother
    split_ifs at hother with he
    · exact .inl ⟨he, (Option.some.inj hother).symm⟩
    · exact .inr hother
  constructor
  case reachable => exact h.reachable
  case fresh =>
    intro other c hother
    obtain ⟨rfl, -⟩ | hother := hold other c hother
    exacts [hfresh, h.fresh _ _ hother]
  case plain =>
    intro other c hother
    obtain ⟨-, rfl⟩ | hother := hold other c hother
    exacts [hplain, h.plain _ _ hother]
  case deciding =>
    intro other c response hother hphase
    obtain ⟨rfl, rfl⟩ | hother := hold other c hother
    exacts [hdeciding response hphase, h.deciding _ _ response hother hphase]
  case answered =>
    intro other c hother hphase
    obtain ⟨rfl, rfl⟩ | hother := hold other c hother
    exacts [hanswered hphase, h.answered _ _ hother hphase]

theorem Served.setPhase (h : s.Served) (hc : s.connections[ack]? = some connection)
    {phase : ConnectionPhase}
    (hdeciding : ∀ response, phase = .deciding response →
      ∃ outcome, (ack, .ok outcome) ∈ s.stack.answers)
    (hanswered : phase.isAnswered → ack ∈ s.stack.answeredAcks ∨ s.stack.left.isSome)
    (file : Option String) : Served { s.setPhase ack connection phase with file := file } := by
  refine h.insert (h.fresh ack connection hc) ?_ hdeciding hanswered file
  exact h.plain ack connection hc

/-- What a move does. -/
inductive Effect (s : Clients) : ClientAction → Clients → Prop
  | stack {action : StackAction} {stack : Stack} (h : s.stack.step action = some stack) :
    Effect s (.stack action) { s with stack := stack }
  | shared {action : ClientAction} (names : List ValidName) (refused : List Response) :
    Effect s action { s with names := names, refused := refused }
  | sent {request : ServiceRequest} {known : ValidName} {taken : Bool} {stack : Stack}
    (h : s.stack.step (.submit (request.control known.1 s.stack.nextAck)) = some stack) :
    Effect s (.request request known.1.raw taken)
      { s with
        stack := stack
        connections := s.connections.insert s.stack.nextAck ⟨request, known.1.raw, .waiting⟩ }
  | received {ack : ℕ} {connection : Connection} {verdict : Verdict}
    (hc : s.connections[ack]? = some connection) (hphase : connection.phase = .waiting)
    (hanswer : (ack, verdict) ∈ s.stack.answers) :
    Effect s (.receive ack) (s.setPhase ack connection (verdictPhase connection.name verdict))
  | dropped {ack : ℕ} {connection : Connection} (response : Response)
    (hc : s.connections[ack]? = some connection) (hphase : connection.phase = .waiting)
    (hnone : ack ∉ s.stack.answeredAcks) (hleft : s.stack.left.isSome) :
    Effect s (.dropped ack) (s.setPhase ack connection (.answered response))
  | remembered {ack : ℕ} {connection : Connection} {response : Response}
    (hc : s.connections[ack]? = some connection) (hphase : connection.phase = .deciding response) :
    Effect s (.remember ack) { s.setPhase ack connection (.answered response) with
      file := Stopped.record s.file connection.name connection.request.isStop }

theorem effect_send {request : ServiceRequest} {taken : Bool}
    (hstep : s.send request name taken = some s') : Effect s (.request request name taken) s' := by
  unfold send at hstep
  split at hstep
  · cases hstep
    exact .shared _ _
  · rename_i known hknown
    split_ifs at hstep
    · obtain ⟨stack, hstack, rfl⟩ := Option.map_eq_some_iff.mp hstep
      obtain rfl : known.1.raw = name := by simpa using List.find?_some hknown
      exact .sent hstack
    · cases hstep
      exact .shared _ _

theorem effect_of_step {action : ClientAction} (hstep : s.step action = some s') :
    Effect s action s' := by
  cases action with
  | stack action =>
    obtain ⟨stack, hstack, rfl⟩ := Option.map_eq_some_iff.mp hstep
    exact .stack hstack
  | sync names =>
    cases hstep
    exact .shared _ _
  | request request name taken => exact effect_send hstep
  | receive ack =>
    simp only [step] at hstep
    split at hstep
    · rename_i request name verdict _ hc hanswers
      cases hstep
      exact .received hc rfl (Stack.mem_answersTo.mp (hanswers ▸ List.mem_cons_self))
    · cases hstep
  | dropped ack =>
    simp only [step] at hstep
    split at hstep
    · rename_i request name hc hanswers
      obtain ⟨hleft, hstep⟩ := Option.ite_none_right_eq_some.mp hstep
      cases hstep
      refine .dropped _ hc rfl (fun hmem => ?_) hleft
      obtain ⟨⟨_, verdict⟩, hanswer, rfl⟩ := List.mem_map.mp hmem
      rw [← Stack.mem_answersTo, hanswers] at hanswer
      cases hanswer
    · cases hstep
  | remember ack =>
    simp only [step] at hstep
    split at hstep
    · rename_i hc
      cases hstep
      exact .remembered hc rfl
    · cases hstep

theorem Served.step (h : s.Served) {action : ClientAction} (hstep : s.step action = some s') :
    s'.Served := by
  cases effect_of_step hstep with
  | stack hstack => exact h.stack hstack
  | shared => exact ⟨h.reachable, h.fresh, h.plain, h.deciding, h.answered⟩
  | @sent request known _ stack hstack =>
    have hnext : s.stack.nextAck < stack.nextAck := by
      obtain ⟨-, hstack⟩ := Option.ite_none_right_eq_some.mp hstack
      cases hstack
      exact Nat.lt_succ_self _
    exact (h.stack hstack).insert hnext (Stopped.plain_of_validateName known.2)
      (fun _ he => by cases he) (fun he => by cases he) s.file
  | @received ack connection verdict hc hphase hanswer =>
    refine h.setPhase hc (fun response he => ?_) (fun _ => .inl ?_) s.file
    · cases verdict with
      | ok outcome => exact ⟨outcome, hanswer⟩
      | error refusal => cases he
    · exact List.mem_map.mpr ⟨_, hanswer, rfl⟩
  | dropped response hc _ hnone hleft =>
    exact h.setPhase hc (fun _ he => by cases he) (fun _ => .inr hleft) s.file
  | remembered hc hphase =>
    refine h.setPhase hc (fun _ he => by cases he) (fun _ => .inl ?_) _
    obtain ⟨outcome, hmem⟩ := h.deciding _ _ _ hc hphase
    exact List.mem_map.mpr ⟨_, hmem, rfl⟩

/-! ### What is recorded -/

theorem success_eq_some {answer : ℕ × Verdict} : s.success name answer = some connection ↔
    (∃ outcome, answer.2 = .ok outcome) ∧ s.connections[answer.1]? = some connection ∧
      connection.name = name := by
  unfold success
  split
  · rename_i outcome hverdict
    simp [hverdict, Option.filter_eq_some_iff]
  · rename_i refusal hverdict
    simp [hverdict]

/-- What an answer has the file say about a service, once the connection has recorded it. -/
def recordedBy (s : Clients) (name : String) (answer : ℕ × Verdict) : Option Bool :=
  (s.success name answer).bind fun connection =>
    if connection.phase.isAnswered then some connection.request.isStop else none

theorem recordedBy_eq_some {answer : ℕ × Verdict} {stopped : Bool} :
    s.recordedBy name answer = some stopped ↔ ∃ connection,
      s.success name answer = some connection ∧ connection.phase.isAnswered ∧
        connection.request.isStop = stopped := by
  simp [recordedBy, Option.bind_eq_some_iff]

theorem recordedBy_congr {answer : ℕ × Verdict}
    (h : s'.connections[answer.1]? = s.connections[answer.1]?) :
    s'.recordedBy name answer = s.recordedBy name answer := by
  simp only [recordedBy, success, h]

/-- The file lists a service exactly when the last of the recorded decisions about it was to stop
it, or, when there is none, when it did before. Decisions come in the order they were carried out,
whenever they were recorded. -/
def RecordsLast (s : Clients) (before : Option String) : Prop :=
  ∀ name, name ∈ Stopped.read s.file ↔
    match (s.stack.answers.filterMap (s.recordedBy name)).getLast? with
    | some stopped => stopped = true
    | none => name ∈ Stopped.read before

variable {before : Option String}

/-- Once every request was answered, every decision is recorded. -/
theorem RecordsLast.remembersLast (h : s.RecordsLast before) (hanswered : s.AllAnswered) :
    s.RemembersLast before := by
  have hrecorded : ∀ name, s.stack.answers.filterMap (s.recordedBy name) = s.decisions name := by
    intro name
    rw [decisions, List.map_filterMap]
    refine List.filterMap_congr fun answer _ => ?_
    cases hsuccess : s.success name answer with
    | none => simp [recordedBy, hsuccess]
    | some connection =>
      have hphase := hanswered _ _ (success_eq_some.mp hsuccess).2.1
      simp [recordedBy, hsuccess, hphase]
  intro name
  rw [h name, hrecorded]

/-- As long as the same decisions are recorded, the file may stay as it is. -/
theorem RecordsLast.of_recordedBy (h : s.RecordsLast before) (hfile : s'.file = s.file)
    (hrecorded : ∀ name, s'.stack.answers.filterMap (s'.recordedBy name) =
      s.stack.answers.filterMap (s.recordedBy name)) : s'.RecordsLast before := by
  intro name
  rw [hfile, hrecorded]
  exact h name

/-- A new answer is not recorded yet. -/
theorem RecordsLast.stack (h : s.RecordsLast before) (hserved : s.Served) {action : StackAction}
    {stack : Stack} (hstep : s.stack.step action = some stack) :
    RecordsLast { s with stack := stack } before := by
  refine h.of_recordedBy rfl fun name => ?_
  obtain ha | ⟨ack, result, ha, hfresh, hleft⟩ := Stack.step_answers
    (Stack.inv_of_reachable hserved.reachable) (Stack.acksUnique_of_reachable hserved.reachable) hstep
  · exact congrArg _ ha
  · have hnone : s.recordedBy name (ack, result) = none := by
      rw [Option.eq_none_iff_forall_ne_some]
      intro stopped hstopped
      obtain ⟨connection, hsuccess, hphase, -⟩ := recordedBy_eq_some.mp hstopped
      rcases hserved.answered ack connection (success_eq_some.mp hsuccess).2.1 hphase with h | h
      · exact hfresh h
      · simp [hleft] at h
    show stack.answers.filterMap (s.recordedBy name) = _
    rw [ha, List.filterMap_append, List.filterMap_cons_none hnone, List.filterMap_nil,
      List.append_nil]

/-- A connection whose decision is not recorded may go on to any phase but that of a success that
was recorded. -/
theorem RecordsLast.setPhase (h : s.RecordsLast before)
    (hc : s.connections[ack]? = some connection) (hphase : connection.phase.isAnswered = false)
    {phase : ConnectionPhase}
    (hnew : phase.isAnswered → ∀ outcome, (ack, .ok outcome) ∉ s.stack.answers) :
    (s.setPhase ack connection phase).RecordsLast before := by
  refine h.of_recordedBy rfl fun name => ?_
  refine List.filterMap_congr fun answer hanswer => ?_
  by_cases hack : answer.1 = ack
  · obtain ⟨other, verdict⟩ := answer
    change other = ack at hack
    subst hack
    have hbefore : s.recordedBy name (other, verdict) = none := by
      rw [Option.eq_none_iff_forall_ne_some]
      intro stopped hstopped
      obtain ⟨c, hsuccess, hphase', -⟩ := recordedBy_eq_some.mp hstopped
      obtain rfl := Option.some.inj (hc.symm.trans (success_eq_some.mp hsuccess).2.1)
      rw [hphase] at hphase'
      cases hphase'
    rw [hbefore, Option.eq_none_iff_forall_ne_some]
    intro stopped hstopped
    obtain ⟨c, hsuccess, hphase', -⟩ := recordedBy_eq_some.mp hstopped
    obtain ⟨⟨outcome, hverdict⟩, hc', -⟩ := success_eq_some.mp hsuccess
    rw [setPhase, TreeMap.getElem?_insert, if_pos rfl] at hc'
    cases hc'
    cases hverdict
    exact hnew hphase' outcome hanswer
  · exact recordedBy_congr (TreeMap.getElem?_insert_of_ne hack _)

theorem getLast?_append_of_forall {α : Type*} {l l' : List α} {a : α} (h : ∀ b ∈ l', b = a) :
    (l ++ a :: l').getLast? = some a := by
  rw [List.getLast?_append_cons, List.getLast?_cons]
  cases hlast : l'.getLast? with
  | none => rfl
  | some b => rw [h b (List.mem_of_getLast? hlast)]; rfl

/-- A decision is recorded, none of the later ones being of the other kind. -/
theorem RecordsLast.remember (h : s.RecordsLast before) (hserved : s.Served)
    (hc : s.connections[ack]? = some connection) {response : Response}
    (hphase : connection.phase = .deciding response) (hguard : ¬ s.Overtaken ack) :
    RecordsLast { s.setPhase ack connection (.answered response) with
      file := Stopped.record s.file connection.name connection.request.isStop } before := by
  obtain ⟨outcome, hmem⟩ := hserved.deciding ack connection response hc hphase
  obtain ⟨earlier, later, hsplit⟩ := List.append_of_mem hmem
  have hunique : ∀ answer ∈ earlier ++ later, answer.1 ≠ ack := by
    have hnodup := Stack.nodup_answeredAcks hserved.reachable
    rw [Stack.answeredAcks, hsplit, List.map_append, List.map_cons, List.nodup_middle,
      ← List.map_append] at hnodup
    rintro answer hanswer rfl
    exact (List.nodup_cons.mp hnodup).1 (List.mem_map.mpr ⟨answer, hanswer, rfl⟩)
  have hlater' : s.laterAnswers ack = later := by
    rw [laterAnswers, hsplit, List.dropWhile_append_of_pos fun answer hanswer => ?_]
    · simp
    · simpa using hunique answer (List.mem_append_left _ hanswer)
  let t : Clients := { s.setPhase ack connection (.answered response) with
    file := Stopped.record s.file connection.name connection.request.isStop }
  have hself : t.connections[ack]? = some { connection with phase := .answered response } := by
    show (s.connections.insert ack _)[ack]? = _
    rw [TreeMap.getElem?_insert, if_pos rfl]
  have hother : ∀ name, ∀ answer ∈ earlier ++ later,
      t.recordedBy name answer = s.recordedBy name answer := fun name answer hanswer =>
    recordedBy_congr (TreeMap.getElem?_insert_of_ne (hunique answer hanswer) _)
  intro name
  show name ∈ Stopped.read (Stopped.record s.file connection.name connection.request.isStop) ↔
    match (s.stack.answers.filterMap (t.recordedBy name)).getLast? with
    | some stopped => stopped = true
    | none => name ∈ Stopped.read before
  rw [Stopped.mem_read_record (hserved.plain ack connection hc)]
  split_ifs with hname
  · -- The decision is the last one recorded, or the later ones that are do not differ from it.
    subst hname
    have hnew : t.recordedBy connection.name (ack, .ok outcome) = some connection.request.isStop :=
      recordedBy_eq_some.mpr ⟨_, success_eq_some.mpr ⟨⟨outcome, rfl⟩, hself, rfl⟩, rfl, rfl⟩
    have hlater : ∀ stopped ∈ later.filterMap (t.recordedBy connection.name),
        stopped = connection.request.isStop := by
      intro stopped hstopped
      obtain ⟨answer, hanswer, hrecorded⟩ := List.mem_filterMap.mp hstopped
      rw [hother _ answer (List.mem_append_right _ hanswer)] at hrecorded
      obtain ⟨c, hsuccess, hanswered, rfl⟩ := recordedBy_eq_some.mp hrecorded
      by_contra hdiffers
      refine hguard ⟨connection, hc, c, List.mem_filterMap.mpr ⟨answer, ?_, hsuccess⟩, hanswered,
        hdiffers⟩
      rwa [hlater']
    rw [hsplit, List.filterMap_append, List.filterMap_cons_some hnew,
      getLast?_append_of_forall hlater]
  · have hsame : s.stack.answers.filterMap (t.recordedBy name) =
        s.stack.answers.filterMap (s.recordedBy name) := by
      -- The decision is about another service.
      have hnone : ∀ u : Clients, (∀ c, u.connections[ack]? = some c → c.name = connection.name) →
          u.recordedBy name (ack, .ok outcome) = none := by
        intro u hu
        rw [Option.eq_none_iff_forall_ne_some]
        intro stopped hstopped
        obtain ⟨c, hsuccess, -, -⟩ := recordedBy_eq_some.mp hstopped
        obtain ⟨-, hc', rfl⟩ := success_eq_some.mp hsuccess
        exact hname (hu c hc')
      refine List.filterMap_congr fun answer hanswer => ?_
      rw [hsplit] at hanswer
      rcases List.mem_append.mp hanswer with hmem | hmem
      · exact hother name answer (List.mem_append_left _ hmem)
      rcases List.mem_cons.mp hmem with rfl | hmem
      · rw [hnone t fun c hc' => by rw [hself] at hc'; cases hc'; rfl,
          hnone s fun c hc' => by rw [hc] at hc'; cases hc'; rfl]
      · exact hother name answer (List.mem_append_right _ hmem)
    rw [hsame]
    exact h name

/-- What is recorded agrees with the last of the recorded decisions, as long as no decision is
recorded after a later one of the other kind was. -/
theorem RecordsLast.step (h : s.RecordsLast before) (hserved : s.Served) {action : ClientAction}
    (hguard : InOrder s action s') (hstep : s.step action = some s') : s'.RecordsLast before := by
  cases effect_of_step hstep with
  | stack hstack => exact h.stack hserved hstack
  | shared => exact h
  | @sent request known _ stack hstack =>
    have hanswers : stack.answers = s.stack.answers := by
      obtain ⟨-, hstack⟩ := Option.ite_none_right_eq_some.mp hstack
      cases hstack
      rfl
    refine h.of_recordedBy rfl fun name => ?_
    show stack.answers.filterMap _ = _
    rw [hanswers]
    refine List.filterMap_congr fun answer hanswer => recordedBy_congr ?_
    refine TreeMap.getElem?_insert_of_ne (ne_of_lt ?_) _
    exact (Stack.acksUnique_of_reachable hserved.reachable).answered_lt
      (List.mem_map.mpr ⟨answer, hanswer, rfl⟩)
  | @received ack connection verdict hc hphase hanswer =>
    refine h.setPhase hc (by rw [hphase]; rfl) fun hanswered outcome hmem => ?_
    cases verdict with
    | ok _ => cases hanswered
    | error refusal =>
      have hnodup := Stack.nodup_answeredAcks hserved.reachable
      have hsame := List.inj_on_of_nodup_map hnodup hanswer hmem rfl
      cases hsame
  | dropped response hc hphase hnone hleft =>
    refine h.setPhase hc (by rw [hphase]; rfl) fun _ outcome hmem => hnone ?_
    exact List.mem_map.mpr ⟨_, hmem, rfl⟩
  | remembered hc hphase => exact h.remember hserved hc hphase (hguard _ rfl)

theorem served_of_init (hinit : clientSystem.init s) : s.Served := by
  obtain ⟨hstack, hconnections, -⟩ := hinit
  constructor
  case reachable => exact .initial hstack
  all_goals simp [hconnections]

/-- **The remembered decision is the last one**, in every run in which no decision is recorded after
a later one of the other kind about the same service was: once every request was answered, the file
lists a service exactly when the last command on it that was carried out was a stop, and a service
that no such command was about is listed as before. -/
theorem remembersLast_of_steps {s₀ : Clients} (hinit : clientSystem.init s₀)
    (hrun : clientSystem.Steps InOrder s₀ s) (hanswered : s.AllAnswered) :
    s.RemembersLast s₀.file := by
  have hboth : s.Served ∧ s.RecordsLast s₀.file := by
    refine hrun.invariant (I := fun s => s.Served ∧ s.RecordsLast s₀.file)
      ⟨served_of_init hinit, fun name => ?_⟩ fun _ h hguard hstep => ?_
    · obtain ⟨options, config, plan, stopped, hstack⟩ := hinit.1
      simp [hstack, (Stack.unasked_initial options config plan.1 stopped).2.1]
    · exact ⟨h.1.step hstep, h.2.step h.1 hguard hstep⟩
  exact hboth.2.remembersLast hanswered

/-! ### Two runs of the sample clients -/

/-- The clients of the sample stack. The file lists its second service. -/
def sample : Clients where
  stack := sampleStack
  names := [⟨⟨"db"⟩, by decide +kernel⟩, ⟨⟨"web"⟩, by decide +kernel⟩]
  file := some "web\n"
  connections := ∅
  refused := []

theorem init_sample : clientSystem.init sample := ⟨init_sampleStack, rfl, rfl⟩

/-- The first service is stopped, and then started again; neither decision is recorded yet. -/
def stopThenStart : List ClientAction :=
  [.request .stopService "db" true, .stack .control, .stack Stack.sampleEnd, .stack .report,
    .request .startService "db" true, .stack .control, .receive 0, .receive 1]

/-- Whether every request was answered can be read off the list of the connections. -/
theorem allAnswered_of_toList (h : s.connections.toList.all fun entry => entry.2.phase.isAnswered) :
    s.AllAnswered := by
  intro ack connection hc
  exact List.all_eq_true.mp h _ (ExtTreeMap.mem_toList_iff_getElem?_eq_some.mpr hc)

theorem remembersLast_stopThenStart : ∃ s : Clients, s.RemembersLast sample.file ∧
    s.decisions "db" = [true, false] := by
  have hrun : (clientSystem.checkedRun (fun s action => match action with
      | .remember ack => !decide (s.Overtaken ack)
      | _ => true) sample (stopThenStart ++ [.remember 0, .remember 1])).map (fun s => decide
        (s.connections.toList.all (fun entry => entry.2.phase.isAnswered) ∧
          s.decisions "db" = [true, false])) = some true := by
    decide +kernel
  obtain ⟨s, hs, hfacts⟩ := Option.map_eq_some_iff.mp hrun
  obtain ⟨hanswered, hdecisions⟩ := of_decide_eq_true hfacts
  have hsteps : clientSystem.Steps InOrder sample s := by
    refine TransitionSystem.steps_of_checkedRun (fun u action u' hcheck _ => ?_) hs
    rintro ack rfl
    simpa using hcheck
  exact ⟨s, remembersLast_of_steps init_sample hsteps (allAnswered_of_toList hanswered), hdecisions⟩

/-- The connection that started the service records its decision first: the file lists the service
as stopped, which was started last. -/
theorem overtaken_stop_remembered : ∃ s₀ s : Clients, clientSystem.init s₀ ∧
    clientSystem.Steps AnyStep s₀ s ∧ s.AllAnswered ∧ ¬ s.RemembersLast s₀.file := by
  have hrun : (clientSystem.run sample (stopThenStart ++ [.remember 1, .remember 0])).map (fun s =>
      decide (s.connections.toList.all (fun entry => entry.2.phase.isAnswered) ∧
        s.decisions "db" = [true, false] ∧ "db" ∈ Stopped.read s.file)) = some true := by
    decide +kernel
  obtain ⟨s, hs, hfacts⟩ := Option.map_eq_some_iff.mp hrun
  obtain ⟨hanswered, hdecisions, hlisted⟩ := of_decide_eq_true hfacts
  refine ⟨sample, s, init_sample, TransitionSystem.steps_of_run hs,
    allAnswered_of_toList hanswered, fun hlast => ?_⟩
  have hstopped := (hlast "db").mp hlisted
  rw [hdecisions] at hstopped
  cases hstopped

end Clients

end Servicrab
