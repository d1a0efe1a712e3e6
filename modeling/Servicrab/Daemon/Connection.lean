import Servicrab.Daemon.Server
import Servicrab.Library.TransitionSystem

/-!
# A connection of a daemon

What happens on one connection (`server.rs`). A task of its own asks the kernel who connected, refuses
anyone but the user the daemon runs as, and handles the client, while the client sends bytes and hangs
up. Reads and refusals are bounded in time; another write takes as long as the client takes to read it.

## Main definitions

* `Connection`, `Connection.step`: a connection, and what its client and its task do.
* `Connection.Account`: what holds of a connection at any time.
* `Connection.Released`: the task is done, or waits for its client to read.

## Main results

* `Connection.Account.step`: the account holds on.
* `Connection.Account.follows`, `Connection.Account.stranger`: what it says.
* `Connection.released`: no client can keep a task from being released.
-/

open CappedReader (Reader)
open Std (ExtTreeSet)

namespace Servicrab

namespace Server

/-! ### Who is let in -/

/-- What a peer is told that is another user. -/
def wrongUserMessage (ours theirs : ℕ) : String :=
  s!"this daemon runs as uid {ours}; you are uid {theirs} — " ++
    "servicrab only answers the user that started it"

/-- What a peer is told that is not let in, given what the kernel says of it. -/
def refusal (ours : ℕ) (peer : Except String ℕ) : Option String :=
  match peer with
  | .ok uid => if uid = ours then none else some (wrongUserMessage ours uid)
  | .error _ => some "this daemon could not confirm who is connecting"

/-! ### One connection -/

/-- How a task is done with a connection. -/
inductive Departure
  | refused
  /-- A write failed. -/
  | gone
  | ended (ending : Ending)

/-- How far a task is with a connection. -/
inductive ConnectionPhase
  | admitting
  | refusing (message : String)
  | reading (strikes : ℕ)
  /-- An answer is being written, behind which the connection goes on or ends. -/
  | answering (response : Protocol.Response) (next : Except Ending ℕ)
  | streaming (services : ExtTreeSet String) (logs : Bool)
  | finished (departure : Departure)

/-- A connection, with what was done on it. -/
structure Connection where
  peer : Except String ℕ
  phase : ConnectionPhase
  /-- All that the client has sent. -/
  received : List UInt8
  /-- What of it was not read as a line. -/
  pending : List UInt8
  hungUp : Bool
  served : List (List UInt8)
  decoded : List (List Char)
  sent : List Protocol.Response

/-- What happens on a connection. -/
inductive ConnectionAction
  /-- The client sends bytes. -/
  | arrive (bytes : List UInt8)
  | hangUp
  /-- `admit` decides. -/
  | admission
  /-- The refusal is written, or was not read in time. -/
  | refuse (written : Bool)
  | read
  | idle
  /-- Reading fails. -/
  | fail (problem : String)
  /-- The answer is written, or the client is gone. -/
  | wrote (alive : Bool)
  /-- No more events are streamed. -/
  | leave

/-- The task takes it without the client: a timeout ends a read and a refusal. -/
def ConnectionAction.isOwn : ConnectionAction → Bool
  | .admission | .refuse _ | .read | .idle => true
  | _ => false

namespace Connection

/-- A connection that was just accepted. -/
def new (peer : Except String ℕ) : Connection where
  peer := peer
  phase := .admitting
  received := []
  pending := []
  hungUp := false
  served := []
  decoded := []
  sent := []

variable (env : Environment) (ours : ℕ) (c : Connection)

def isLive : Bool := !(c.phase matches .finished _)

/-- A read of a line has come to its end. -/
def readable : Bool :=
  newline ∈ c.pending.take (maxFrame + 1) || c.pending.length > maxFrame || c.hungUp

/-- The task is done with the connection. -/
def finish (departure : Departure) : Connection := { c with phase := .finished departure }

/-- What the loop of `handle_client` makes of a read. -/
def afterRead (strikes : ℕ) (buffer rest : List UInt8) : ReadOutcome → Connection
  | .closed => c.finish (.ended .closed)
  | .tooLong => { c with phase := .answering oversized (.error .tooLong) }
  | .idle => c.finish (.ended .idle)
  | .broken problem => c.finish (.ended (.broken problem))
  | .line =>
    let done := turn env c.served.length strikes buffer
    { c with
      pending := rest
      served := c.served ++ [buffer]
      decoded := c.decoded ++ done.decoded
      phase :=
        match done.sent, done.next with
        | response :: _, next => .answering response next
        | [], .ok strikes => .reading strikes
        | [], .error ending => .finished (.ended ending) }

/-- How a connection goes on behind an answer. -/
def afterAnswer (response : Protocol.Response) (next : Except Ending ℕ) : Connection :=
  { c with
    sent := c.sent ++ [response]
    phase :=
      match next with
      | .ok strikes => .reading strikes
      | .error (.subscribed services logs) => .streaming services logs
      | .error ending => .finished (.ended ending) }

/-- One thing that happens on a connection. -/
def step : ConnectionAction → Option Connection
  | .arrive bytes =>
    if c.isLive ∧ !c.hungUp then
      some { c with received := c.received ++ bytes, pending := c.pending ++ bytes }
    else none
  | .hangUp => if c.isLive then some { c with hungUp := true } else none
  | .admission =>
    match c.phase with
    | .admitting =>
      match refusal ours c.peer with
      | none => some { c with phase := .reading 0 }
      | some message => some { c with phase := .refusing message }
    | _ => none
  | .refuse written =>
    match c.phase with
    | .refusing message => some { c with
        sent := if written then c.sent ++ [failure message] else c.sent
        phase := .finished .refused }
    | _ => none
  | .read =>
    match c.phase with
    | .reading strikes =>
      if c.readable then
        let read := readRequest ⟨c.pending, []⟩
        some (c.afterRead env strikes read.2.1 read.2.2.content read.1)
      else none
    | _ => none
  | .idle =>
    match c.phase with
    | .reading strikes =>
      if c.readable then none
      else some (c.afterRead env strikes [] [] (readOutcome .elapsed c.pending))
    | _ => none
  | .fail problem =>
    match c.phase with
    | .reading strikes =>
      if c.readable then none
      else some (c.afterRead env strikes [] [] (readOutcome (.failed problem) c.pending))
    | _ => none
  | .wrote alive =>
    match c.phase with
    | .answering response next =>
      some (if alive then c.afterAnswer response next else c.finish .gone)
    | _ => none
  | .leave =>
    match c.phase with
    | .streaming services logs => some (c.finish (.ended (.subscribed services logs)))
    | _ => none

/-! ### What holds of a connection -/

/-- Why a connection ends, given what was served of it and what is pending. -/
def Ends (served : List (List UInt8)) (pending : List UInt8) : Ending → Prop
  -- What is pending is no line.
  | .closed | .idle => GoesOn env (sinceUsable env) served ∧ newline ∉ pending ∧
      pending.length ≤ maxFrame
  | .tooLong => GoesOn env (sinceUsable env) served ∧ maxFrame < pending.length ∧
      newline ∉ pending.take (maxFrame + 1)
  | .struckOut => sinceUsable env served = maxMalformed
  | .subscribed services logs => sinceUsable env served < maxMalformed ∧
      ∃ line, served.getLast? = some line ∧ kind env line = .subscription services logs
  | .broken _ | .outOfRounds => False

/-- What is written when a connection does not go on for no line that was read. -/
def closingOf : Except Ending ℕ → List Protocol.Response
  | .ok _ => []
  | .error ending => closing ending

/-- How a connection goes on once some responses are sent. -/
structure Stands (served : List (List UInt8)) (pending : List UInt8) (next : Except Ending ℕ)
    (sent : List Protocol.Response) : Prop where
  /-- Every line is answered in its turn. -/
  sent_eq : sent = answers env 0 served ++ closingOf next
  goesOn : ∀ strikes, next = .ok strikes →
    strikes = sinceUsable env served ∧ GoesOn env (sinceUsable env) served
  ends : ∀ ending, next = .error ending → Ends env served pending ending

/-- An ending that more bytes do not change. -/
def Settled (next : Except Ending ℕ) : Prop :=
  ∀ ending, next = .error ending → ending ≠ .closed ∧ ending ≠ .idle

/-- What holds in each phase. -/
def PhaseAccount : ConnectionPhase → Prop
  | .admitting => c.served = [] ∧ c.sent = []
  | .refusing message => refusal ours c.peer = some message ∧ c.served = [] ∧ c.sent = []
  | .reading strikes => c.peer = .ok ours ∧ Stands env c.served c.pending (.ok strikes) c.sent
  | .answering response next =>
    c.peer = .ok ours ∧ Stands env c.served c.pending next (c.sent ++ [response]) ∧ Settled next
  | .streaming services logs =>
    c.peer = .ok ours ∧ Stands env c.served c.pending (.error (.subscribed services logs)) c.sent
  | .finished .refused => ∃ message, refusal ours c.peer = some message ∧ c.served = [] ∧
      (c.sent = [] ∨ c.sent = [failure message])
  | .finished .gone => c.peer = .ok ours ∧
      ∃ response next, Stands env c.served c.pending next (c.sent ++ [response])
  | .finished (.ended ending) =>
    c.peer = .ok ours ∧ Stands env c.served c.pending (.error ending) c.sent

/-- What holds of a connection at any time. -/
structure Account : Prop where
  received_eq : c.received = c.served.flatten ++ c.pending
  lines : ∀ line ∈ c.served, IsLine line
  /-- Nothing but what was served is decoded. -/
  decoded : ∀ text ∈ c.decoded, ∃ line ∈ c.served, fromUtf8 line = some text
  before : ∀ part, part <+: c.served → part ≠ c.served → GoesOn env (sinceUsable env) part
  phase : c.PhaseAccount env ours c.phase

variable {env ours c} {c' : Connection} {served : List (List UInt8)} {pending : List UInt8}
  {strikes : ℕ} {next : Except Ending ℕ} {sent : List Protocol.Response}

theorem peer_eq_of_refusal {peer : Except String ℕ} (h : refusal ours peer = none) :
    peer = .ok ours := by
  unfold refusal at h
  cases peer with
  | error problem => cases h
  | ok uid =>
    dsimp only at h
    split_ifs at h with huid
    rw [huid]

theorem account_new (env : Environment) (ours : ℕ) (peer : Except String ℕ) :
    (new peer).Account env ours where
  received_eq := rfl
  lines := nofun
  decoded := nofun
  before := fun _ hpart hne => absurd (List.prefix_nil.mp hpart) hne
  phase := ⟨rfl, rfl⟩

/-- What is known of an ending is not changed by more bytes. -/
theorem Stands.arrive (h : Stands env served pending next sent) (hsettled : Settled next)
    (bytes : List UInt8) : Stands env served (pending ++ bytes) next sent where
  sent_eq := h.sent_eq
  goesOn := h.goesOn
  ends := by
    intro ending hnext
    have hends := h.ends ending hnext
    cases ending with
    | closed => exact absurd rfl (hsettled _ hnext).1
    | idle => exact absurd rfl (hsettled _ hnext).2
    | tooLong =>
      obtain ⟨hgoesOn, hlong, hnewline⟩ := hends
      refine ⟨hgoesOn, ?_, ?_⟩
      · rw [List.length_append]
        omega
      · rwa [List.take_append_of_le_length hlong]
    | struckOut | subscribed => exact hends
    | broken | outOfRounds => exact hends

theorem settled_ok (strikes : ℕ) : Settled (.ok strikes) := nofun

theorem settled_error {ending : Ending} (hclosed : ending ≠ .closed) (hidle : ending ≠ .idle) :
    Settled (.error ending) := by
  rintro _ ⟨⟩
  exact ⟨hclosed, hidle⟩

theorem settled_subscribed (services : ExtTreeSet String) (logs : Bool) :
    Settled (.error (.subscribed services logs)) := settled_error (by simp) (by simp)

theorem phaseAccount_arrive {phase : ConnectionPhase} (h : c.PhaseAccount env ours phase)
    (hlive : ∀ departure, phase ≠ .finished departure) (bytes : List UInt8) :
    PhaseAccount env ours
      { c with received := c.received ++ bytes, pending := c.pending ++ bytes } phase := by
  cases phase with
  | admitting | refusing message => exact h
  | reading strikes => exact ⟨h.1, h.2.arrive (settled_ok strikes) bytes⟩
  | answering response next => exact ⟨h.1, h.2.1.arrive h.2.2 bytes, h.2.2⟩
  | streaming services logs => exact ⟨h.1, h.2.arrive (settled_subscribed services logs) bytes⟩
  | finished departure => exact absurd rfl (hlive departure)

theorem ne_finished_of_isLive (h : c.isLive) (departure : Departure) :
    c.phase ≠ .finished departure := by
  intro hphase
  simp [isLive, hphase] at h

/-- More bytes do not change what was done. -/
theorem Account.arrive (h : c.Account env ours) (hlive : c.isLive) (bytes : List UInt8) :
    Account env ours { c with received := c.received ++ bytes, pending := c.pending ++ bytes } where
  received_eq := by
    show c.received ++ bytes = c.served.flatten ++ (c.pending ++ bytes)
    rw [h.received_eq, List.append_assoc]
  lines := h.lines
  decoded := h.decoded
  before := h.before
  phase := phaseAccount_arrive h.phase (ne_finished_of_isLive hlive) bytes

/-! ### Reading -/

/-- What a read of some bytes gives. -/
theorem readRequest_cases (bytes : List UInt8) :
    (∃ line reader, IsLine line ∧ bytes = line ++ reader.content ∧
      readRequest ⟨bytes, []⟩ = (.line, line, reader)) ∨
    newline ∉ bytes.take (maxFrame + 1) ∧ ∃ line reader, readRequest ⟨bytes, []⟩ =
      (if maxFrame < bytes.length then .tooLong else .closed, line, reader) := by
  have hcontent : (⟨bytes, []⟩ : Reader UInt8).content = bytes := by simp [Reader.content]
  by_cases hnewline : newline ∈ bytes.take (maxFrame + 1)
  · obtain ⟨text, more, htake, htext⟩ := List.eq_append_cons_of_mem hnewline
    have hbytes : bytes = text ++ newline :: (more ++ bytes.drop (maxFrame + 1)) := by
      rw [← List.cons_append, ← List.append_assoc, ← htake, List.take_append_drop]
    have hlength : text.length ≤ maxFrame := by
      have hle := List.length_take_le (maxFrame + 1) bytes
      rw [htake, List.length_append, List.length_cons] at hle
      omega
    obtain ⟨reader, hread, hrest⟩ := readRequest_line (hcontent.trans hbytes) htext hlength
    refine .inl ⟨_, reader, ⟨⟨text, rfl, htext⟩, ?_⟩, ?_, hread⟩
    · rw [List.length_append]
      exact Nat.succ_le_succ hlength
    · rw [hrest]
      exact hbytes.trans (List.append_cons _ _ _)
  · have hcut : newline ∉ (⟨bytes, []⟩ : Reader UInt8).content.take (maxFrame + 1) := by
      rwa [hcontent]
    obtain ⟨line, reader, hread⟩ := readRequest_cut hcut
    rw [hcontent] at hread
    exact .inr ⟨hnewline, line, reader, hread⟩

theorem answers_concat (lines : List (List UInt8)) (line : List UInt8) :
    answers env 0 (lines ++ [line]) =
      answers env 0 lines ++ (answer env lines.length line).toList := by
  simp only [answers, List.zipIdx_append, List.filterMap_append, List.zipIdx_singleton,
    List.filterMap_cons, List.filterMap_nil, Nat.zero_add]
  cases answer env lines.length line <;> rfl

/-- How a connection stands behind a line. -/
theorem Stands.line (h : Stands env served pending (.ok strikes) sent) (line rest : List UInt8) :
    Stands env (served ++ [line]) rest (turn env served.length strikes line).next
      (sent ++ (turn env served.length strikes line).sent) := by
  obtain ⟨rfl, hgoesOn⟩ := h.goesOn strikes rfl
  have hsent : sent = answers env 0 served := h.sent_eq.trans (List.append_nil _)
  have hclosing : closingOf (turn env served.length (sinceUsable env served) line).next = [] := by
    rw [turn_next]
    cases kind env line with
    | blank | usable | subscription services logs => rfl
    | unusable =>
      dsimp only [struckOut]
      split_ifs <;> rfl
  refine ⟨?_, fun strikes hnext => ?_, fun ending hnext => ?_⟩
  · rw [turn_sent, hsent, answers_concat, hclosing, List.append_nil]
  · obtain ⟨hstrikes, hfew, hsubscription⟩ := goesOn_of_next hgoesOn.1 hnext
    rw [← sinceUsable_concat] at hstrikes
    refine ⟨hstrikes, hstrikes ▸ hfew, fun line' hline' => ?_⟩
    rcases List.mem_append.mp hline' with hline' | hline'
    · exact hgoesOn.2 line' hline'
    · exact List.mem_singleton.mp hline' ▸ hsubscription
  · rw [turn_next] at hnext
    have hcount : sinceUsable env (served ++ [line]) =
        strikesAfter env (sinceUsable env served) line := sinceUsable_concat served line
    rw [strikesAfter] at hcount
    cases hkind : kind env line with
    | blank | usable => simp [hkind] at hnext
    | unusable =>
      simp only [hkind, struckOut] at hnext hcount
      split_ifs at hnext with hmax
      obtain rfl := Except.error.inj hnext
      exact hcount.trans (Nat.le_antisymm hgoesOn.1 hmax)
    | subscription services logs =>
      simp only [hkind] at hnext hcount
      obtain rfl := Except.error.inj hnext
      exact ⟨by rw [hcount]; decide, line, by simp, hkind⟩

/-- How a connection stands whose pending bytes are no line. -/
theorem Stands.cut (h : Stands env served pending (.ok strikes) sent)
    (hnewline : newline ∉ pending.take (maxFrame + 1)) :
    Stands env served pending
      (.error (if maxFrame < pending.length then .tooLong else .closed))
      (sent ++ if maxFrame < pending.length then [oversized] else []) := by
  obtain ⟨rfl, hgoesOn⟩ := h.goesOn strikes rfl
  have hsent : sent = answers env 0 served := h.sent_eq.trans (List.append_nil _)
  split_ifs with hlong
  · refine ⟨congrArg (· ++ [oversized]) hsent, nofun, ?_⟩
    rintro ending he
    cases he
    exact ⟨hgoesOn, hlong, hnewline⟩
  · rw [List.take_of_length_le (by omega)] at hnewline
    refine ⟨congrArg (· ++ []) hsent, nofun, ?_⟩
    rintro ending he
    cases he
    exact ⟨hgoesOn, hnewline, by omega⟩

/-- A line ends a connection in no way that more bytes could change. -/
theorem settled_turn (n : ℕ) (line : List UInt8) : Settled (turn env n strikes line).next := by
  rw [turn_next]
  cases kind env line with
  | blank | usable => exact settled_ok _
  | unusable =>
    dsimp only [struckOut]
    split_ifs
    · exact settled_error (by simp) (by simp)
    · exact settled_ok _
  | subscription services logs => exact settled_subscribed services logs

/-- A line has one answer at most. -/
theorem turn_sent_cons {n : ℕ} {line : List UInt8} {response : Protocol.Response}
    {more : List Protocol.Response} (hsent : (turn env n strikes line).sent = response :: more) :
    more = [] := by
  rw [turn_sent] at hsent
  cases hanswer : answer env n line with
  | none =>
    rw [hanswer] at hsent
    cases hsent
  | some response =>
    rw [hanswer] at hsent
    exact (List.cons.inj hsent).2.symm

/-! ### Steps -/

/-- What is pending while a read goes on is no line. -/
theorem notMem_of_not_readable (h : c.readable = false) :
    newline ∉ c.pending ∧ c.pending.length ≤ maxFrame := by
  simp only [readable, Bool.or_eq_false_iff, decide_eq_false_iff_not, not_lt, gt_iff_lt] at h
  obtain ⟨⟨hnewline, hlength⟩, -⟩ := h
  rw [List.take_of_length_le (by omega)] at hnewline
  exact ⟨hnewline, hlength⟩

theorem readOutcome_failed (h : newline ∉ c.pending) (hlength : c.pending.length ≤ maxFrame)
    (problem : String) : readOutcome (.failed problem) c.pending = .closed := by
  have hlast : c.pending.getLast? ≠ some newline := fun hlast => h (List.mem_of_getLast? hlast)
  simp only [readOutcome, if_pos hlast, gt_iff_lt, if_neg (not_lt.mpr hlength)]

/-- What a step does to a connection. -/
inductive Moves (env : Environment) (ours : ℕ) (c : Connection) : Connection → Prop
  | arrive (hlive : c.isLive) (bytes : List UInt8) :
    Moves env ours c { c with received := c.received ++ bytes, pending := c.pending ++ bytes }
  | hangUp (hlive : c.isLive) : Moves env ours c { c with hungUp := true }
  | admitted (hphase : c.phase = .admitting) (hpeer : c.peer = .ok ours) :
    Moves env ours c { c with phase := .reading 0 }
  | rejected {message : String} (hphase : c.phase = .admitting)
      (hrefusal : refusal ours c.peer = some message) :
    Moves env ours c { c with phase := .refusing message }
  | refused {message : String} (hphase : c.phase = .refusing message) (written : Bool) :
    Moves env ours c { c with
      sent := if written then c.sent ++ [failure message] else c.sent
      phase := .finished .refused }
  | line {strikes : ℕ} {line rest : List UInt8} (hphase : c.phase = .reading strikes)
      (hline : IsLine line) (hpending : c.pending = line ++ rest) :
    Moves env ours c (c.afterRead env strikes line rest .line)
  /-- The end of what is pending is not that of a line. -/
  | cut {strikes : ℕ} {buffer rest : List UInt8} (hphase : c.phase = .reading strikes)
      (hnewline : newline ∉ c.pending.take (maxFrame + 1)) :
    Moves env ours c (c.afterRead env strikes buffer rest
      (if maxFrame < c.pending.length then .tooLong else .closed))
  /-- A read fails or takes too long. -/
  | unread {strikes : ℕ} {ending : Ending} (hphase : c.phase = .reading strikes)
      (hreadable : c.readable = false) (hending : ending = .closed ∨ ending = .idle) :
    Moves env ours c (c.finish (.ended ending))
  | answered {response : Protocol.Response} {next : Except Ending ℕ}
      (hphase : c.phase = .answering response next) :
    Moves env ours c (c.afterAnswer response next)
  | gone {response : Protocol.Response} {next : Except Ending ℕ}
      (hphase : c.phase = .answering response next) : Moves env ours c (c.finish .gone)
  | left {services : ExtTreeSet String} {logs : Bool} (hphase : c.phase = .streaming services logs) :
    Moves env ours c (c.finish (.ended (.subscribed services logs)))

theorem moves_of_step {action : ConnectionAction} (hstep : c.step env ours action = some c') :
    c.Moves env ours c' := by
  cases action with
  | arrive bytes =>
    obtain ⟨hlive, hstep⟩ := Option.ite_none_right_eq_some.mp hstep
    exact Option.some.inj hstep ▸ .arrive hlive.1 bytes
  | hangUp =>
    obtain ⟨hlive, hstep⟩ := Option.ite_none_right_eq_some.mp hstep
    exact Option.some.inj hstep ▸ .hangUp hlive
  | admission =>
    rw [Connection.step] at hstep
    split at hstep
    · rename_i hphase
      cases hrefusal : refusal ours c.peer with
      | none =>
        rw [hrefusal] at hstep
        exact Option.some.inj hstep ▸ .admitted hphase (peer_eq_of_refusal hrefusal)
      | some message =>
        rw [hrefusal] at hstep
        exact Option.some.inj hstep ▸ .rejected hphase hrefusal
    · cases hstep
  | refuse written =>
    rw [Connection.step] at hstep
    split at hstep
    · rename_i message hphase
      exact Option.some.inj hstep ▸ .refused hphase written
    · cases hstep
  | read =>
    rw [Connection.step] at hstep
    split at hstep
    · rename_i strikes hphase
      obtain ⟨-, hstep⟩ := Option.ite_none_right_eq_some.mp hstep
      obtain ⟨line, reader, hline, hpending, hread⟩ | ⟨hnewline, line, reader, hread⟩ :=
        readRequest_cases c.pending
      · rw [hread] at hstep
        exact Option.some.inj hstep ▸ .line hphase hline hpending
      · rw [hread] at hstep
        exact Option.some.inj hstep ▸ .cut hphase hnewline
    · cases hstep
  | idle =>
    rw [Connection.step] at hstep
    split at hstep
    · rename_i strikes hphase
      split_ifs at hstep with hreadable
      exact Option.some.inj hstep ▸ .unread hphase (Bool.eq_false_iff.mpr hreadable) (.inr rfl)
    · cases hstep
  | fail problem =>
    rw [Connection.step] at hstep
    split at hstep
    · rename_i strikes hphase
      split_ifs at hstep with hreadable
      have hunread := Bool.eq_false_iff.mpr hreadable
      obtain ⟨hnewline, hlength⟩ := notMem_of_not_readable hunread
      rw [readOutcome_failed hnewline hlength] at hstep
      exact Option.some.inj hstep ▸ .unread hphase hunread (.inl rfl)
    · cases hstep
  | wrote alive =>
    rw [Connection.step] at hstep
    split at hstep
    · rename_i response next hphase
      obtain rfl := Option.some.inj hstep
      split_ifs
      · exact .answered hphase
      · exact .gone hphase
    · cases hstep
  | leave =>
    rw [Connection.step] at hstep
    split at hstep
    · rename_i services logs hphase
      exact Option.some.inj hstep ▸ .left hphase
    · cases hstep

/-! ### The account of a connection -/

/-- Nothing is read or written. -/
theorem Account.of_phase (h : c.Account env ours) {phase : ConnectionPhase}
    (sent : List Protocol.Response)
    (hphase : PhaseAccount env ours { c with phase := phase, sent := sent } phase) :
    Account env ours { c with phase := phase, sent := sent } :=
  ⟨h.received_eq, h.lines, h.decoded, h.before, hphase⟩

theorem Account.phase_eq (h : c.Account env ours) {phase : ConnectionPhase}
    (hphase : c.phase = phase) : c.PhaseAccount env ours phase := hphase ▸ h.phase

/-- A line is read. -/
theorem Account.line (h : c.Account env ours) (hphase : c.phase = .reading strikes)
    {line rest : List UInt8} (hline : IsLine line) (hpending : c.pending = line ++ rest) :
    (c.afterRead env strikes line rest .line).Account env ours := by
  obtain ⟨hpeer, hstands⟩ := h.phase_eq hphase
  have hnext := hstands.line line rest
  have hsettled : Settled (turn env c.served.length strikes line).next := settled_turn _ line
  refine ⟨?_, ?_, ?_, ?_, ?_⟩
  · show c.received = (c.served ++ [line]).flatten ++ rest
    rw [h.received_eq, hpending]
    simp
  · exact List.forall_mem_append.mpr ⟨h.lines, List.forall_mem_singleton.mpr hline⟩
  · intro text htext
    rcases List.mem_append.mp htext with htext | htext
    · obtain ⟨line', hline', hutf⟩ := h.decoded text htext
      exact ⟨line', List.mem_append_left _ hline', hutf⟩
    · exact ⟨line, List.mem_append_right _ (List.mem_singleton_self line), turn_decoded htext⟩
  · intro part hpart hne
    rcases List.prefix_concat_iff.mp hpart with he | hpart
    · exact absurd he hne
    · by_cases he : part = c.served
      · exact he ▸ (hstands.goesOn strikes rfl).2
      · exact h.before part hpart he
  · rw [afterRead]
    dsimp only
    cases hsent : (turn env c.served.length strikes line).sent with
    | nil =>
      rw [hsent, List.append_nil] at hnext
      cases hcase : (turn env c.served.length strikes line).next with
      | ok strikes => exact ⟨hpeer, hcase ▸ hnext⟩
      | error ending => exact ⟨hpeer, hcase ▸ hnext⟩
    | cons response more =>
      rw [hsent, turn_sent_cons hsent] at hnext
      exact ⟨hpeer, hnext, hsettled⟩

/-- Reading comes to an end in another way. -/
theorem Account.cut (h : c.Account env ours) (hphase : c.phase = .reading strikes)
    {buffer rest : List UInt8} (hnewline : newline ∉ c.pending.take (maxFrame + 1)) :
    (c.afterRead env strikes buffer rest
      (if maxFrame < c.pending.length then .tooLong else .closed)).Account env ours := by
  obtain ⟨hpeer, hstands⟩ := h.phase_eq hphase
  have hcut := hstands.cut hnewline
  split_ifs at hcut ⊢ with hlong
  · exact h.of_phase _ ⟨hpeer, hcut, settled_error (by simp) (by simp)⟩
  · rw [List.append_nil] at hcut
    exact h.of_phase _ ⟨hpeer, hcut⟩

/-- A read that fails or takes too long has brought no line. -/
theorem Account.unread (h : c.Account env ours) (hphase : c.phase = .reading strikes)
    (hreadable : c.readable = false) {ending : Ending} (hending : ending = .closed ∨ ending = .idle) :
    (c.finish (.ended ending)).Account env ours := by
  obtain ⟨hpeer, hstands⟩ := h.phase_eq hphase
  obtain ⟨-, hgoesOn⟩ := hstands.goesOn strikes rfl
  obtain ⟨hnewline, hlength⟩ := notMem_of_not_readable hreadable
  refine h.of_phase _ ⟨hpeer, hstands.sent_eq.trans ?_, nofun, ?_⟩
  · rcases hending with rfl | rfl
    · rfl
    · rfl
  · rintro other he
    cases he
    rcases hending with rfl | rfl
    · exact ⟨hgoesOn, hnewline, hlength⟩
    · exact ⟨hgoesOn, hnewline, hlength⟩

theorem Account.answered (h : c.Account env ours) {response : Protocol.Response}
    (hphase : c.phase = .answering response next) :
    (c.afterAnswer response next).Account env ours := by
  obtain ⟨hpeer, hstands, -⟩ := h.phase_eq hphase
  refine h.of_phase _ ?_
  cases next with
  | ok strikes => exact ⟨hpeer, hstands⟩
  | error ending => cases ending <;> exact ⟨hpeer, hstands⟩

theorem Account.admitted (h : c.Account env ours) (hphase : c.phase = .admitting)
    (hpeer : c.peer = .ok ours) : Account env ours { c with phase := .reading 0 } := by
  obtain ⟨hserved, hsent⟩ := h.phase_eq hphase
  refine h.of_phase c.sent ⟨hpeer, ?_, ?_, nofun⟩
  · show c.sent = answers env 0 c.served ++ []
    rw [hsent, hserved]
    rfl
  · rintro strikes he
    cases he
    show 0 = sinceUsable env c.served ∧ GoesOn env (sinceUsable env) c.served
    rw [hserved]
    exact ⟨rfl, goesOn_nil (show 0 < maxMalformed by decide)⟩

theorem Account.refused (h : c.Account env ours) {message : String}
    (hphase : c.phase = .refusing message) (written : Bool) :
    Account env ours { c with
      sent := if written then c.sent ++ [failure message] else c.sent
      phase := .finished .refused } := by
  obtain ⟨hrefusal, hserved, hsent⟩ := h.phase_eq hphase
  refine h.of_phase _ ⟨message, hrefusal, hserved, ?_⟩
  show (if written then c.sent ++ [failure message] else c.sent) = [] ∨ _ = _
  rw [hsent]
  cases written
  · exact .inl rfl
  · exact .inr rfl

/-- Whatever happens on a connection, the account of it holds on. -/
theorem Account.step (h : c.Account env ours) {action : ConnectionAction}
    (hstep : c.step env ours action = some c') : c'.Account env ours := by
  cases moves_of_step hstep with
  | arrive hlive bytes => exact h.arrive hlive bytes
  | hangUp hlive => exact ⟨h.received_eq, h.lines, h.decoded, h.before, h.phase⟩
  | admitted hphase hpeer => exact h.admitted hphase hpeer
  | rejected hphase hrefusal => exact h.of_phase c.sent ⟨hrefusal, h.phase_eq hphase⟩
  | refused hphase written => exact h.refused hphase written
  | line hphase hline hpending => exact h.line hphase hline hpending
  | cut hphase hnewline => exact h.cut hphase hnewline
  | unread hphase hreadable hending => exact h.unread hphase hreadable hending
  | answered hphase => exact h.answered hphase
  | gone hphase =>
    obtain ⟨hpeer, hstands, -⟩ := h.phase_eq hphase
    exact h.of_phase c.sent ⟨hpeer, _, _, hstands⟩
  | left hphase => exact h.of_phase c.sent (h.phase_eq hphase)

/-! ### What the account says -/

/-- Lines and what is no line yet. -/
theorem complete_flatten_append {lines : List (List UInt8)} (h : ∀ line ∈ lines, IsLine line)
    (bytes : List UInt8) :
    Lines.complete newline (lines.flatten ++ bytes) = lines ++ Lines.complete newline bytes ∧
      Lines.rest newline (lines.flatten ++ bytes) = Lines.rest newline bytes := by
  induction lines with
  | nil => exact ⟨rfl, rfl⟩
  | cons line lines ih =>
    rw [List.forall_mem_cons] at h
    obtain ⟨hcomplete, hrest⟩ := h.1.complete_append (lines.flatten ++ bytes)
    rw [List.flatten_cons, List.append_assoc, hcomplete, hrest, (ih h.2).1, (ih h.2).2]
    exact ⟨rfl, rfl⟩

/-- A connection that is over and was not idle has followed the rules of a connection that is alone,
on all that its client has sent. -/
theorem Account.follows (h : c.Account env ours) {ending : Ending}
    (hphase : c.phase = .finished (.ended ending)) (hidle : ending ≠ .idle) :
    Follows env 0 (sinceUsable env) c.received ⟨c.decoded, c.sent, ending⟩ c.served := by
  obtain ⟨-, hstands⟩ := h.phase_eq hphase
  obtain ⟨hcomplete, hrest⟩ := complete_flatten_append h.lines c.pending
  rw [← h.received_eq] at hcomplete hrest
  refine ⟨?_, fun line hline => (h.lines line hline).short, hstands.sent_eq, h.decoded, h.before, ?_⟩
  · rw [hcomplete]
    exact List.prefix_append _ _
  · have hends := hstands.ends ending rfl
    cases ending with
    | closed =>
      obtain ⟨hgoesOn, hnewline, hlength⟩ := hends
      have hscan : Lines.scan newline [] c.pending = ([], [] ++ c.pending) :=
        Lines.scan_of_notMem hnewline
      have hnone : Lines.complete newline c.pending = [] := congrArg Prod.fst hscan
      have hall : Lines.rest newline c.pending = c.pending := congrArg Prod.snd hscan
      refine ⟨hgoesOn, ?_, ?_⟩
      · rw [hcomplete, hnone, List.append_nil]
      · rwa [hrest, hall]
    | idle => exact absurd rfl hidle
    | tooLong =>
      show GoesOn _ _ _ ∧ _ < (c.received.drop _).length ∧ _ ∉ (c.received.drop _).take _
      rwa [h.received_eq, List.drop_left]
    | struckOut | subscribed => exact hends
    | broken | outOfRounds => exact hends.elim

/-- Nothing of a stranger is served, and it is told no more than why. -/
theorem Account.stranger (h : c.Account env ours) (hpeer : c.peer ≠ .ok ours) :
    c.served = [] ∧ c.decoded = [] ∧ ∃ message, refusal ours c.peer = some message ∧
      (c.sent = [] ∨ c.sent = [failure message]) := by
  obtain ⟨message, hmessage⟩ : ∃ message, refusal ours c.peer = some message :=
    Option.ne_none_iff_exists'.mp fun hnone => hpeer (peer_eq_of_refusal hnone)
  have hall : c.served = [] ∧ (c.sent = [] ∨ c.sent = [failure message]) := by
    cases hphase : c.phase with
    | admitting =>
      obtain ⟨hserved, hsent⟩ := h.phase_eq hphase
      exact ⟨hserved, .inl hsent⟩
    | refusing message =>
      obtain ⟨-, hserved, hsent⟩ := h.phase_eq hphase
      exact ⟨hserved, .inl hsent⟩
    | reading strikes | answering response next | streaming services logs =>
      exact absurd (h.phase_eq hphase).1 hpeer
    | finished departure =>
      cases departure with
      | refused =>
        obtain ⟨told, htold, hserved, hsent⟩ := h.phase_eq hphase
        rw [hmessage] at htold
        exact ⟨hserved, Option.some.inj htold ▸ hsent⟩
      | gone | ended ending => exact absurd (h.phase_eq hphase).1 hpeer
  refine ⟨hall.1, List.eq_nil_iff_forall_not_mem.mpr fun text htext => ?_, message, hmessage, hall.2⟩
  obtain ⟨line, hline, -⟩ := h.decoded text htext
  rw [hall.1] at hline
  cases hline

/-! ### Places -/

theorem isLive_of_step {action : ConnectionAction} (hstep : c.step env ours action = some c') :
    c.isLive := by
  cases moves_of_step hstep with
  | arrive hlive | hangUp hlive => exact hlive
  | admitted hphase | rejected hphase | refused hphase | line hphase | cut hphase | unread hphase
  | answered hphase | gone hphase | left hphase =>
    rw [isLive, hphase]
    rfl

theorem peer_step {action : ConnectionAction} (hstep : c.step env ours action = some c') :
    c'.peer = c.peer := by
  cases moves_of_step hstep with
  | cut =>
    split_ifs
    · rfl
    · rfl
  | _ => rfl

end Connection

/-- A connection of its own, with what it is answered. -/
def connectionSystem (env : Environment) (ours : ℕ) :
    TransitionSystem Connection ConnectionAction where
  init c := ∃ peer, c = .new peer
  step c := c.step env ours

namespace Connection

variable {env : Environment} {ours strikes : ℕ} {c c' : Connection}

/-- The client is let in. -/
def isOurs (ours : ℕ) (c : Connection) : Bool := (refusal ours c.peer).isNone

/-- The task waits for the client to take an answer, or streams events to it. -/
def isHeld (c : Connection) : Bool := c.phase matches .answering .. | .streaming ..

theorem Account.peer_eq_of_isHeld (h : c.Account env ours) (hheld : c.isHeld) :
    c.peer = .ok ours := by
  cases hphase : c.phase with
  | answering response next | streaming services logs => exact (h.phase_eq hphase).1
  | admitting | refusing message | reading strikes | finished departure =>
    rw [isHeld, hphase] at hheld
    cases hheld

/-- Steps that a task takes without the client, after which it is done or waits for the client to
read. -/
def Released (env : Environment) (ours : ℕ) (c : Connection) : Prop :=
  ∃ c', (connectionSystem env ours).Steps (fun _ action _ => action.isOwn) c c' ∧
    (c'.isLive → c'.isHeld)

theorem released_of_finished {departure : Departure} (h : c.phase = .finished departure) :
    c.Released env ours :=
  ⟨c, .refl c, fun hlive => absurd h (ne_finished_of_isLive hlive departure)⟩

theorem released_of_isHeld (h : c.isHeld) : c.Released env ours := ⟨c, .refl c, fun _ => h⟩

theorem Released.of_step {action : ConnectionAction} (h : c'.Released env ours)
    (hown : action.isOwn) (hstep : c.step env ours action = some c') : c.Released env ours := by
  obtain ⟨c'', hsteps, hheld⟩ := h
  have hfirst : (connectionSystem env ours).Steps (fun _ action _ => action.isOwn) c c' :=
    (TransitionSystem.Steps.refl c).tail ⟨action, hown, hstep⟩
  exact ⟨c'', hfirst.trans hsteps, hheld⟩

/-- Lines are served as long as they need no answer; then the client has to read one, or has nothing
more to be read in time. -/
theorem released_of_reading (hphase : c.phase = .reading strikes) : c.Released env ours := by
  induction hn : c.pending.length using Nat.strong_induction_on generalizing c strikes with
  | _ n ih =>
  cases hreadable : c.readable with
  | false =>
    have hstep : c.step env ours .idle = some (c.finish (.ended .idle)) := by
      rw [step, hphase]
      exact if_neg (Bool.eq_false_iff.mp hreadable)
    exact (released_of_finished rfl).of_step rfl hstep
  | true =>
    have hstep : c.step env ours .read = some
        (c.afterRead env strikes (readRequest ⟨c.pending, []⟩).2.1
          (readRequest ⟨c.pending, []⟩).2.2.content (readRequest ⟨c.pending, []⟩).1) := by
      rw [step, hphase]
      exact if_pos hreadable
    obtain ⟨line, reader, hline, hpending, hread⟩ | ⟨-, line, reader, hread⟩ :=
      readRequest_cases c.pending
    · rw [hread] at hstep
      refine Released.of_step ?_ rfl hstep
      have hshorter : reader.content.length < n := by
        obtain ⟨text, rfl, -⟩ := hline.exists_text
        rw [← hn, hpending, List.length_append, List.length_append, List.length_singleton]
        omega
      rw [afterRead]
      dsimp only
      cases (turn env c.served.length strikes line).sent with
      | cons response more => exact released_of_isHeld rfl
      | nil =>
        cases (turn env c.served.length strikes line).next with
        | ok strikes => exact ih _ hshorter rfl rfl
        | error ending => exact released_of_finished rfl
    · rw [hread] at hstep
      refine Released.of_step ?_ rfl hstep
      split_ifs
      · exact released_of_isHeld rfl
      · exact released_of_finished rfl

/-- No client can keep a task from coming this far. -/
theorem released (env : Environment) (ours : ℕ) (c : Connection) : c.Released env ours := by
  have hrefusing {c : Connection} {message : String} (hphase : c.phase = .refusing message) :
      c.Released env ours := by
    have hstep : c.step env ours (.refuse false) =
        some { c with sent := c.sent, phase := .finished .refused } := by
      rw [step, hphase]
      rfl
    exact (released_of_finished rfl).of_step rfl hstep
  cases hphase : c.phase with
  | admitting =>
    cases hrefusal : refusal ours c.peer with
    | none =>
      have hstep : c.step env ours .admission = some { c with phase := .reading 0 } := by
        rw [step, hphase]
        dsimp only
        rw [hrefusal]
      exact (released_of_reading rfl).of_step rfl hstep
    | some message =>
      have hstep : c.step env ours .admission = some { c with phase := .refusing message } := by
        rw [step, hphase]
        dsimp only
        rw [hrefusal]
      exact (hrefusing rfl).of_step rfl hstep
  | refusing message => exact hrefusing hphase
  | reading strikes => exact released_of_reading hphase
  | answering response next | streaming services logs =>
    exact released_of_isHeld (by rw [isHeld, hphase])
  | finished departure => exact released_of_finished hphase

end Connection

end Server

end Servicrab
