import Servicrab.Daemon.Stopped
import Servicrab.Library.CappedReader
import Servicrab.Protocol.Frame

/-!
# A connection of a client

A connection is read line by line, under a cap on the length of a line. Each line is answered, and a
connection with too many lines in a row that the daemon can do nothing with is closed
(`server.rs`). No read and no write fails here, and no read takes too long. What a request is
answered depends on the other connections too, so that it is given for each line.

## Main definitions

* `readRequest`, `turn`, `handleClient`.
* `Kind`, `kind`, `answer`, `sinceUsable`.

## Main results

* `handleClient_follows`: the protocol of a connection.
-/

open CappedReader (Reader readUntil upTo)
open Std (ExtTreeSet)

namespace Servicrab

namespace Server

/-- How many bytes a request may have before its newline. -/
def maxFrame : ℕ := 64 * 1024

/-- How many requests a client may send that cannot be acted on. -/
def maxMalformed : ℕ := 3

def newline : UInt8 := 10

/-! ### Reading a line -/

/-- How a read under a timeout ended. -/
inductive ReadResult
  | read (n : ℕ)
  | failed (problem : String)
  | elapsed

/-- What one attempt to read a request produced. -/
inductive ReadOutcome
  | line
  | closed
  | tooLong
  | idle
  | broken (problem : String)
  deriving DecidableEq

/-- What the end of a read makes of the line so far. -/
def readOutcome (result : ReadResult) (line : List UInt8) : ReadOutcome :=
  let cut := if line.length > maxFrame then ReadOutcome.tooLong else .closed
  match result with
  | .read n =>
    if n = 0 ∧ line = [] then .closed
    else if line.getLast? ≠ some newline then cut
    else .line
  | .failed problem => if line.getLast? ≠ some newline then cut else .broken problem
  | .elapsed => .idle

/-- Read one request line, bounded in size. -/
def readRequest (reader : Reader UInt8) : ReadOutcome × List UInt8 × Reader UInt8 :=
  let (line, reader) := readUntil newline (maxFrame + 2) (maxFrame + 1) [] reader
  (readOutcome (.read line.length) line, line, reader)

/-! ### Answering a line -/

/-- `str::from_utf8`. -/
def fromUtf8 (bytes : List UInt8) : Option (List Char) :=
  (String.fromUTF8? ⟨bytes.toArray⟩).map String.toList

/-- What the connection relies on: the JSON library with the texts of its errors, and what the
session answers to the request on a line, with its number and the tag it claims. -/
structure Environment where
  format : Json.Format
  describe : Serde.Error → String
  respond : ℕ → Protocol.Request → Option String → Protocol.Response

/-- Why a connection ended. -/
inductive Ending
  | closed
  | tooLong
  | idle
  | broken (problem : String)
  | struckOut
  /-- It is only written to from here on. -/
  | subscribed (services : ExtTreeSet String) (logs : Bool)
  /-- More lines than rounds were granted. -/
  | outOfRounds

/-- What was done with one line: what was decoded, what was written, and how many strikes there are
now, unless the connection ends. -/
structure Turn where
  decoded : List (List Char)
  sent : List Protocol.Response
  next : Except Ending ℕ

/-- Count one request the daemon could not act on. -/
def struckOut (strikes : ℕ) : Except Ending ℕ :=
  if strikes + 1 ≥ maxMalformed then .error .struckOut else .ok (strikes + 1)

/-- A failure without a code of its own. -/
def failure (message : String) : Protocol.Response := .error .failed message []

/-- The answer to a subscription. -/
def hello : Protocol.Response := .ok none none (some Protocol.schemaVersion)

def notUtf8 : Protocol.Response := failure "a request must be valid UTF-8"

/-- The answer to a line that is too long. -/
def oversized : Protocol.Response := failure s!"a request may not exceed {maxFrame} bytes"

variable (env : Environment)

/-- The answer to a line that is no request. -/
def malformed (err : Protocol.FrameError) : Protocol.Response := failure (err.toString env.describe)

/-- One round of the loop of `handle_client`, once a line was read. -/
def turn (n strikes : ℕ) (buffer : List UInt8) : Turn :=
  match fromUtf8 buffer with
  | none => ⟨[], [notUtf8], struckOut strikes⟩
  | some line =>
    if trim line = [] then ⟨[], [], .ok strikes⟩
    else
      match Protocol.decode Protocol.Request env.format line with
      | .error err => ⟨[line], [malformed env err], struckOut strikes⟩
      | .ok (.subscribe services logs) => ⟨[line], [hello], .error (.subscribed services logs)⟩
      | .ok request =>
        let unusable := request matches .unknown
        let strikes := if unusable then strikes else 0
        let response := env.respond n request (Protocol.tag env.format line)
        ⟨[line], [response], if unusable then struckOut strikes else .ok strikes⟩

/-- What happened on a connection. -/
structure Conversation where
  decoded : List (List Char)
  sent : List Protocol.Response
  ending : Ending

/-- The loop of `handle_client`, from a line on, in no more rounds than are granted. -/
def handleFrom : ℕ → ℕ → ℕ → Reader UInt8 → Conversation
  | 0, _, _, _ => ⟨[], [], .outOfRounds⟩
  | rounds + 1, n, strikes, reader =>
    match readRequest reader with
    | (.closed, _, _) => ⟨[], [], .closed⟩
    | (.tooLong, _, _) => ⟨[], [oversized], .tooLong⟩
    | (.idle, _, _) => ⟨[], [], .idle⟩
    | (.broken problem, _, _) => ⟨[], [], .broken problem⟩
    | (.line, buffer, reader) =>
      let done := turn env n strikes buffer
      match done.next with
      | .error ending => ⟨done.decoded, done.sent, ending⟩
      | .ok strikes =>
        let rest := handleFrom rounds (n + 1) strikes reader
        ⟨done.decoded ++ rest.decoded, done.sent ++ rest.sent, rest.ending⟩

/-- Handle a client whose bytes come in pieces. -/
def handleClient (pieces : List { piece : List UInt8 // piece ≠ [] }) : Conversation :=
  handleFrom env ((pieces.map (·.1)).flatten.length + 1) 0 0 ⟨[], pieces⟩

/-! ### What a line is, and how it is answered -/

/-- What the daemon can do with a line. -/
inductive Kind
  | blank
  /-- It is not UTF-8, cannot be decoded, or is a request the daemon has no name for. -/
  | unusable
  | usable
  | subscription (services : ExtTreeSet String) (logs : Bool)

/-- The kind of a line, with its newline. -/
def kind (line : List UInt8) : Kind :=
  match fromUtf8 line with
  | none => .unusable
  | some text =>
    if trim text = [] then .blank
    else
      match Protocol.decode Protocol.Request env.format text with
      | .error _ | .ok .unknown => .unusable
      | .ok (.subscribe services logs) => .subscription services logs
      | .ok _ => .usable

/-- The one answer to a line, if it is not blank. -/
def answer (n : ℕ) (line : List UInt8) : Option Protocol.Response :=
  match fromUtf8 line with
  | none => some notUtf8
  | some text =>
    if trim text = [] then none
    else
      match Protocol.decode Protocol.Request env.format text with
      | .error err => some (malformed env err)
      | .ok (.subscribe _ _) => some hello
      | .ok request => some (env.respond n request (Protocol.tag env.format text))

/-- The answers to lines, from a number on. -/
def answers (n : ℕ) (lines : List (List UInt8)) : List Protocol.Response :=
  (lines.zipIdx n).filterMap fun (line, n) => answer env n line

def isBlank (line : List UInt8) : Bool := kind env line matches .blank

def isUnusable (line : List UInt8) : Bool := kind env line matches .unusable

def isUsable (line : List UInt8) : Bool := kind env line matches .usable | .subscription ..

def isSubscription (line : List UInt8) : Bool := kind env line matches .subscription ..

/-- The number of unusable lines since the last usable one. -/
def sinceUsable (lines : List (List UInt8)) : ℕ :=
  (lines.reverse.takeWhile fun line => !isUsable env line).countP (isUnusable env)

/-- What is written when a connection ends for no line that was read. -/
def closing : Ending → List Protocol.Response
  | .tooLong => [oversized]
  | _ => []

/-- The strikes once a line was handled. -/
def strikesAfter (strikes : ℕ) (line : List UInt8) : ℕ :=
  match kind env line with
  | .blank => strikes
  | .unusable => strikes + 1
  | .usable | .subscription .. => 0

variable {env} {n strikes : ℕ} {line : List UInt8}

/-- The kind of a line tells how the loop goes on, and whether there is an answer. -/
theorem turn_spec (env : Environment) (n strikes : ℕ) (line : List UInt8) :
    (turn env n strikes line).sent = (answer env n line).toList ∧
      (turn env n strikes line).next =
        (match kind env line with
        | .blank => .ok strikes
        | .unusable => struckOut strikes
        | .usable => .ok 0
        | .subscription services logs => .error (.subscribed services logs)) ∧
      (answer env n line).isSome = !isBlank env line := by
  rw [turn, answer, isBlank, kind]
  rcases fromUtf8 line with _ | text
  · exact ⟨rfl, rfl, rfl⟩
  · dsimp only
    split_ifs
    · exact ⟨rfl, rfl, rfl⟩
    · rcases Protocol.decode Protocol.Request env.format text with err | request
      · exact ⟨rfl, rfl, rfl⟩
      · cases request <;> exact ⟨rfl, rfl, rfl⟩

theorem turn_sent : (turn env n strikes line).sent = (answer env n line).toList :=
  (turn_spec env n strikes line).1

theorem turn_next : (turn env n strikes line).next =
    match kind env line with
    | .blank => .ok strikes
    | .unusable => struckOut strikes
    | .usable => .ok 0
    | .subscription services logs => .error (.subscribed services logs) :=
  (turn_spec env n strikes line).2.1

theorem isSome_answer : (answer env n line).isSome = !isBlank env line :=
  (turn_spec env n 0 line).2.2

/-- What is decoded is the text of the line. -/
theorem turn_decoded {text : List Char} :
    text ∈ (turn env n strikes line).decoded → fromUtf8 line = some text := by
  rw [turn]
  rcases fromUtf8 line with _ | text'
  · nofun
  · dsimp only
    split_ifs
    · nofun
    · rcases Protocol.decode Protocol.Request env.format text' with err | request
      · exact fun h => by rw [List.mem_singleton.mp h]
      · cases request <;> exact fun h => by rw [List.mem_singleton.mp h]

/-! ### What a read gives -/

/-- A read goes up to the newline or the cap. -/
theorem exists_readRequest {reader : Reader UInt8} {line : List UInt8}
    (hline : upTo newline (reader.content.take (maxFrame + 1)) = line) :
    ∃ reader', readRequest reader = (readOutcome (.read line.length) line, line, reader') ∧
      reader'.content = reader.content.drop line.length := by
  obtain ⟨hread, hcontent⟩ :
      (readUntil newline (maxFrame + 2) (maxFrame + 1) [] reader).1 =
        [] ++ upTo newline (reader.content.take (maxFrame + 1)) ∧
      (readUntil newline (maxFrame + 2) (maxFrame + 1) [] reader).2.content =
        reader.content.drop (upTo newline (reader.content.take (maxFrame + 1))).length :=
    CappedReader.readUntil_eq (Nat.lt_succ_self (maxFrame + 1))
  rw [List.nil_append, hline] at hread
  rw [hline] at hcontent
  refine ⟨(readUntil newline (maxFrame + 2) (maxFrame + 1) [] reader).2, ?_, hcontent⟩
  have hpair : readRequest reader =
      (readOutcome (.read (readUntil newline (maxFrame + 2) (maxFrame + 1) [] reader).1.length)
        (readUntil newline (maxFrame + 2) (maxFrame + 1) [] reader).1,
        readUntil newline (maxFrame + 2) (maxFrame + 1) [] reader) := rfl
  rw [hpair, hread]
  exact congrArg (Prod.mk _) (Prod.ext hread rfl)

/-- A line is read when its newline comes within the cap. -/
theorem readRequest_line {reader : Reader UInt8} {text rest : List UInt8}
    (hcontent : reader.content = text ++ newline :: rest) (hnewline : newline ∉ text)
    (hlength : text.length ≤ maxFrame) :
    ∃ reader', readRequest reader = (.line, text ++ [newline], reader') ∧
      reader'.content = rest := by
  have htake : reader.content.take (maxFrame + 1) =
      text ++ newline :: rest.take (maxFrame - text.length) := by
    rw [hcontent, List.take_append, List.take_of_length_le (by omega),
      Nat.succ_sub hlength, List.take_succ_cons]
  obtain ⟨reader', hread, hrest⟩ := exists_readRequest
    ((congrArg (upTo newline) htake).trans (CappedReader.upTo_append_cons hnewline))
  refine ⟨reader', ?_, ?_⟩
  · rw [hread]
    simp [readOutcome]
  · rw [hrest, hcontent, List.append_cons text newline rest, List.drop_left]

/-- Otherwise it is too long, or the client went away. -/
theorem readRequest_cut {reader : Reader UInt8}
    (hnewline : newline ∉ reader.content.take (maxFrame + 1)) :
    ∃ line reader', readRequest reader =
      (if maxFrame < reader.content.length then .tooLong else .closed, line, reader') := by
  have hself : upTo newline (reader.content.take (maxFrame + 1)) =
      reader.content.take (maxFrame + 1) := by
    have hpast : upTo newline (reader.content.take (maxFrame + 1) ++ []) =
        reader.content.take (maxFrame + 1) ++ upTo newline [] :=
      CappedReader.upTo_of_notMem hnewline
    simpa [upTo] using hpast
  obtain ⟨reader', hread, -⟩ := exists_readRequest hself
  refine ⟨reader.content.take (maxFrame + 1), reader', ?_⟩
  rw [hread]
  have hlast : (reader.content.take (maxFrame + 1)).getLast? ≠ some newline :=
    fun hlast => hnewline (List.mem_of_getLast? hlast)
  have hlength : (reader.content.take (maxFrame + 1)).length > maxFrame ↔
      maxFrame < reader.content.length := by
    rw [List.length_take]
    omega
  simp only [readOutcome, if_pos hlast, hlength]
  by_cases hlong : maxFrame < reader.content.length
  · have hne : ¬ ((reader.content.take (maxFrame + 1)).length = 0 ∧
        reader.content.take (maxFrame + 1) = []) := fun hempty => by
      have hgt := hlength.mpr hlong
      omega
    rw [if_neg hne]
  · simp only [if_neg hlong, ite_self]

/-! ### The protocol -/

/-- The connection goes on behind these lines. -/
def GoesOn (env : Environment) (count : List (List UInt8) → ℕ) (served : List (List UInt8)) : Prop :=
  count served < maxMalformed ∧ ∀ line ∈ served, ¬ isSubscription env line

/-- Why a connection that has served some of its lines has ended, given how strikes are counted. -/
def EndsAs (env : Environment) (count : List (List UInt8) → ℕ) (bytes : List UInt8)
    (served : List (List UInt8)) : Ending → Prop
  -- All lines are served, and what remains is no line.
  | .closed => GoesOn env count served ∧ served = Lines.complete newline bytes ∧
      (Lines.rest newline bytes).length ≤ maxFrame
  -- What comes next has no newline up to the cap.
  | .tooLong => GoesOn env count served ∧
      maxFrame < (bytes.drop served.flatten.length).length ∧
      newline ∉ (bytes.drop served.flatten.length).take (maxFrame + 1)
  | .struckOut => count served = maxMalformed
  | .subscribed services logs => count served < maxMalformed ∧
      ∃ line, served.getLast? = some line ∧ kind env line = .subscription services logs
  | .idle | .broken _ | .outOfRounds => False

/-- The rules of a connection on which the bytes come from a line on, given the number of that line
and how strikes are counted. -/
structure Follows (env : Environment) (n : ℕ) (count : List (List UInt8) → ℕ) (bytes : List UInt8)
    (conversation : Conversation) (served : List (List UInt8)) : Prop where
  /-- Lines are served in their order. -/
  lines : served <+: Lines.complete newline bytes
  /-- None of them is too long. -/
  short : ∀ line ∈ served, line.length ≤ maxFrame + 1
  /-- Each is answered once, unless it is blank. -/
  sent : conversation.sent = answers env n served ++ closing conversation.ending
  /-- Nothing else is decoded. -/
  decoded : ∀ text ∈ conversation.decoded, ∃ line ∈ served, fromUtf8 line = some text
  /-- The connection does not go on after too many strikes, nor after a subscription. -/
  before : ∀ part, part <+: served → part ≠ served → GoesOn env count part
  ending : EndsAs env count bytes served conversation.ending

theorem sinceUsable_concat (lines : List (List UInt8)) (line : List UInt8) :
    sinceUsable env (lines ++ [line]) = strikesAfter env (sinceUsable env lines) line := by
  simp only [sinceUsable, List.reverse_append, List.reverse_singleton, List.singleton_append,
    List.takeWhile_cons, strikesAfter, isUsable]
  cases hkind : kind env line <;> simp [isUnusable, hkind]

/-- Strikes are counted since the last usable line. -/
theorem sinceUsable_eq_foldl (lines : List (List UInt8)) :
    sinceUsable env lines = lines.foldl (strikesAfter env) 0 := by
  induction lines using List.reverseRecOn with
  | nil => rfl
  | append_singleton lines line ih => rw [sinceUsable_concat, List.foldl_concat, ih]

variable {bytes text rest : List UInt8} {served : List (List UInt8)} {reader : Reader UInt8}
  {rounds : ℕ}

theorem goesOn_nil {count : List (List UInt8) → ℕ} (h : count [] < maxMalformed) :
    GoesOn env count [] :=
  ⟨h, fun _ hline => nomatch hline⟩

/-- Nothing is served when what comes is cut. -/
theorem follows_nil {count : List (List UInt8) → ℕ} (hcount : count [] < maxMalformed)
    (hnewline : newline ∉ bytes.take (maxFrame + 1)) :
    Follows env n count bytes
      (if maxFrame < bytes.length then ⟨[], [oversized], .tooLong⟩ else ⟨[], [], .closed⟩) [] := by
  have hbefore : ∀ part, part <+: ([] : List (List UInt8)) → part ≠ [] → GoesOn env count part :=
    fun part hpart hne => absurd (List.prefix_nil.mp hpart) hne
  split_ifs with hlong
  · exact ⟨List.nil_prefix, nofun, rfl, nofun, hbefore, goesOn_nil hcount, hlong, hnewline⟩
  · rw [List.take_of_length_le (by omega)] at hnewline
    have hscan : Lines.scan newline [] bytes = ([], [] ++ bytes) := Lines.scan_of_notMem hnewline
    have hcomplete : Lines.complete newline bytes = [] := congrArg Prod.fst hscan
    have hrest : Lines.rest newline bytes = bytes := congrArg Prod.snd hscan
    exact ⟨List.nil_prefix, nofun, rfl, nofun, hbefore, goesOn_nil hcount, hcomplete.symm,
      by rw [hrest]; omega⟩

theorem answers_cons (line : List UInt8) (lines : List (List UInt8)) :
    answers env n (line :: lines) = (answer env n line).toList ++ answers env (n + 1) lines := by
  simp only [answers, List.zipIdx_cons, List.filterMap_cons]
  cases answer env n line <;> rfl

/-- A line ends in its newline, and is not too long. -/
structure IsLine (line : List UInt8) : Prop where
  exists_text : ∃ text, line = text ++ [newline] ∧ newline ∉ text
  short : line.length ≤ maxFrame + 1

theorem IsLine.complete_append (h : IsLine line) (rest : List UInt8) :
    Lines.complete newline (line ++ rest) = line :: Lines.complete newline rest ∧
      Lines.rest newline (line ++ rest) = Lines.rest newline rest := by
  obtain ⟨text, rfl, hnewline⟩ := h.exists_text
  rw [Lines.complete_append (Lines.rest_line hnewline), Lines.complete_line hnewline,
    Lines.rest_append (Lines.rest_line hnewline)]
  exact ⟨rfl, rfl⟩

/-- The line that ends the connection is the last that is served. -/
theorem follows_last (hline : IsLine line) (hstrikes : strikes < maxMalformed) {ending : Ending}
    (hnext : (turn env n strikes line).next = .error ending) :
    Follows env n (List.foldl (strikesAfter env) strikes) (line ++ rest)
      ⟨(turn env n strikes line).decoded, (turn env n strikes line).sent, ending⟩ [line] := by
  have hends : closing ending = [] ∧
      EndsAs env (List.foldl (strikesAfter env) strikes) (line ++ rest) [line] ending := by
    rw [turn_next] at hnext
    cases hkind : kind env line with
    | blank | usable => simp [hkind] at hnext
    | unusable =>
      simp only [hkind, struckOut] at hnext
      split_ifs at hnext with hmax
      obtain rfl := Except.error.inj hnext
      have hcount : strikesAfter env strikes line = maxMalformed := by
        rw [strikesAfter, hkind]
        exact Nat.le_antisymm hstrikes hmax
      exact ⟨rfl, hcount⟩
    | subscription services logs =>
      simp only [hkind] at hnext
      obtain rfl := Except.error.inj hnext
      have hcount : strikesAfter env strikes line = 0 := by rw [strikesAfter, hkind]
      exact ⟨rfl, (congrArg (· < maxMalformed) hcount).mpr (by decide), line, rfl, hkind⟩
  refine ⟨?_, ?_, ?_, fun text htext => ⟨line, List.mem_singleton_self line, turn_decoded htext⟩,
    fun part hpart hne => ?_, hends.2⟩
  · rw [(hline.complete_append rest).1]
    exact List.cons_prefix_cons.mpr ⟨rfl, List.nil_prefix⟩
  · intro line' hline'
    exact List.mem_singleton.mp hline' ▸ hline.short
  · rw [turn_sent, answers_cons, hends.1, List.append_nil]
    exact (List.append_nil _).symm
  · rcases List.prefix_cons_iff.mp hpart with rfl | ⟨part', rfl, hpart'⟩
    · exact goesOn_nil hstrikes
    · exact absurd (congrArg (line :: ·) (List.prefix_nil.mp hpart')) hne

/-- A line behind which the connection goes on. -/
theorem goesOn_of_next {strikes' : ℕ} (hstrikes : strikes < maxMalformed)
    (hnext : (turn env n strikes line).next = .ok strikes') :
    strikes' = strikesAfter env strikes line ∧ strikes' < maxMalformed ∧
      ¬ isSubscription env line := by
  rw [turn_next] at hnext
  rw [strikesAfter, isSubscription]
  cases hkind : kind env line with
  | blank =>
    simp only [hkind, Except.ok.injEq] at hnext
    exact ⟨hnext.symm, hnext ▸ hstrikes, nofun⟩
  | unusable =>
    simp only [hkind, struckOut] at hnext
    split_ifs at hnext with hmax
    obtain rfl := Except.ok.inj hnext
    exact ⟨rfl, Nat.lt_of_not_le hmax, nofun⟩
  | usable =>
    simp only [hkind, Except.ok.injEq] at hnext
    exact ⟨hnext.symm, hnext ▸ (by decide), nofun⟩
  | subscription services logs => simp [hkind] at hnext

/-- What holds behind a line that does not end the connection holds from it on. -/
theorem Follows.cons {conversation : Conversation} {strikes' : ℕ} (hline : IsLine line)
    (hstrikes : strikes < maxMalformed) (hnext : (turn env n strikes line).next = .ok strikes')
    (h : Follows env (n + 1) (List.foldl (strikesAfter env) strikes') rest conversation served) :
    Follows env n (List.foldl (strikesAfter env) strikes) (line ++ rest)
      ⟨(turn env n strikes line).decoded ++ conversation.decoded,
        (turn env n strikes line).sent ++ conversation.sent, conversation.ending⟩
      (line :: served) := by
  obtain ⟨rfl, -, hsubscription⟩ := goesOn_of_next hstrikes hnext
  have hgoesOn (part : List (List UInt8))
      (hpart : GoesOn env (List.foldl (strikesAfter env) (strikesAfter env strikes line)) part) :
      GoesOn env (List.foldl (strikesAfter env) strikes) (line :: part) :=
    ⟨hpart.1, List.forall_mem_cons.mpr ⟨hsubscription, hpart.2⟩⟩
  obtain ⟨hcomplete, hrest⟩ := hline.complete_append rest
  have hdrop : (line ++ rest).drop (line :: served).flatten.length =
      rest.drop served.flatten.length := by
    rw [List.flatten_cons, List.length_append, ← List.drop_drop, List.drop_left]
  refine ⟨?_, List.forall_mem_cons.mpr ⟨hline.short, h.short⟩, ?_, fun text htext => ?_,
    fun part hpart hne => ?_, ?_⟩
  · rw [hcomplete]
    exact List.cons_prefix_cons.mpr ⟨rfl, h.lines⟩
  · rw [turn_sent, answers_cons, h.sent, List.append_assoc]
  · rcases List.mem_append.mp htext with htext | htext
    · exact ⟨line, List.mem_cons_self, turn_decoded htext⟩
    · obtain ⟨line', hline', htext'⟩ := h.decoded text htext
      exact ⟨line', List.mem_cons_of_mem line hline', htext'⟩
  · rcases List.prefix_cons_iff.mp hpart with rfl | ⟨part', rfl, hpart'⟩
    · exact goesOn_nil hstrikes
    · exact hgoesOn part' (h.before part' hpart' fun heq => hne (by rw [heq]))
  · have hending := h.ending
    show EndsAs _ _ _ _ conversation.ending
    cases hcase : conversation.ending with
    | closed =>
      rw [hcase] at hending
      exact ⟨hgoesOn served hending.1, by rw [hcomplete, ← hending.2.1], hrest ▸ hending.2.2⟩
    | tooLong =>
      rw [hcase] at hending
      rw [EndsAs, hdrop]
      exact ⟨hgoesOn served hending.1, hending.2⟩
    | struckOut =>
      rw [hcase] at hending
      exact hending
    | subscribed services logs =>
      rw [hcase] at hending
      obtain ⟨hcount, line', hlast, hkind⟩ := hending
      exact ⟨hcount, line', by rw [List.getLast?_cons, hlast]; rfl, hkind⟩
    | idle | broken | outOfRounds =>
      rw [hcase] at hending
      exact hending

/-- The rules hold on from every line. -/
theorem handleFrom_follows : ∀ {rounds n strikes : ℕ} {reader : Reader UInt8},
    reader.content.length < rounds → strikes < maxMalformed →
      ∃ served, Follows env n (List.foldl (strikesAfter env) strikes) reader.content
        (handleFrom env rounds n strikes reader) served := by
  intro rounds
  induction rounds with
  | zero => exact fun h => absurd h (Nat.not_lt_zero _)
  | succ rounds ih =>
    intro n strikes reader hrounds hstrikes
    rw [handleFrom]
    by_cases hnewline : newline ∈ reader.content.take (maxFrame + 1)
    · obtain ⟨text, more, htake, htext⟩ := List.eq_append_cons_of_mem hnewline
      have hcontent : reader.content =
          text ++ newline :: (more ++ reader.content.drop (maxFrame + 1)) := by
        rw [← List.cons_append, ← List.append_assoc, ← htake, List.take_append_drop]
      have hlength : text.length ≤ maxFrame := by
        have hle := List.length_take_le (maxFrame + 1) reader.content
        rw [htake, List.length_append, List.length_cons] at hle
        omega
      obtain ⟨reader', hread, hrest⟩ := readRequest_line hcontent htext hlength
      have hline : IsLine (text ++ [newline]) :=
        ⟨⟨text, rfl, htext⟩, by rw [List.length_append]; exact Nat.succ_le_succ hlength⟩
      have hsplit : reader.content = (text ++ [newline]) ++ reader'.content := by
        rw [hrest]
        exact hcontent.trans (List.append_cons _ _ _)
      rw [hread]
      dsimp only
      rw [hsplit]
      cases hnext : (turn env n strikes (text ++ [newline])).next with
      | error ending => exact ⟨_, follows_last hline hstrikes hnext⟩
      | ok strikes' =>
        obtain ⟨served, h⟩ := @ih (n + 1) strikes' reader'
          (by
            rw [hsplit, List.length_append, List.length_append, List.length_singleton] at hrounds
            omega)
          (goesOn_of_next hstrikes hnext).2.1
        exact ⟨_, h.cons hline hstrikes hnext⟩
    · obtain ⟨line, reader', hread⟩ := readRequest_cut hnewline
      refine ⟨[], ?_⟩
      have hnil : Follows env n (List.foldl (strikesAfter env) strikes) reader.content
          (if maxFrame < reader.content.length then ⟨[], [oversized], .tooLong⟩
            else ⟨[], [], .closed⟩) [] := follows_nil hstrikes hnewline
      rw [hread]
      split_ifs at hnil ⊢
      · exact hnil
      · exact hnil

/-- The connection is struck out exactly when there were too many unusable lines. -/
theorem Follows.struckOut_iff {count : List (List UInt8) → ℕ} {conversation : Conversation}
    (h : Follows env n count bytes conversation served) :
    conversation.ending = .struckOut ↔ count served = maxMalformed := by
  have hending := h.ending
  cases hcase : conversation.ending with
  | struckOut =>
    rw [hcase] at hending
    exact iff_of_true rfl hending
  | closed | tooLong =>
    rw [hcase] at hending
    exact iff_of_false nofun hending.1.1.ne
  | subscribed services logs =>
    rw [hcase] at hending
    exact iff_of_false nofun hending.1.ne
  | idle | broken | outOfRounds =>
    rw [hcase] at hending
    exact hending.elim

/-- **The protocol of a connection.** However the bytes of a client come in pieces, the lines are
served in their order until the connection ends, each is answered once unless it is blank, and a line
that is too long is never decoded. The connection ends when all lines are served, with one error
before a line that is too long, with a subscription, or as soon as there were too many unusable
lines since the last usable one. -/
theorem handleClient_follows (env : Environment)
    (pieces : List { piece : List UInt8 // piece ≠ [] }) :
    (∃ served, Follows env 0 (sinceUsable env) (pieces.map (·.1)).flatten (handleClient env pieces)
        served ∧
      ((handleClient env pieces).ending = .struckOut ↔ sinceUsable env served = maxMalformed)) ∧
    ∀ n line, (answer env n line).isSome = !isBlank env line := by
  have hcount : sinceUsable env = List.foldl (strikesAfter env) 0 := funext sinceUsable_eq_foldl
  have hfew : 0 < maxMalformed := by decide
  obtain ⟨served, h⟩ :=
    @handleFrom_follows env _ 0 0 ⟨[], pieces⟩ (Nat.lt_succ_self _) hfew
  rw [← hcount] at h
  exact ⟨⟨served, h, h.struckOut_iff⟩, fun n line => isSome_answer⟩

end Server

end Servicrab
