import Servicrab.Daemon.Server
import Servicrab.Daemon.Subscribers
import Servicrab.Library.Utf8

/-!
# The client of a daemon

A command sends one request over a connection of its own and reads one response, or subscribes and
reads responses until the connection ends (`client.rs`). How its write goes is left open: a daemon may
answer and close without having read everything.

## Main definitions

* `Client.readLine`, `Client.send`, `Client.subscribe`, `Client.isRunning`.
* `Client.Spelled`: the texts of messages are not blank.

## Main results

* `Client.send_handleClient`: what a client is given for its request.
* `Client.subscribe_written`: what a subscriber's callback is given.
-/

open CappedReader (Reader readUntil upTo)

namespace Servicrab

namespace Client

open Protocol (encode)

/-- Why talking to the daemon failed. -/
inductive ClientError
  | notRunning
  | failed (message : String)
  deriving DecidableEq

/-- `BufRead::read_line`: how many bytes were read, and the line, unless it is not UTF-8. -/
def readLine (reader : Reader UInt8) : Except String ℕ × List Char × Reader UInt8 :=
  -- Nothing but a newline or the end stops it.
  let (line, reader) :=
    readUntil Server.newline (reader.content.length + 1) reader.content.length [] reader
  match Server.fromUtf8 line with
  | some text => (.ok line.length, text, reader)
  | none => (.error "stream did not contain valid UTF-8", [], reader)

/-- What the client makes of an empty first line. -/
def noAnswer (sent : Except String Unit) (read : Except String ℕ) : ClientError :=
  match sent, read with
  | .error e, _ => .failed s!"could not send the request: {e}"
  | .ok (), .error e => .failed s!"could not read the response: {e}"
  | .ok (), .ok _ => .failed "the daemon closed the connection without answering"

variable (env : Server.Environment)

def decodeResponse (line : List Char) : Except ClientError Protocol.Response :=
  (Protocol.decode Protocol.Response env.format line).mapError fun err => .failed (err.toString env.describe)

/-- `send` on an open connection, given how its write went and what comes back. -/
def send (sent : Except String Unit) (reader : Reader UInt8) :
    Except ClientError Protocol.Response :=
  let (read, reply, _) := readLine reader
  if trim reply = [] then .error (noAnswer sent read) else decodeResponse env reply

/-- `is_running` on an open connection. -/
def isRunning (sent : Except String Unit) (reader : Reader UInt8) : Bool :=
  match send env sent reader with
  | .ok (.pong ..) => true
  | _ => false

variable (debug : Protocol.Response → String)

/-- What the client makes of an answer that it does not expect. -/
def unexpected (response : Protocol.Response) : ClientError :=
  .failed s!"unexpected response from the daemon: {debug response}"

/-- `check_running` on an open connection. -/
def checkRunning (sent : Except String Unit) (reader : Reader UInt8) : Except ClientError Unit :=
  match send env sent reader with
  | .ok (.pong ..) => .ok ()
  | .ok (.error _ message _) => .error (.failed message)
  | .ok other => .error (unexpected debug other)
  | .error err => .error err

/-- The two questions have one answer: there is an error exactly when no daemon is found running. -/
theorem checkRunning_eq_ok_iff {sent : Except String Unit} {reader : Reader UInt8} :
    checkRunning env debug sent reader = .ok () ↔ isRunning env sent reader := by
  unfold checkRunning isRunning
  cases send env sent reader with
  | error err => simp
  | ok response => cases response <;> simp

/-- `str::trim_end`. -/
def trimEnd (line : List Char) : List Char := line.rdropWhile isWhitespace

/-- The loop of `subscribe`, in no more rounds than are granted, with what the callback was called
with so far. The callback says whether to go on. -/
def subscribeLoop (onEvent : List (List Char × Protocol.Response) → Bool) :
    ℕ → List (List Char × Protocol.Response) → Reader UInt8 →
      Except ClientError Unit × List (List Char × Protocol.Response)
  | 0, calls, _ => (.ok (), calls)
  | rounds + 1, calls, reader =>
    match readLine reader with
    | (.ok 0, _, _) => (.ok (), calls)
    | (.error e, _, _) => (.error (.failed s!"the event stream broke: {e}"), calls)
    | (.ok _, line, reader) =>
      if trim line = [] then subscribeLoop onEvent rounds calls reader
      else
        match decodeResponse env line with
        | .error e => (.error e, calls)
        | .ok response =>
          let calls := calls ++ [(trimEnd line, response)]
          if onEvent calls then subscribeLoop onEvent rounds calls reader else (.ok (), calls)

/-- `subscribe` on an open connection. -/
def subscribe (onEvent : List (List Char × Protocol.Response) → Bool) (sent : Except String Unit)
    (reader : Reader UInt8) :
    Except ClientError Unit × List (List Char × Protocol.Response) :=
  let (read, first, reader) := readLine reader
  if trim first = [] then (.error (noAnswer sent read), [])
  else
    match decodeResponse env first with
    | .ok (.ok ..) => subscribeLoop env onEvent (reader.content.length + 1) [] reader
    | .ok (.error _ message _) => (.error (.failed message), [])
    | .ok other => (.error (unexpected debug other), [])
    | .error e => (.error e, [])

/-! ### One line -/

/-- The text of an object is not blank. -/
def Spelled (format : Json.Format) : Prop :=
  ∀ entries, ∃ c ∈ format.toString (.object entries), isWhitespace c = false

theorem spelled_compact : Spelled Json.compact := by
  intro entries
  refine ⟨'\x7b', ?_, by decide⟩
  cases entries with
  | nil => exact List.mem_cons_self
  | cons entry entries => exact List.mem_cons_self

theorem trim_ne_nil {text : List Char} {c : Char} (hc : c ∈ text) (h : isWhitespace c = false) :
    trim text ≠ [] := by
  intro hnil
  rw [trim, List.rdropWhile_eq_nil_iff] at hnil
  have hdrop : text.dropWhile isWhitespace = [] := by
    by_contra hne
    have hhead := List.dropWhile_get_zero_not isWhitespace text (List.length_pos_iff.mpr hne)
    exact hhead (hnil _ (List.get_mem _ _))
  rw [List.dropWhile_eq_nil_iff] at hdrop
  exact Bool.false_ne_true (h.symm.trans (hdrop c hc))

/-- A message is sent as a line of bytes that is read back. -/
theorem encode_line {α : Type} [Protocol.Message α] (format : Json.Format) (message : α) :
    ∃ text, Utf8.encode (encode format message) = text ++ [Server.newline] ∧
      Server.newline ∉ text := by
  refine ⟨Utf8.encode (format.toString (Protocol.Message.toJson message)), ?_, ?_⟩
  · rw [encode, Utf8.encode_append]
    rfl
  · refine Utf8.notMem_encode (by decide) fun c hc heq => ?_
    have hnewline : c = '\n' := Char.toNat_inj.mp heq
    exact (Protocol.notMem_toString _).1 (hnewline ▸ hc)

/-- What is read of a line, in terms of what there is to read. -/
theorem readUntil_all (reader : Reader UInt8) :
    let read := readUntil Server.newline (reader.content.length + 1) reader.content.length [] reader
    read.1 = CappedReader.upTo Server.newline reader.content ∧
      read.2.content =
        reader.content.drop (CappedReader.upTo Server.newline reader.content).length := by
  intro read
  have hread : read.1 = [] ++ CappedReader.upTo Server.newline _ ∧ read.2.content = _ :=
    CappedReader.readUntil_eq (Nat.lt_succ_self reader.content.length)
  rwa [List.take_length, List.nil_append] at hread

theorem readLine_encode {α : Type} [Protocol.Message α] {format : Json.Format} {message : α}
    {reader : Reader UInt8} {rest : List UInt8}
    (h : reader.content = Utf8.encode (encode format message) ++ rest) :
    ∃ reader', readLine reader =
      (.ok (Utf8.encode (encode format message)).length, encode format message, reader') ∧
      reader'.content = rest := by
  obtain ⟨text, htext, hnewline⟩ := encode_line format message
  have hupTo : CappedReader.upTo Server.newline reader.content =
      Utf8.encode (encode format message) := by
    rw [h, htext, List.append_assoc, List.singleton_append]
    exact CappedReader.upTo_append_cons hnewline
  have hread := readUntil_all reader
  rw [hupTo] at hread
  refine ⟨_, ?_, hread.2.trans (by rw [h, List.drop_left])⟩
  have hdecode : Server.fromUtf8 (Utf8.encode (encode format message)) =
      some (encode format message) := Utf8.decode?_encode _
  simp only [readLine, hread.1, hdecode]

/-- At the end there is nothing to read. -/
theorem readLine_nil {reader : Reader UInt8} (h : reader.content = []) :
    ∃ reader', readLine reader = (.ok 0, [], reader') := by
  have hread := readUntil_all reader
  have hline : (readUntil Server.newline (reader.content.length + 1) reader.content.length [] reader).1
      = [] := hread.1.trans (by rw [h]; rfl)
  have hdecode : Server.fromUtf8 [] = some [] := Utf8.decode?_encode []
  exact ⟨_, by simp only [readLine, hline, hdecode, List.length_nil]; rfl⟩

/-! ### One request -/

variable {env : Server.Environment}

theorem trim_encode_ne_nil (hspelled : Spelled env.format) {α : Type} [Protocol.Message α] {message : α}
    {entries : List (String × Json)} (h : Protocol.Message.toJson message = .object entries) :
    trim (encode env.format message) ≠ [] := by
  obtain ⟨c, hc, hspace⟩ := hspelled entries
  exact trim_ne_nil (List.mem_append_left _ (h ▸ hc)) hspace

theorem trim_request_ne_nil (hspelled : Spelled env.format) (request : Protocol.Request) :
    trim (encode env.format request) ≠ [] := by
  cases request <;> exact trim_encode_ne_nil hspelled rfl

theorem trim_response_ne_nil (hspelled : Spelled env.format) (response : Protocol.Response) :
    trim (encode env.format response) ≠ [] :=
  trim_encode_ne_nil hspelled rfl

theorem decodeResponse_encode (response : Protocol.Response) :
    decodeResponse env (encode env.format response) = .ok response := by
  rw [decodeResponse, Protocol.decode_encode_response]
  rfl

/-- What the daemon answers to a request that is the first on its connection. -/
def answerTo (env : Server.Environment) (request : Protocol.Request) : Protocol.Response :=
  match request.bounded with
  | .subscribe _ _ => Server.hello
  | bounded => env.respond 0 bounded (Protocol.tag env.format (encode env.format request))

theorem answer_encode (hspelled : Spelled env.format) (request : Protocol.Request) :
    Server.answer env 0 (Utf8.encode (encode env.format request)) = some (answerTo env request) := by
  have hdecode : Server.fromUtf8 (Utf8.encode (encode env.format request)) =
      some (encode env.format request) := Utf8.decode?_encode _
  simp only [Server.answer, hdecode, if_neg (trim_request_ne_nil hspelled request),
    Protocol.decode_encode_request, answerTo]
  cases request.bounded <;> rfl

/-- Nothing more is written when there is nothing more to read. -/
theorem sent_handleFrom_nil {rounds n strikes : ℕ} {reader : Reader UInt8} (h : reader.content = []) :
    (Server.handleFrom env rounds n strikes reader).sent = [] := by
  cases rounds with
  | zero => rfl
  | succ rounds =>
    have hcut : Server.newline ∉ reader.content.take (Server.maxFrame + 1) := by simp [h]
    obtain ⟨line, reader', hread⟩ := Server.readRequest_cut hcut
    rw [h, List.length_nil, if_neg (Nat.not_lt_zero _)] at hread
    rw [Server.handleFrom, hread]

/-- What is written on a connection with one line. -/
theorem sent_handleClient_line {pieces : List { piece : List UInt8 // piece ≠ [] }}
    {text : List UInt8} (hpieces : (pieces.map (·.1)).flatten = text ++ [Server.newline])
    (hnewline : Server.newline ∉ text) :
    (Server.handleClient env pieces).sent =
      if text.length ≤ Server.maxFrame then (Server.answer env 0 (text ++ [Server.newline])).toList
      else [Server.oversized] := by
  have hcontent : (⟨[], pieces⟩ : Reader UInt8).content = text ++ [Server.newline] :=
    (List.nil_append _).trans hpieces
  rw [Server.handleClient, Server.handleFrom]
  split_ifs with hlength
  · obtain ⟨reader', hread, hrest⟩ := Server.readRequest_line hcontent hnewline hlength
    rw [hread]
    dsimp only
    cases hnext : (Server.turn env 0 0 (text ++ [Server.newline])).next with
    | error ending => exact Server.turn_sent
    | ok strikes =>
      show (Server.turn env 0 0 _).sent ++ (Server.handleFrom env _ 1 strikes reader').sent = _
      rw [sent_handleFrom_nil hrest, List.append_nil]
      exact Server.turn_sent
  · have hcut : Server.newline ∉ (⟨[], pieces⟩ : Reader UInt8).content.take (Server.maxFrame + 1) := by
      rw [hcontent, List.take_append_of_le_length (by omega)]
      exact fun hmem => hnewline (List.mem_of_mem_take hmem)
    obtain ⟨line, reader', hread⟩ := Server.readRequest_cut hcut
    rw [hcontent, List.length_append, List.length_singleton, if_pos (by omega)] at hread
    rw [hread]

/-- **A request is answered through the socket.** However the bytes of a request come to the daemon
and those of its answer come back, and however the client's write is reported to have gone, the
client is given what the daemon answers to that request, or the error that it is too long. -/
theorem send_handleClient (hspelled : Spelled env.format) (request : Protocol.Request)
    {pieces : List { piece : List UInt8 // piece ≠ [] }}
    (hpieces : (pieces.map (·.1)).flatten = Utf8.encode (encode env.format request))
    (sent : Except String Unit) {reader : Reader UInt8}
    (hreader : reader.content =
      Utf8.encode ((Server.handleClient env pieces).sent.flatMap (encode env.format))) :
    send env sent reader =
      .ok (if (Utf8.encode (encode env.format request)).length ≤ Server.maxFrame + 1 then
        answerTo env request else Server.oversized) := by
  obtain ⟨text, htext, hnewline⟩ := encode_line env.format request
  have hlength : (Utf8.encode (encode env.format request)).length ≤ Server.maxFrame + 1 ↔
      text.length ≤ Server.maxFrame := by
    rw [htext, List.length_append]
    exact Nat.add_le_add_iff_right
  have hsent : (Server.handleClient env pieces).sent =
      [if (Utf8.encode (encode env.format request)).length ≤ Server.maxFrame + 1 then
        answerTo env request else Server.oversized] := by
    rw [sent_handleClient_line (hpieces.trans htext) hnewline, ← htext, answer_encode hspelled]
    simp only [hlength]
    split_ifs <;> rfl
  rw [hsent, List.flatMap_singleton] at hreader
  obtain ⟨reader', hread, -⟩ := readLine_encode (hreader.trans (List.append_nil _).symm)
  simp only [send, hread, if_neg (trim_response_ne_nil hspelled _), decodeResponse_encode]

/-- A daemon that answers everything with its version. -/
def sampleEnvironment : Server.Environment :=
  ⟨Json.compact, fun _ => "invalid", fun _ _ _ => .pong "shop" 7 (some 1)⟩

def pingLine : List UInt8 := Utf8.encode (encode Json.compact (Protocol.Request.ping none))

theorem pingLine_ne_nil : pingLine ≠ [] := by
  obtain ⟨text, htext, -⟩ := encode_line Json.compact (Protocol.Request.ping none)
  rw [pingLine, htext]
  exact List.concat_ne_nil _ _

/-- A reader of bytes that have all come. -/
def readerOf (bytes : List UInt8) : Reader UInt8 := ⟨bytes, []⟩

theorem content_readerOf (bytes : List UInt8) : (readerOf bytes).content = bytes :=
  List.append_nil bytes

/-- A daemon that answers and is gone before the write is done. -/
theorem send_handleClient_ping :
    send sampleEnvironment (.error "broken pipe") (readerOf (Utf8.encode
      ((Server.handleClient sampleEnvironment [⟨pingLine, pingLine_ne_nil⟩]).sent.flatMap
        (encode Json.compact)))) =
      .ok (if pingLine.length ≤ Server.maxFrame + 1 then .pong "shop" 7 (some 1)
        else Server.oversized) :=
  send_handleClient spelled_compact (.ping none) (List.append_nil _) (.error "broken pipe")
    (content_readerOf _)

/-! ### A subscription -/

variable {onEvent : List (List Char × Protocol.Response) → Bool}
  {debug : Protocol.Response → String}

/-- What the callback is called with about a response. -/
def call (env : Server.Environment) (response : Protocol.Response) : List Char × Protocol.Response :=
  (trimEnd (encode env.format response), response)

/-- The calls up to the first one after which the callback says to stop. -/
def heard (onEvent : List (List Char × Protocol.Response) → Bool)
    (calls : List (List Char × Protocol.Response)) :
    List (List Char × Protocol.Response) → List (List Char × Protocol.Response)
  | [] => calls
  | next :: rest =>
    if onEvent (calls ++ [next]) then heard onEvent (calls ++ [next]) rest else calls ++ [next]

theorem subscribeLoop_encode (hspelled : Spelled env.format) {responses : List Protocol.Response} :
    ∀ {rounds : ℕ} {calls : List (List Char × Protocol.Response)} {reader : Reader UInt8},
      responses.length < rounds →
      reader.content = Utf8.encode (responses.flatMap (encode env.format)) →
      subscribeLoop env onEvent rounds calls reader =
        (.ok (), heard onEvent calls (responses.map (call env))) := by
  induction responses with
  | nil =>
    intro rounds calls reader hrounds hreader
    obtain ⟨rounds, rfl⟩ := Nat.exists_eq_succ_of_ne_zero (Nat.ne_of_gt hrounds)
    obtain ⟨reader', hread⟩ := readLine_nil hreader
    rw [subscribeLoop, hread]
    rfl
  | cons response responses ih =>
    intro rounds calls reader hrounds hreader
    obtain ⟨rounds, rfl⟩ := Nat.exists_eq_succ_of_ne_zero (Nat.ne_zero_of_lt hrounds)
    rw [List.flatMap_cons, Utf8.encode_append] at hreader
    obtain ⟨reader', hread, hrest⟩ := readLine_encode hreader
    obtain ⟨n, hn⟩ : ∃ n, (Utf8.encode (encode env.format response)).length = n + 1 := by
      obtain ⟨text, htext, -⟩ := encode_line env.format response
      exact ⟨text.length, by rw [htext, List.length_append]; rfl⟩
    rw [subscribeLoop, hread, hn]
    simp only [if_neg (trim_response_ne_nil hspelled response), decodeResponse_encode,
      List.map_cons, heard]
    show (if onEvent (calls ++ [call env response]) then _ else _) = _
    split_ifs
    · exact ih (Nat.lt_of_succ_lt_succ hrounds) hrest
    · rfl

theorem length_le_encode (responses : List Protocol.Response) :
    responses.length ≤ (Utf8.encode (responses.flatMap (encode env.format))).length := by
  induction responses with
  | nil => exact Nat.zero_le _
  | cons response responses ih =>
    obtain ⟨text, htext, -⟩ := encode_line env.format response
    rw [List.flatMap_cons, Utf8.encode_append, htext, List.length_cons, List.length_append,
      List.length_append, List.length_singleton]
    omega

/-- The callback is called with each response behind the handshake, in order, until it says to
stop. -/
theorem subscribe_encode (hspelled : Spelled env.format) (responses : List Protocol.Response)
    (sent : Except String Unit) {reader : Reader UInt8}
    (hreader : reader.content =
      Utf8.encode ((Server.hello :: responses).flatMap (encode env.format))) :
    subscribe env debug onEvent sent reader = (.ok (), heard onEvent [] (responses.map (call env))) := by
  rw [List.flatMap_cons, Utf8.encode_append] at hreader
  obtain ⟨reader', hread, hrest⟩ := readLine_encode hreader
  simp only [subscribe, hread, if_neg (trim_response_ne_nil hspelled _), decodeResponse_encode,
    Server.hello]
  have hlength : responses.length < reader'.content.length + 1 := by
    rw [hrest]
    exact Nat.lt_succ_of_le (length_le_encode responses)
  exact subscribeLoop_encode hspelled hlength hrest

theorem heard_always (calls rest : List (List Char × Protocol.Response)) :
    heard (fun _ => true) calls rest = calls ++ rest := by
  induction rest generalizing calls with
  | nil => exact (List.append_nil calls).symm
  | cons next rest ih => rw [heard, if_pos rfl, ih, List.append_assoc]; rfl

/-- **A subscriber hears what the stack publishes.** Whatever the interleaving of the stack, the
collector and the subscribers, and however the bytes come in pieces: the callback of a client whose
connection keeps up is called with the events it asked for of those that were sent since it
subscribed, each once and in order, but for what is still to come. -/
theorem subscribe_stream {s : Streaming} {k : ℕ}
    (h : streamSystem.Reachable (Streaming.KeepsUp k) s) {sub : Subscriber}
    (hsub : s.subscribers[k]? = some sub) (hwritten : sub.written ≠ [])
    (hspelled : Spelled env.format) (sent : Except String Unit) {reader : Reader UInt8}
    (hreader : reader.content = Utf8.encode (sub.written.flatMap (encode env.format))) :
    ∃ handled pending due responses, sub.offered = handled ++ pending ∧ sub.Due due ∧
      subscribe env debug (fun _ => true) sent reader = (.ok (), responses.map (call env)) ∧
      responses ++ due = (handled.filter sub.filter.wants).map Filter.eventResponse := by
  obtain ⟨handled, pending, due, hoffered, hdue, htold⟩ := Streaming.written_of_keepsUp h hsub
  obtain ⟨first, responses, hcons⟩ := List.exists_cons_of_ne_nil hwritten
  rw [hcons, List.cons_append, List.cons.injEq] at htold
  obtain ⟨rfl, hresponses⟩ := htold
  refine ⟨handled, pending, due, responses, hoffered, hdue, ?_, hresponses⟩
  rw [subscribe_encode hspelled responses sent (hcons ▸ hreader), heard_always, List.nil_append]

/-- A client that subscribed while an event was in hand. -/
theorem subscribe_stream_sample : ∃ (s : Streaming) (sub : Subscriber),
    s.subscribers = [sub] ∧ sub.written.length = 2 ∧
      ∃ handled pending due responses, sub.offered = handled ++ pending ∧ sub.Due due ∧
        subscribe sampleEnvironment (fun _ => "") (fun _ => true) (.ok ())
          (readerOf (Utf8.encode (sub.written.flatMap (encode Json.compact)))) =
            (.ok (), responses.map (call sampleEnvironment)) ∧
        responses ++ due = (handled.filter sub.filter.wants).map Filter.eventResponse := by
  have hrun : (streamSystem.checkedRun Streaming.allKeepUp Streaming.sample
      Streaming.sampleRun).map (fun s => s.subscribers.map fun sub => sub.written.length) =
        some [2] := by decide +kernel
  obtain ⟨s, hs, hwritten⟩ := Option.map_eq_some_iff.mp hrun
  obtain ⟨sub, hsub, hlength⟩ := List.map_eq_singleton_iff.mp hwritten
  have hget : s.subscribers[0]? = some sub := by rw [hsub]; rfl
  have hne : sub.written ≠ [] := fun hnil => by rw [hnil] at hlength; cases hlength
  have hreachable : streamSystem.Reachable (Streaming.KeepsUp 0) s :=
    (TransitionSystem.Reachable.initial Streaming.init_sample).steps
      (TransitionSystem.steps_of_checkedRun Streaming.keepsUp_of_allKeepUp hs)
  exact ⟨s, sub, hsub, hlength,
    subscribe_stream hreachable hget hne spelled_compact (.ok ()) (content_readerOf _)⟩

end Client

end Servicrab
