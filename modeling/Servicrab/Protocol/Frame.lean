import Servicrab.Library.JsonText
import Servicrab.Library.Lines
import Servicrab.Protocol.Request
import Servicrab.Protocol.Response
import Mathlib.Data.List.DropRight

/-!
# Framing

A message is one line of JSON (`frame.rs`). How a value is written as a text and read back is left
to a JSON library.

## Main definitions

* `Message`, `encode`, `decode`, `tag`.

## Main results

* `decode_encode`, `lines_flatMap_encode`.
* `frame_round_trip`: messages are read back from their lines.
-/

namespace Servicrab

namespace Protocol

open Json (Format Plain maxDepth)
open Serde

/-- Something went wrong while decoding a message. -/
inductive FrameError
  /-- The text is no JSON. -/
  | unreadable (problem : String)
  /-- The JSON is no such message. -/
  | malformed (error : Serde.Error)
  deriving DecidableEq, Repr

/-- What can be sent as one line. -/
class Message (α : Type) where
  toJson : α → Json
  ofJson : Json → Result α

instance : Message Request := ⟨Request.toJson, Request.ofJson⟩

instance : Message Response := ⟨Response.toJson, Response.ofJson⟩

variable {α : Type} [Message α]

/-- Encode a message as a single line, including the newline at its end. -/
def encode (format : Format) (message : α) : List Char :=
  format.toString (Message.toJson message) ++ ['\n']

/-- `str::trim_end_matches(['\r', '\n'])`. -/
def trimLineEnd (line : List Char) : List Char := line.rdropWhile fun c => c = '\r' ∨ c = '\n'

/-- Decode a single line. -/
def decode (α : Type) [Message α] (format : Format) (line : List Char) : Except FrameError α :=
  match format.fromStr (trimLineEnd line) with
  | .error problem => .error (.unreadable problem)
  | .ok json =>
    match Message.ofJson json with
    | .error error => .error (.malformed error)
    | .ok message => .ok message

/-- How the error reads, given how those of the JSON library read. -/
def FrameError.toString (describe : Serde.Error → String) : FrameError → String
  | .unreadable problem => "malformed message: " ++ problem
  | .malformed error => "malformed message: " ++ describe error

/-- How much of a tag is handed back. -/
def maxTag : ℕ := 48

/-- The type a line claims to be. -/
def tag (format : Format) (line : List Char) : Option String :=
  match format.fromStr (trimLineEnd line) with
  | .ok (.object entries) =>
    match (Json.values "type" entries).getLast? with
    | some (.string named) => some (String.ofList (named.toList.take maxTag))
    | _ => none
  | _ => none

/-! ### Every message is a plain value -/

variable {depth : ℕ}

theorem plain_ofU32 (n : UInt32) : Plain depth (ofU32 n) := by
  have hlt := n.toNat_lt
  exact .number (by omega) (by omega)

theorem plain_ofU64 (n : UInt64) : Plain depth (ofU64 n) := by
  have hlt := n.toNat_lt
  exact .number (by omega) (by omega)

theorem plain_ofI32 (n : Int32) : Plain depth (ofI32 n) := by
  have hle := n.le_toInt
  have hlt := n.toInt_lt
  exact .number (by omega) (by omega)

theorem plain_ofUsize (n : USize) : Plain depth (ofUsize n) := by
  have hlt := n.toNat_lt_size
  have hle := USize.size_le
  exact .number (by omega) (by omega)

/-- The values of the entries are plain. -/
def PlainEntries (depth : ℕ) (entries : List (String × Json)) : Prop :=
  ∀ entry ∈ entries, Plain depth entry.2

@[simp] theorem plainEntries_nil : PlainEntries depth [] := nofun

@[simp] theorem plainEntries_cons {entry : String × Json} {entries : List (String × Json)} :
    PlainEntries depth (entry :: entries) ↔ Plain depth entry.2 ∧ PlainEntries depth entries :=
  List.forall_mem_cons

@[simp] theorem plainEntries_append {entries entries' : List (String × Json)} :
    PlainEntries depth (entries ++ entries') ↔
      PlainEntries depth entries ∧ PlainEntries depth entries' :=
  List.forall_mem_append

theorem plainEntries_skipNone {β : Type} {write : β → Json} (h : ∀ a, Plain depth (write a))
    (name : String) (value : Option β) : PlainEntries depth (skipNone name write value) := by
  cases value with
  | none => exact plainEntries_nil
  | some a => exact plainEntries_cons.mpr ⟨h a, plainEntries_nil⟩

theorem plain_list {β : Type} {write : β → Json} (h : ∀ a, Plain depth (write a)) (l : List β) :
    Plain (depth + 1) (.array (l.map write)) := by
  refine .array fun item hitem => ?_
  obtain ⟨a, -, rfl⟩ := List.mem_map.mp hitem
  exact h a

theorem plainEntries_skipEmpty {β : Type} {write : β → Json} (h : ∀ a, Plain depth (write a))
    (name : String) (l : List β) : PlainEntries (depth + 1) (skipEmpty name (l.map write)) := by
  rw [skipEmpty]
  split_ifs
  · exact plainEntries_nil
  · exact plainEntries_cons.mpr ⟨plain_list h l, plainEntries_nil⟩

theorem plain_request (request : Request) : Plain maxDepth request.toJson := by
  have hstring (name : String) : Plain 126 (.string name) := .string name
  cases request with
  | ping version =>
    exact .object (plainEntries_cons.mpr
      ⟨hstring _, plainEntries_skipNone plain_ofU32 "version" version⟩)
  | status | shutdown | reload | unknown =>
    exact .object (plainEntries_cons.mpr ⟨hstring _, plainEntries_nil⟩)
  | startService name | stopService name | restartService name =>
    exact .object (plainEntries_cons.mpr ⟨hstring _, plainEntries_cons.mpr
      ⟨hstring _, plainEntries_nil⟩⟩)
  | subscribe services logs =>
    exact .object (plainEntries_cons.mpr ⟨hstring _, plainEntries_append.mpr
      ⟨plainEntries_skipEmpty .string "services" services.toList,
        plainEntries_cons.mpr ⟨.bool logs, plainEntries_nil⟩⟩⟩)

theorem plain_serviceInfo (info : ServiceInfo) : Plain (depth + 1) info.toJson := by
  refine .object ?_
  have hentries : PlainEntries depth info.entries := by
    simp only [ServiceInfo.entries, plainEntries_append, plainEntries_cons]
    exact ⟨⟨⟨⟨⟨⟨.string _, .string _, plainEntries_nil⟩, plainEntries_skipNone plain_ofI32 _ _⟩,
      plainEntries_skipNone plain_ofI32 _ _⟩, plainEntries_skipNone plain_ofU64 _ _⟩,
      plain_ofU32 _, .string _, plainEntries_nil⟩, plainEntries_skipNone .string _ _⟩
  exact hentries

theorem plain_reloadChanges (changes : ReloadChanges) : Plain (depth + 1) changes.toJson :=
  .object (plainEntries_cons.mpr ⟨plain_ofUsize _, plainEntries_cons.mpr ⟨plain_ofUsize _,
    plainEntries_cons.mpr ⟨plain_ofUsize _, plainEntries_nil⟩⟩⟩)

theorem plain_event (event : Event) : Plain (depth + 1) event.toJson := by
  have hentries : PlainEntries depth event.entries := by
    cases event with
    | exited reason code signal uptimeMs =>
      simp only [Event.entries, plainEntries_append, plainEntries_cons]
      exact ⟨⟨⟨⟨.string _, plainEntries_nil⟩, plainEntries_skipNone plain_ofI32 _ _⟩,
        plainEntries_skipNone plain_ofI32 _ _⟩, plain_ofU64 _, plainEntries_nil⟩
    | _ =>
      simp [Event.entries, plain_ofU32, plain_ofU64, plain_ofI32, plain_ofUsize, Plain.string,
        ServiceState.toJson, Stream.toJson]
  exact .object (plainEntries_cons.mpr ⟨.string _, hentries⟩)

theorem plain_response (response : Response) : Plain maxDepth response.toJson := by
  have hentries : PlainEntries 126 response.entries := by
    cases response with
    | ok message changes schemaVersion =>
      simp only [Response.entries, plainEntries_append]
      exact ⟨⟨plainEntries_skipNone .string _ _, plainEntries_skipNone plain_reloadChanges _ _⟩,
        plainEntries_skipNone plain_ofU32 _ _⟩
    | pong project pid version =>
      simp only [Response.entries, plainEntries_append, plainEntries_cons]
      exact ⟨⟨.string _, plain_ofU32 _, plainEntries_nil⟩, plainEntries_skipNone plain_ofU32 _ _⟩
    | status services =>
      exact plainEntries_cons.mpr ⟨plain_list plain_serviceInfo services, plainEntries_nil⟩
    | event service what =>
      exact plainEntries_cons.mpr ⟨.string _, plainEntries_cons.mpr
        ⟨plain_event what, plainEntries_nil⟩⟩
    | lagged skipped => exact plainEntries_cons.mpr ⟨plain_ofU64 _, plainEntries_nil⟩
    | error code message errors =>
      simp only [Response.entries, plainEntries_append, plainEntries_cons]
      exact ⟨⟨.string _, .string _, plainEntries_nil⟩, plainEntries_skipEmpty .string _ _⟩
    | unknown => exact plainEntries_nil
  exact .object (plainEntries_cons.mpr ⟨.string _, hentries⟩)

/-! ### Lines -/

variable {format : Format}

/-- No text of a value has a line end. -/
theorem notMem_toString (json : Json) : '\n' ∉ format.toString json ∧ '\r' ∉ format.toString json :=
  ⟨fun h => format.not_isControl json _ h (by decide),
    fun h => format.not_isControl json _ h (by decide)⟩

/-- Only the line end is taken away from a line. -/
theorem trimLineEnd_encode (message : α) :
    trimLineEnd (encode format message) = format.toString (Message.toJson message) := by
  obtain ⟨hn, hr⟩ := @notMem_toString format (Message.toJson message)
  rw [trimLineEnd, encode, List.rdropWhile_concat_pos _ _ _ (by simp),
    List.rdropWhile_eq_self_iff]
  intro hne hlast
  rcases (by simpa using hlast) with h | h
  · exact hr (h ▸ List.getLast_mem hne)
  · exact hn (h ▸ List.getLast_mem hne)

/-- A message whose value is read back is read back from its line. -/
theorem decode_encode {message result : α} (hplain : Plain maxDepth (Message.toJson message))
    (hofJson : Message.ofJson (Message.toJson message) = .ok result) :
    decode α format (encode format message) = .ok result := by
  rw [decode, trimLineEnd_encode, format.fromStr_toString _ hplain]
  simp only [hofJson]

/-- Exactly one newline, at the end. -/
structure OneLine (text : List Char) : Prop where
  count : text.count '\n' = 1
  last : text.getLast? = some '\n'

theorem oneLine_encode (message : α) : OneLine (encode format message) := by
  constructor
  · rw [encode, List.count_append, List.count_eq_zero_of_not_mem (notMem_toString _).1]
    rfl
  · rw [encode, List.getLast?_concat]

/-- What was written message by message is cut into the lines of the messages. -/
theorem lines_flatMap_encode (messages : List α) :
    Lines.complete '\n' (messages.flatMap (encode format)) = messages.map (encode format) ∧
      Lines.rest '\n' (messages.flatMap (encode format)) = [] := by
  have hflatMap : messages.flatMap (encode format) =
      (messages.map fun message => format.toString (Message.toJson message)).flatMap
        (· ++ ['\n']) := by
    rw [List.flatMap_map]
    rfl
  have hnotMem : ∀ text ∈ messages.map fun message => format.toString (Message.toJson message),
      '\n' ∉ text := by
    intro text htext
    obtain ⟨message, -, rfl⟩ := List.mem_map.mp htext
    exact (notMem_toString _).1
  rw [hflatMap, Lines.complete_flatMap hnotMem, Lines.rest_flatMap hnotMem, List.map_map]
  exact ⟨rfl, rfl⟩

theorem decode_encode_request (request : Request) :
    decode Request format (encode format request) = .ok request.bounded :=
  decode_encode (plain_request request) request.ofJson_toJson

theorem decode_encode_response (response : Response) :
    decode Response format (encode format response) = .ok response :=
  decode_encode (plain_response response) response.ofJson_toJson

/-- **Messages are read back from their lines.** Each message is one line, from which it is read
back, but for a subscription that names too many services, which keeps the smallest of the names.
So a list of messages is read back from what was written one after another. -/
theorem frame_round_trip (format : Format) :
    (∀ request : Request, OneLine (encode format request) ∧
      decode Request format (encode format request) = .ok request.bounded) ∧
    (∀ response : Response, OneLine (encode format response) ∧
      decode Response format (encode format response) = .ok response) ∧
    (∀ requests : List Request,
      (Lines.complete '\n' (requests.flatMap (encode format))).map (decode Request format) =
          requests.map (fun request => .ok request.bounded) ∧
        Lines.rest '\n' (requests.flatMap (encode format)) = []) ∧
    ∀ responses : List Response,
      (Lines.complete '\n' (responses.flatMap (encode format))).map (decode Response format) =
          responses.map .ok ∧
        Lines.rest '\n' (responses.flatMap (encode format)) = [] := by
  refine ⟨fun request => ⟨oneLine_encode request, decode_encode_request request⟩,
    fun response => ⟨oneLine_encode response, decode_encode_response response⟩,
    fun requests => ?_, fun responses => ?_⟩
  · obtain ⟨hlines, hrest⟩ := @lines_flatMap_encode _ _ format requests
    rw [hlines, hrest, List.map_map]
    exact ⟨List.map_congr_left fun request _ => decode_encode_request request, rfl⟩
  · obtain ⟨hlines, hrest⟩ := @lines_flatMap_encode _ _ format responses
    rw [hlines, hrest, List.map_map]
    exact ⟨List.map_congr_left fun response _ => decode_encode_response response, rfl⟩

/-- A name with a newline stays on one line. -/
theorem frame_round_trip_compact :
    OneLine (encode Json.compact (Request.stopService "a\nb")) ∧
      decode Request Json.compact (encode Json.compact (Request.stopService "a\nb")) =
        .ok (.stopService "a\nb") :=
  (frame_round_trip Json.compact).1 (.stopService "a\nb")

end Protocol

end Servicrab
