import Servicrab.Library.Serde
import Servicrab.Library.TreeSet
import Mathlib.Tactic.SplitIfs
import Mathlib.Data.String.Basic

/-!
# Requests

The requests a client sends to the daemon, and how they are written as JSON and read back
(`request.rs`). The filter of a subscription is bounded when it is read.

## Main definitions

* `Request`, `Request.toJson`, `Request.ofJson`, `boundedServices`.

## Main results

* `Request.ofJson_toJson`: a request is read back, with the filter bounded.
-/

open Std (ExtTreeSet)

namespace Servicrab

namespace Protocol

open Json (values)
open Serde

/-- How many services one subscription may name. -/
def maxSubscribeServices : ℕ := 256

/-- A request that a client sends to the daemon. -/
inductive Request
  | ping (version : Option UInt32)
  | status
  | shutdown
  | startService (name : String)
  | stopService (name : String)
  | restartService (name : String)
  | reload
  | subscribe (services : ExtTreeSet String) (logs : Bool)
  /-- A request this build has no name for. -/
  | unknown

/-- The loop of `bounded_services`, which takes away the last name as long as there are too many. -/
def boundNames : ℕ → ExtTreeSet String → ExtTreeSet String
  | 0, names => names
  | rounds + 1, names =>
    if names.size > maxSubscribeServices then boundNames rounds (TreeSet.popLast names) else names

/-- Read a subscribe filter, keeping at most as many names as are allowed. -/
def boundedServices (json : Json) : Result (ExtTreeSet String) := do
  let names ← list string json
  let names := ExtTreeSet.ofList names
  return boundNames names.size names

/-- Flags that are on unless a client says otherwise. -/
def yes : Bool := true

namespace Request

def toJson : Request → Json
  | ping version =>
    .object (("type", .string "ping") :: skipNone "version" ofU32 version)
  | status => .object [("type", .string "status")]
  | shutdown => .object [("type", .string "shutdown")]
  | startService name => .object [("type", .string "start_service"), ("name", .string name)]
  | stopService name => .object [("type", .string "stop_service"), ("name", .string name)]
  | restartService name => .object [("type", .string "restart_service"), ("name", .string name)]
  | reload => .object [("type", .string "reload")]
  | subscribe services logs =>
    .object (("type", .string "subscribe") ::
      (skipEmpty "services" (services.toList.map .string) ++ [("logs", .bool logs)]))
  | unknown => .object [("type", .string "unknown")]

def ofJson (json : Json) : Result Request := do
  let (name, entries) ← tagged "type" json
  match name with
  | "ping" => return ping (← optional u32 "version" entries)
  | "status" => return status
  | "shutdown" => return shutdown
  | "start_service" => return startService (← required string "name" entries)
  | "stop_service" => return stopService (← required string "name" entries)
  | "restart_service" => return restartService (← required string "name" entries)
  | "reload" => return reload
  | "subscribe" =>
    return subscribe (← orDefault boundedServices ∅ "services" entries)
      (← orDefault bool yes "logs" entries)
  | _ => return unknown

/-- The request, or the same with only the smallest of its names when there are too many. -/
def bounded : Request → Request
  | subscribe services logs =>
    if services.size > maxSubscribeServices then
      subscribe (TreeSet.smallest maxSubscribeServices services) logs
    else subscribe services logs
  | request => request

end Request

/-! ### The bound -/

variable {names : ExtTreeSet String} {rounds : ℕ}

theorem toList_boundNames (h : names.size ≤ rounds + maxSubscribeServices) :
    (boundNames rounds names).toList = names.toList.take maxSubscribeServices := by
  induction rounds generalizing names with
  | zero =>
    rw [boundNames, List.take_of_length_le]
    rw [ExtTreeSet.length_toList]
    omega
  | succ rounds ih =>
    rw [boundNames]
    split_ifs with hsize
    · have hlength := ExtTreeSet.length_toList (t := names)
      have hpop : (TreeSet.popLast names).size = names.size - 1 := by
        rw [← ExtTreeSet.length_toList, TreeSet.toList_popLast, List.length_dropLast, hlength]
      rw [ih (by omega), TreeSet.toList_popLast, List.dropLast_eq_take, List.take_take]
      congr 1
      omega
    · rw [List.take_of_length_le]
      rw [ExtTreeSet.length_toList]
      omega

/-- The loop keeps the smallest names. -/
theorem boundNames_eq (names : ExtTreeSet String) :
    boundNames names.size names = TreeSet.smallest maxSubscribeServices names := by
  rw [← ExtTreeSet.toList_inj, toList_boundNames (Nat.le_add_right _ _), TreeSet.toList_smallest]

/-- A filter is read back, with the smallest names it may have. -/
theorem boundedServices_toList (names : ExtTreeSet String) :
    boundedServices (.array (names.toList.map .string)) =
      .ok (TreeSet.smallest maxSubscribeServices names) := by
  have hnames : list string (.array (names.toList.map .string)) = .ok names.toList :=
    list_map .string fun _ _ => rfl
  rw [boundedServices, hnames, ← boundNames_eq]
  exact congrArg Except.ok (by rw [TreeSet.ofList_toList])

/-- An empty filter is left out, and so is read back as the default. -/
theorem orDefault_boundedServices (names : ExtTreeSet String)
    {entries : List (String × Json)} (hentries : values "services" entries = []) :
    orDefault boundedServices ∅ "services"
        (skipEmpty "services" (names.toList.map .string) ++ entries) =
      .ok (TreeSet.smallest maxSubscribeServices names) := by
  by_cases hempty : names.toList = []
  · rw [orDefault_nil (by simp [hempty, hentries]), TreeSet.smallest, hempty]
    rfl
  · exact orDefault_eq (by simp [hempty, hentries]) (boundedServices_toList names)

/-! ### Reading a request back -/

/-- A request is read back, with no more names than a subscription may have. -/
theorem Request.ofJson_toJson (request : Request) :
    ofJson request.toJson = .ok request.bounded := by
  cases request with
  | ping version =>
    have hversion : optional u32 "version" (skipNone "version" ofU32 version) =
        .ok version :=
      optional_eq ofU32 (by simp) u32_ofU32 nofun
    rw [toJson, ofJson, tagged_cons (by simp)]
    simp only [bind, Except.bind, hversion]
    rfl
  | status | shutdown | reload | unknown => rfl
  | startService name | stopService name | restartService name => rfl
  | subscribe services logs =>
    have hservices : orDefault boundedServices ∅ "services"
        (skipEmpty "services" (services.toList.map .string) ++ [("logs", .bool logs)]) =
        .ok (TreeSet.smallest maxSubscribeServices services) :=
      orDefault_boundedServices services rfl
    have hlogs : orDefault bool yes "logs"
        (skipEmpty "services" (services.toList.map .string) ++ [("logs", .bool logs)]) =
        .ok logs :=
      orDefault_eq (by simp; rfl) rfl
    rw [toJson, ofJson, tagged_cons (by simp)]
    simp only [bind, Except.bind, hservices, hlogs, bounded]
    split_ifs with hsize
    · rfl
    · rw [TreeSet.smallest_eq_self (Nat.le_of_not_lt hsize)]
      rfl

end Protocol

end Servicrab
