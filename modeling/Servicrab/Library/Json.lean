import Mathlib.Algebra.Group.Int.Defs
import Mathlib.Algebra.Group.Nat.Defs
import Mathlib.Data.Int.Init
import Mathlib.Tactic.SplitIfs

/-!
# JSON values

Values as a reader of JSON hands them on: an object keeps its entries in the order they are written
in, and may have one key twice. Numbers are whole numbers.

## Main definitions

* `Json`, `Json.values`, `Json.put`.
-/

/-- A JSON value. -/
inductive Json
  | null
  | bool (b : Bool)
  | number (n : ℤ)
  | string (s : String)
  | array (items : List Json)
  | object (entries : List (String × Json))
  deriving Repr

namespace Json

/-- The values that stand under a key. -/
def values (key : String) (entries : List (String × Json)) : List Json :=
  (entries.filter (·.1 = key)).map (·.2)

/-- One step into a value. -/
inductive Step
  | key (name : String)
  | index (i : ℕ)
  deriving DecidableEq, Repr

/-- Put a value in the place of what stands at the end of a path. -/
def put (value : Json) : List Step → Json → Json
  | [], _ => value
  | .key name :: path, object entries =>
    object (entries.map fun entry =>
      if entry.1 = name then (entry.1, put value path entry.2) else entry)
  | .index i :: path, array items => array (items.modify i (put value path))
  | _ :: _, json => json

variable {key : String} {entries entries' : List (String × Json)}

@[simp] theorem values_nil (key : String) : values key [] = [] := rfl

@[simp] theorem values_cons (key : String) (entry : String × Json)
    (entries : List (String × Json)) :
    values key (entry :: entries) =
      if entry.1 = key then entry.2 :: values key entries else values key entries := by
  by_cases hkey : entry.1 = key <;> simp [values, hkey]

@[simp] theorem values_append (key : String) (entries entries' : List (String × Json)) :
    values key (entries ++ entries') = values key entries ++ values key entries' := by
  simp [values]

/-- Under its key stands what was put there, and under the others what stood there before. -/
theorem values_put (value : Json) (path : List Step) (name key : String)
    (entries : List (String × Json)) :
    values key (entries.map fun entry =>
        if entry.1 = name then (entry.1, put value path entry.2) else entry) =
      if key = name then (values key entries).map (put value path) else values key entries := by
  induction entries with
  | nil => simp
  | cons entry entries ih =>
    rw [List.map_cons, values_cons, values_cons, ih]
    by_cases hname : entry.1 = name <;> by_cases hkey : entry.1 = key <;> split_ifs <;> simp_all

/-- In an object that begins with a key, and has it nowhere else, the first value is changed. -/
theorem put_key_cons (value : Json) (path : List Step) {name : String} (old : Json)
    {entries : List (String × Json)} (h : values name entries = []) :
    put value (.key name :: path) (object ((name, old) :: entries)) =
      object ((name, put value path old) :: entries) := by
  have hother : ∀ entry ∈ entries,
      (if entry.1 = name then (entry.1, put value path entry.2) else entry) = id entry := by
    intro entry hentry
    simp only [values, List.map_eq_nil_iff, List.filter_eq_nil_iff, decide_eq_true_eq] at h
    rw [if_neg (h entry hentry), id]
  rw [put, List.map_cons, if_pos rfl, List.map_congr_left hother, List.map_id]

end Json
