import Servicrab.Library.Json

/-!
# Derived serialization

What a derived encoder writes and a derived decoder accepts: objects by the names of their fields,
with fields that are left out when they are empty and fields with a default, enumerations of names
with or without a fallback, and enumerations whose variant is named by a tag among the fields. A
decoder ignores fields it does not know, and refuses a field that is there twice.

## Main definitions

* `Serde.required`, `Serde.orDefault`, `Serde.optional`: reading one field.
* `Serde.skipNone`, `Serde.skipEmpty`: writing a field that may be left out.
* `Serde.variant`: an enumeration of names.
* `Serde.tagged`: the tag of an object, and its other fields.
* `Serde.whole`: a number in a range.
-/

namespace Serde

open Json (values)

/-- Why a value was refused. -/
inductive Error
  | invalidType
  | invalidValue
  | missingField (name : String)
  | duplicateField (name : String)
  | unknownVariant (name : String)
  deriving DecidableEq, Repr

abbrev Result := Except Error

variable {α : Type}

/-! ### Fields -/

/-- The value of a field, if there is one. -/
def field (name : String) (entries : List (String × Json)) : Result (Option Json) :=
  match values name entries with
  | [] => .ok none
  | [value] => .ok (some value)
  | _ => .error (.duplicateField name)

/-- A field that has to be there. -/
def required (decode : Json → Result α) (name : String) (entries : List (String × Json)) :
    Result α := do
  match ← field name entries with
  | some value => decode value
  | none => .error (.missingField name)

/-- A field with a default. -/
def orDefault (decode : Json → Result α) (default : α) (name : String)
    (entries : List (String × Json)) : Result α := do
  match ← field name entries with
  | some value => decode value
  | none => .ok default

/-- A value that may be null. -/
def nullable (decode : Json → Result α) : Json → Result (Option α)
  | .null => .ok none
  | value => some <$> decode value

/-- A field that may be missing, or null. -/
def optional (decode : Json → Result α) : String → List (String × Json) → Result (Option α) :=
  orDefault (nullable decode) none

/-- A field that is only written when there is a value. -/
def skipNone (name : String) (encode : α → Json) (value : Option α) : List (String × Json) :=
  value.toList.map fun value => (name, encode value)

/-- A field that is only written when the list is not empty. -/
def skipEmpty (name : String) (items : List Json) : List (String × Json) :=
  if items.isEmpty then [] else [(name, .array items)]

/-- The fields of a structure. -/
def fields : Json → Result (List (String × Json))
  | .object entries => .ok entries
  | _ => .error .invalidType

/-! ### Enumerations -/

/-- The variant of an enumeration, among the names it knows. -/
def variant (known : List (String × α)) (other : Option α) : Json → Result α
  | .string name =>
    match known.lookup name, other with
    | some value, _ => .ok value
    | none, some value => .ok value
    | none, none => .error (.unknownVariant name)
  | _ => .error .invalidType

/-- The tag of an object, and its other fields. -/
def tagged (tag : String) (json : Json) : Result (String × List (String × Json)) := do
  let entries ← fields json
  match ← field tag entries with
  | some (.string name) => .ok (name, entries.filter (·.1 ≠ tag))
  | some _ => .error .invalidType
  | none => .error (.missingField tag)

/-! ### Plain values -/

def string : Json → Result String
  | .string s => .ok s
  | _ => .error .invalidType

def bool : Json → Result Bool
  | .bool b => .ok b
  | _ => .error .invalidType

/-- A whole number from `low` on and below `high`. -/
def whole (low high : ℤ) (ofInt : ℤ → α) : Json → Result α
  | .number n => if low ≤ n ∧ n < high then .ok (ofInt n) else .error .invalidValue
  | _ => .error .invalidType

def u32 : Json → Result UInt32 := whole 0 (2 ^ 32) fun n => .ofNat n.toNat

def u64 : Json → Result UInt64 := whole 0 (2 ^ 64) fun n => .ofNat n.toNat

def i32 : Json → Result Int32 := whole (-2 ^ 31) (2 ^ 31) .ofInt

def usize : Json → Result USize := whole 0 USize.size fun n => .ofNat n.toNat

def ofU32 (n : UInt32) : Json := .number n.toNat

def ofU64 (n : UInt64) : Json := .number n.toNat

def ofI32 (n : Int32) : Json := .number n.toInt

def ofUsize (n : USize) : Json := .number n.toNat

/-- A list, item by item. -/
def list (decode : Json → Result α) : Json → Result (List α)
  | .array items => items.mapM decode
  | _ => .error .invalidType

/-! ### Reading back what was written -/

variable {name key : String} {entries : List (String × Json)} {decode : Json → Result α}
  {encode : α → Json}

@[simp] theorem values_skipNone (key name : String) (encode : α → Json) (value : Option α) :
    values key (skipNone name encode value) =
      if name = key then value.toList.map encode else [] := by
  cases value <;> simp [skipNone]

@[simp] theorem values_skipEmpty (key name : String) (items : List Json) :
    values key (skipEmpty name items) =
      if name = key ∧ items ≠ [] then [.array items] else [] := by
  cases items <;> simp [skipEmpty]

theorem required_eq {value : Json} {result : Result α} (h : values name entries = [value])
    (hdecode : decode value = result) : required decode name entries = result := by
  simp only [required, field, h]
  exact hdecode

theorem orDefault_eq {value : Json} {default : α} {result : Result α}
    (h : values name entries = [value]) (hdecode : decode value = result) :
    orDefault decode default name entries = result := by
  simp only [orDefault, field, h]
  exact hdecode

theorem orDefault_nil (h : values name entries = []) (default : α) :
    orDefault decode default name entries = .ok default := by
  simp only [orDefault, field, h]
  rfl

/-- A field that is left out when there is no value is read back. -/
theorem optional_eq {value : Option α} (encode : α → Json)
    (h : values name entries = value.toList.map encode)
    (hdecode : ∀ a, decode (encode a) = .ok a) (hnull : ∀ a, encode a ≠ .null) :
    optional decode name entries = .ok value := by
  cases value with
  | none => exact orDefault_nil h none
  | some value =>
    have hsome : nullable decode (encode value) = some <$> decode (encode value) := by
      rw [nullable]
      exact hnull value
    exact orDefault_eq h (by rw [hsome, hdecode]; rfl)

@[simp] theorem string_string (s : String) : string (.string s) = .ok s := rfl

@[simp] theorem bool_bool (b : Bool) : bool (.bool b) = .ok b := rfl

@[simp] theorem u32_ofU32 (n : UInt32) : u32 (ofU32 n) = .ok n := by
  have hlt := n.toNat_lt
  rw [u32, ofU32, whole, if_pos (by omega), Int.toNat_natCast, UInt32.ofNat_toNat]

@[simp] theorem u64_ofU64 (n : UInt64) : u64 (ofU64 n) = .ok n := by
  have hlt := n.toNat_lt
  rw [u64, ofU64, whole, if_pos (by omega), Int.toNat_natCast, UInt64.ofNat_toNat]

@[simp] theorem i32_ofI32 (n : Int32) : i32 (ofI32 n) = .ok n := by
  rw [i32, ofI32, whole, if_pos ⟨n.le_toInt, n.toInt_lt⟩, Int32.ofInt_toInt]

@[simp] theorem usize_ofUsize (n : USize) : usize (ofUsize n) = .ok n := by
  have hlt := n.toNat_lt_size
  rw [usize, ofUsize, whole, if_pos (by omega), Int.toNat_natCast, USize.ofNat_toNat]

theorem list_map (encode : α → Json) {l : List α} (h : ∀ a ∈ l, decode (encode a) = .ok a) :
    list decode (.array (l.map encode)) = .ok l := by
  rw [list]
  induction l with
  | nil => rfl
  | cons a l ih =>
    rw [List.map_cons, List.mapM_cons, h a List.mem_cons_self,
      ih fun b hb => h b (List.mem_cons_of_mem a hb)]
    rfl

/-- A list in which one item was changed. -/
theorem list_modify (encode : α → Json) {f : Json → Json} {g : α → α}
    (h : ∀ a, decode (encode a) = .ok a) (hf : ∀ a, decode (f (encode a)) = .ok (g a))
    (l : List α) (i : ℕ) :
    list decode (.array ((l.map encode).modify i f)) = .ok (l.modify i g) := by
  rw [list]
  induction l generalizing i with
  | nil => cases i <;> rfl
  | cons a l ih =>
    cases i with
    | zero =>
      have hl : (l.map encode).mapM decode = .ok l := list_map encode fun a _ => h a
      rw [List.map_cons, List.modify_zero_cons, List.modify_zero_cons, List.mapM_cons, hf, hl]
      rfl
    | succ i =>
      rw [List.map_cons, List.modify_succ_cons, List.modify_succ_cons, List.mapM_cons, h, ih]
      rfl

/-- The tag of an object that begins with it, and has it nowhere else. -/
theorem tagged_cons {tag : String} (h : values tag entries = []) :
    tagged tag (.object ((tag, .string name) :: entries)) = .ok (name, entries) := by
  have hother : entries.filter (·.1 ≠ tag) = entries := by
    rw [List.filter_eq_self]
    intro entry hentry
    simp only [values, List.map_eq_nil_iff, List.filter_eq_nil_iff] at h
    simpa using h entry hentry
  have hvalues : values tag ((tag, .string name) :: entries) = [.string name] := by
    rw [Json.values_cons, if_pos rfl, h]
  have hfilter : ((tag, Json.string name) :: entries).filter (·.1 ≠ tag) = entries := by
    rw [List.filter_cons_of_neg (by simp), hother]
  simp only [tagged, fields, field, hvalues, hfilter, bind, Except.bind]

end Serde
