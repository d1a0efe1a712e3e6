import Mathlib.Data.String.Basic
import Servicrab.Library.Debug

/-!
# Names

What the validation asks of a project or service name (`validation.rs`): ASCII letters and digits,
dots, underscores and hyphens, of which a letter or a digit comes first.

## Main definitions

* `validateName`.
* `NameRules`: what is asked of a name.

## Main results

* `isNameChar_of_validateName`.
* `validateName_eq_ok_iff`: the names that are accepted.
-/

namespace Servicrab

/-- The characters of a name. -/
def isNameChar (ch : Char) : Bool :=
  ch.isAlphanum || ch == '.' || ch == '_' || ch == '-'

/-- Core name validation, shared between project and service names. -/
def validateName (name : String) (maxLen : ℕ) : Except String Unit :=
  match name.toList with
  | [] => .error "must not be empty"
  | first :: _ =>
    if name.toList.any fun ch => 128 ≤ ch.toNat then
      .error "must contain only ASCII characters"
    else if maxLen < name.utf8ByteSize then
      .error s!"must be at most {maxLen} bytes, got {name.utf8ByteSize}"
    else if !first.isAlphanum then
      .error s!"must begin with an ASCII alphanumeric character, got {Debug.char first}"
    else
      match name.toList.find? fun ch => !isNameChar ch with
      | some ch => .error <| s!"character {Debug.char ch} is not allowed; " ++
          "only ASCII alphanumerics, '.', '_', and '-' are permitted"
      | none => .ok ()

/-- What is asked of a name. -/
structure NameRules (maxLen : ℕ) (name : String) : Prop where
  head : ∃ first rest, name.toList = first :: rest ∧ first.isAlphanum
  size : name.utf8ByteSize ≤ maxLen
  chars : ∀ ch ∈ name.toList, isNameChar ch

variable {name : String} {maxLen : ℕ} {ch : Char}

/-- A validated name is not empty, and has the characters of a name only. -/
theorem isNameChar_of_validateName (h : validateName name maxLen = .ok ()) :
    name.toList ≠ [] ∧ ∀ ch ∈ name.toList, isNameChar ch := by
  unfold validateName at h
  split at h
  · cases h
  · rename_i first rest hlist
    refine ⟨by simp [hlist], ?_⟩
    split_ifs at h
    split at h
    · cases h
    · rename_i hnone
      simpa using hnone

/-- The code points of the characters of a name. -/
theorem range_of_isNameChar (h : isNameChar ch) :
    (48 ≤ ch.toNat ∧ ch.toNat ≤ 57) ∨ (65 ≤ ch.toNat ∧ ch.toNat ≤ 90) ∨
      (97 ≤ ch.toNat ∧ ch.toNat ≤ 122) ∨ ch.toNat = 45 ∨ ch.toNat = 46 ∨ ch.toNat = 95 := by
  have hupper : ch.isUpper → 65 ≤ ch.toNat ∧ ch.toNat ≤ 90 := fun h => of_decide_eq_true h
  have hlower : ch.isLower → 97 ≤ ch.toNat ∧ ch.toNat ≤ 122 := fun h =>
    ((Bool.and_eq_true _ _).mp h).imp of_decide_eq_true of_decide_eq_true
  simp only [isNameChar, Char.isAlphanum, Bool.or_eq_true, beq_iff_eq] at h
  rcases h with (((h | h) | rfl) | rfl) | rfl
  · rcases (Bool.or_eq_true _ _).mp h with h | h
    · exact .inr (.inl (hupper h))
    · exact .inr (.inr (.inl (hlower h)))
  · exact .inl (Char.isDigit_iff_toNat.mp h)
  · decide
  · decide
  · decide

/-- A character of a name is an ASCII character. -/
theorem toNat_lt_of_isNameChar (h : isNameChar ch) : ch.toNat < 128 := by
  have hrange := range_of_isNameChar h
  omega

/-- The names that are accepted are those that follow the rules. -/
theorem validateName_eq_ok_iff : validateName name maxLen = .ok () ↔ NameRules maxLen name := by
  constructor
  · intro h
    have hchars := (isNameChar_of_validateName h).2
    unfold validateName at h
    split at h
    · cases h
    · rename_i first rest hlist
      split_ifs at h with hascii hsize hfirst
      exact ⟨⟨first, rest, hlist, by simpa using hfirst⟩, not_lt.mp hsize, hchars⟩
  · rintro ⟨⟨first, rest, hlist, hfirst⟩, hsize, hchars⟩
    have hascii : ¬ (name.toList.any fun ch => 128 ≤ ch.toNat) := by
      simp only [List.any_eq_true, decide_eq_true_eq, not_exists, not_and, not_le]
      exact fun ch hch => toNat_lt_of_isNameChar (hchars ch hch)
    have hfind : (name.toList.find? fun ch => !isNameChar ch) = none := by
      simpa using hchars
    unfold validateName
    rw [hlist] at hascii hfind ⊢
    simp only [hascii, not_lt.mpr hsize, hfirst, hfind]
    rfl

end Servicrab
