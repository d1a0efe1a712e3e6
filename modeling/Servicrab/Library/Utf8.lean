import Mathlib.Data.List.Basic
import Mathlib.Algebra.Order.Group.Nat

/-!
# Texts as bytes

A text is sent as the bytes of its characters in UTF-8.

## Main definitions

* `Utf8.encode`, `Utf8.decode?`.

## Main results

* `Utf8.decode?_encode`: a text is read back from its bytes.
* `Utf8.eq_of_mem_encodeChar`: an ASCII byte stands for its own character only.
-/

namespace Utf8

/-- The bytes of a text. -/
def encode (text : List Char) : List UInt8 := text.flatMap String.utf8EncodeChar

/-- The text of some bytes, if they are UTF-8. -/
def decode? (bytes : List UInt8) : Option (List Char) :=
  (String.fromUTF8? ⟨bytes.toArray⟩).map String.toList

theorem encode_append (text text' : List Char) : encode (text ++ text') = encode text ++ encode text' :=
  List.flatMap_append

/-- A text is read back from its bytes. -/
theorem decode?_encode (text : List Char) : decode? (encode text) = some text := by
  have hbytes : (⟨(encode text).toArray⟩ : ByteArray) = text.utf8Encode := by
    rw [List.utf8Encode, ByteArray.ext_iff, List.data_toByteArray]
    rfl
  have hvalid : text.utf8Encode.IsValidUTF8 := ByteArray.isValidUTF8_utf8Encode
  rw [decode?, hbytes, String.fromUTF8?, dif_pos hvalid, Option.map_some, Option.some.injEq]
  have hofList : String.fromUTF8 text.utf8Encode hvalid = String.ofList text :=
    String.toByteArray_inj.mp String.toByteArray_ofList.symm
  rw [hofList, String.toList_ofList]

/-- A byte below 128 stands for its own character only. -/
theorem eq_of_mem_encodeChar {byte : UInt8} (hbyte : byte.toNat < 128) {c : Char}
    (h : byte ∈ String.utf8EncodeChar c) : c.toNat = byte.toNat := by
  -- The bytes of the longer encodings all have their highest bit set.
  have hhigh (n : ℕ) (hle : 128 ≤ n) (hlt : n < 256) : byte ≠ UInt8.ofNat n := by
    rintro rfl
    rw [UInt8.toNat_ofNat', Nat.mod_eq_of_lt hlt] at hbyte
    omega
  rw [String.utf8EncodeChar] at h
  split_ifs at h with h1 h2 h3
  · obtain rfl := List.mem_singleton.mp h
    have hlt : c.val.toNat < 2 ^ 8 := by omega
    exact (UInt8.toNat_ofNat_of_lt' hlt).symm
  all_goals
    simp only [List.mem_cons, List.not_mem_nil, or_false] at h
    exfalso
  · rcases h with h | h <;> exact hhigh _ (by omega) (by omega) h
  · rcases h with h | h | h <;> exact hhigh _ (by omega) (by omega) h
  · rcases h with h | h | h | h <;> exact hhigh _ (by omega) (by omega) h

/-- An ASCII character is only found in the bytes of a text that has it. -/
theorem notMem_encode {byte : UInt8} (hbyte : byte.toNat < 128) {text : List Char}
    (h : ∀ c ∈ text, c.toNat ≠ byte.toNat) : byte ∉ encode text := by
  intro hmem
  obtain ⟨c, hc, hmem⟩ := List.mem_flatMap.mp hmem
  exact h c hc (eq_of_mem_encodeChar hbyte hmem)

end Utf8
