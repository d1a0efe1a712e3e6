import Mathlib.Algebra.GroupWithZero.Nat
import Mathlib.Data.List.Basic

/-!
# Byte offsets into a text

A text is a list of characters, each of which takes one to four bytes in UTF-8. An offset in bytes
may fall into the middle of a character, and a text can only be split at one that does not.

## Main definitions

* `ByteOffset.size`, `ByteOffset.splitAt`.

## Main results

* `ByteOffset.splitAt_size`: the offset at which a prefix ends is the end of a character.
-/

namespace ByteOffset

/-- How many bytes a text takes. -/
def size (text : List Char) : ℕ := (text.map Char.utf8Size).sum

/-- The text before and after an offset, unless it falls into the middle of a character or behind
the end. -/
def splitAt : ℕ → List Char → Option (List Char × List Char)
  | 0, text => some ([], text)
  | _ + 1, [] => none
  | offset + 1, c :: text =>
    if c.utf8Size ≤ offset + 1 then
      (splitAt (offset + 1 - c.utf8Size) text).map fun halves => (c :: halves.1, halves.2)
    else none

@[simp] theorem size_nil : size [] = 0 := rfl

@[simp] theorem size_cons (c : Char) (text : List Char) : size (c :: text) = c.utf8Size + size text :=
  rfl

@[simp] theorem size_append (text text' : List Char) :
    size (text ++ text') = size text + size text' := by
  simp [size]

/-- The offset at which a prefix ends is the end of a character. -/
theorem splitAt_size (text text' : List Char) :
    splitAt (size text) (text ++ text') = some (text, text') := by
  induction text with
  | nil => cases text' <;> rfl
  | cons c text ih =>
    obtain ⟨n, hn⟩ : ∃ n, size (c :: text) = n + 1 := by
      have hpos := c.utf8Size_pos
      exact ⟨size (c :: text) - 1, by rw [size_cons]; omega⟩
    have hle : c.utf8Size ≤ n + 1 := by rw [← hn, size_cons]; omega
    have hrest : n + 1 - c.utf8Size = size text := by rw [← hn, size_cons]; omega
    rw [hn, List.cons_append, splitAt, if_pos hle, hrest, ih]
    rfl

end ByteOffset
