import Mathlib.Algebra.Group.Nat.Defs
import Mathlib.Data.List.Induction
import Mathlib.Data.List.TakeWhile
import Servicrab.Library.Lines

/-!
# Text

The methods of `str` and `Path` that the configuration is read with. A text is the list of its
characters where it is taken apart, and a path is a text with slashes.

## Main definitions

* `Text.trim`, `Text.splitOnce`, `Text.rsplitOnce`, `Text.lines`.
* `Text.parseU16`.
* `Path.isAbsolute`, `Path.join`, `Path.parent`.

## Main results

* `Text.splitOnce_singleton`, `Text.rsplitOnce_append`.
* `Text.parseU16_toDigits`.
-/

namespace Servicrab

namespace Text

/-- `char::is_whitespace`: the property `White_Space` of Unicode. -/
def isWhitespace (c : Char) : Bool :=
  let n := c.toNat
  (9 ≤ n && n ≤ 13) || n == 32 || n == 0x85 || n == 0xA0 || n == 0x1680 ||
    (0x2000 ≤ n && n ≤ 0x200A) || n == 0x2028 || n == 0x2029 || n == 0x202F || n == 0x205F ||
    n == 0x3000

/-- `str::trim_start`. -/
def trimStart (text : List Char) : List Char := text.dropWhile isWhitespace

/-- `str::trim_end`. -/
def trimEnd (text : List Char) : List Char := (text.reverse.dropWhile isWhitespace).reverse

/-- `str::trim`. -/
def trim (text : List Char) : List Char := trimEnd (trimStart text)

/-- `str::strip_prefix`. -/
def stripPrefix (start text : List Char) : Option (List Char) :=
  if start <+: text then some (text.drop start.length) else none

/-- `str::split_once`: the text before and after the first occurrence of a separator. -/
def splitOnce (separator : List Char) : List Char → Option (List Char × List Char)
  | [] => if separator = [] then some ([], []) else none
  | c :: text =>
    if separator <+: c :: text then some ([], (c :: text).drop separator.length)
    else (splitOnce separator text).map fun halves => (c :: halves.1, halves.2)

/-- `str::rsplit_once`: the text before and after the last occurrence of a character. -/
def rsplitOnce (separator : Char) (text : List Char) : Option (List Char × List Char) :=
  (splitOnce [separator] text.reverse).map fun halves => (halves.2.reverse, halves.1.reverse)

/-- A line without its ending. -/
def stripEnding (line : List Char) : List Char :=
  let line := line.dropLast
  if line.getLast? = some '\r' then line.dropLast else line

/-- `str::lines`. -/
def lines (text : List Char) : List (List Char) :=
  (Lines.complete '\n' text).map stripEnding ++
    (if Lines.rest '\n' text = [] then [] else [Lines.rest '\n' text])

/-- The number that digits stand for. -/
def natOfDigits (digits : List Char) : ℕ :=
  digits.foldl (fun n c => 10 * n + (c.toNat - '0'.toNat)) 0

/-- `str::parse::<u16>`. -/
def parseU16 (text : List Char) : Option ℕ :=
  let digits := (stripPrefix ['+'] text).getD text
  if digits ≠ [] ∧ digits.all Char.isDigit ∧ natOfDigits digits < 2 ^ 16 then
    some (natOfDigits digits)
  else none

example : lines "a\r\n\nb".toList = ["a".toList, [], "b".toList] := by decide

/-! ### Texts that are put together are cut apart again -/

variable {start before after text : List Char} {c separator : Char}

@[simp] theorem stripPrefix_append (start text : List Char) :
    stripPrefix start (start ++ text) = some text := by
  simp [stripPrefix]

theorem stripPrefix_eq_none (h : ¬start <+: text) : stripPrefix start text = none := if_neg h

@[simp] theorem stripPrefix_singleton_cons : stripPrefix [c] (c :: text) = some text :=
  stripPrefix_append [c] text

theorem stripPrefix_singleton_eq_none (h : c ∉ text) : stripPrefix [c] text = none :=
  stripPrefix_eq_none fun hstart => h (hstart.subset (List.mem_singleton_self c))

/-- A text is split at the first occurrence of the separator. -/
theorem splitOnce_singleton (h : separator ∉ before) :
    splitOnce [separator] (before ++ separator :: after) = some (before, after) := by
  induction before with
  | nil => simp [splitOnce]
  | cons c before ih =>
    rw [List.mem_cons, not_or] at h
    simp [splitOnce, h.1, ih h.2]

theorem splitOnce_singleton_eq_none (h : separator ∉ text) : splitOnce [separator] text = none := by
  induction text with
  | nil => rfl
  | cons c text ih =>
    rw [List.mem_cons, not_or] at h
    simp [splitOnce, h.1, ih h.2]

/-- A text is split at the last occurrence of the separator. -/
theorem rsplitOnce_append (h : separator ∉ after) :
    rsplitOnce separator (before ++ separator :: after) = some (before, after) := by
  have hreverse : (before ++ separator :: after).reverse =
      after.reverse ++ separator :: before.reverse := by simp
  rw [rsplitOnce, hreverse, splitOnce_singleton (List.mem_reverse.not.mpr h)]
  simp

theorem rsplitOnce_eq_none (h : separator ∉ text) : rsplitOnce separator text = none := by
  rw [rsplitOnce, splitOnce_singleton_eq_none (List.mem_reverse.not.mpr h), Option.map_none]

/-! ### Blanks are cut off -/

variable {blanks : List Char}

theorem trimStart_append (h : ∀ c ∈ blanks, isWhitespace c) (text : List Char) :
    trimStart (blanks ++ text) = trimStart text := List.dropWhile_append_of_pos h

theorem trimStart_cons (h : ¬isWhitespace c) (text : List Char) : trimStart (c :: text) = c :: text :=
  List.dropWhile_cons_of_neg h

theorem trimStart_blanks (h : ∀ c ∈ blanks, isWhitespace c) : trimStart blanks = [] :=
  List.dropWhile_eq_nil_iff.mpr h

theorem trimEnd_append (h : ∀ c ∈ blanks, isWhitespace c) (text : List Char) :
    trimEnd (text ++ blanks) = trimEnd text := by
  rw [trimEnd, List.reverse_append,
    List.dropWhile_append_of_pos fun c hc => h c (List.mem_reverse.mp hc), trimEnd]

/-- What comes before the last character that is no blank stays. -/
theorem trimEnd_append_cons (h : ¬isWhitespace c) (before text : List Char) :
    trimEnd (before ++ c :: text) = before ++ c :: trimEnd text := by
  have hreverse : (before ++ c :: text).reverse = text.reverse ++ c :: before.reverse := by simp
  rw [trimEnd, hreverse, List.dropWhile_append, List.dropWhile_cons_of_neg h]
  split_ifs with hblank
  · simp [trimEnd, List.isEmpty_iff.mp hblank]
  · simp [trimEnd]

/-- Blanks at the end make no difference. -/
theorem trim_append (h : ∀ c ∈ blanks, isWhitespace c) (text : List Char) :
    trim (text ++ blanks) = trim text := by
  have hstart : trimStart (text ++ blanks) = trimStart text ++
      if (trimStart text).isEmpty then [] else blanks := by
    rw [trimStart, List.dropWhile_append, ← trimStart]
    split_ifs with hempty
    · rw [List.isEmpty_iff.mp hempty]
      exact trimStart_blanks h
    · rfl
  rw [trim, hstart]
  split_ifs
  · rw [List.append_nil, trim]
  · rw [trimEnd_append h, trim]

theorem trim_blanks (h : ∀ c ∈ blanks, isWhitespace c) : trim blanks = [] :=
  trim_append h []

/-- A text without blanks is left as it is. -/
theorem trim_of_forall (h : ∀ c ∈ text, ¬isWhitespace c) : trim text = text := by
  induction text using List.reverseRecOn with
  | nil => rfl
  | append_singleton text c _ =>
    have hlast := h c (by simp)
    have hstart : trimStart (text ++ [c]) = text ++ [c] := by
      cases text with
      | nil => exact trimStart_cons hlast []
      | cons d text => exact trimStart_cons (h d (by simp)) _
    rw [trim, hstart, trimEnd_append_cons hlast]
    rfl

/-! ### Numbers -/

/-- A number is read back from its decimal digits. -/
theorem parseU16_toDigits {n : ℕ} (h : n < 2 ^ 16) : parseU16 (Nat.toDigits 10 n) = some n := by
  have hdigits : ∀ c ∈ Nat.toDigits 10 n, c.isDigit := fun c hc =>
    Nat.isDigit_of_mem_toDigits (by decide) (by decide) hc
  have hsign : '+' ∉ Nat.toDigits 10 n := fun hmem => absurd (hdigits _ hmem) (by decide)
  have hvalue : natOfDigits (Nat.toDigits 10 n) = n := Nat.ofDigitChars_ten_toDigits
  rw [parseU16, stripPrefix_singleton_eq_none hsign, Option.getD_none, hvalue]
  exact if_pos ⟨Nat.toDigits_ne_nil, List.all_eq_true.mpr hdigits, h⟩

end Text

namespace Path

/-- `Path::is_absolute`. -/
def isAbsolute (path : String) : Bool := path.toList.head? = some '/'

/-- `Path::join`. -/
def join (base path : String) : String :=
  if isAbsolute path then path
  else if base.toList = [] ∨ base.toList.getLast? = some '/' then base ++ path
  else base ++ "/" ++ path

/-- The parts of a path between its slashes, up to the last one that names something. The first part
of an absolute path is empty, and the dot that a relative path begins with counts. -/
def dropFiller : List (List Char) → List (List Char)
  | [] => []
  | first :: parts =>
    match (parts.reverse.dropWhile fun part => part = [] || part = ['.']).reverse with
    | [] => if first = [] then [] else [first]
    | parts => first :: parts

/-- `Path::parent`: the path without the last thing that it names. -/
def parent (path : String) : Option String :=
  match dropFiller (path.toList.splitOn '/') with
  | [] => none
  | parts =>
    match dropFiller parts.dropLast with
    | [] => some (if isAbsolute path then "/" else "")
    | front => some (String.ofList (['/'].intercalate front))

example : parent "/srv//app/./stack.toml" = some "/srv//app" := by decide

end Path

end Servicrab
