import Mathlib.Data.List.DropRight
import Servicrab.Core.Name
import Servicrab.Library.Lines
import Std.Data.ExtTreeSet

/-!
# The services that were stopped by hand

The file in which the daemon remembers them (`stopped.rs`): a version line, and then the names, one
a line. It may be edited by hand, so that what is read need not be what was written: comments, blank
lines and whitespace around a name are passed over.

A decision about a service is recorded by reading the file and writing it back with the name added
or taken out. What is written is read back as it is, as long as the names are those that the
validation lets through; so a recorded decision changes what is remembered of this one service.

## Main definitions

* `Stopped.parse`, `Stopped.render`, `Stopped.read`, `Stopped.record`.
* `Stopped.Plain`: a name that can be on a line of its own.

## Main results

* `Stopped.parse_render`.
* `Stopped.mem_read_record`.
-/

open Std (ExtTreeSet)

namespace Servicrab

/-- `char::is_whitespace`. -/
def isWhitespace (ch : Char) : Bool :=
  (9 ≤ ch.toNat ∧ ch.toNat ≤ 13) ∨ (0x2000 ≤ ch.toNat ∧ ch.toNat ≤ 0x200A) ∨
    ch.toNat ∈ [0x20, 0x85, 0xA0, 0x1680, 0x2028, 0x2029, 0x202F, 0x205F, 0x3000]

/-- `str::trim`. -/
def trim (text : List Char) : List Char := (text.dropWhile isWhitespace).rdropWhile isWhitespace

/-- A line without its end, which is a line feed or a carriage return and a line feed. -/
def stripLineEnd (line : List Char) : List Char :=
  let line := line.dropLast
  if line.getLast? = some '\r' then line.dropLast else line

/-- `str::lines`. -/
def textLines (text : List Char) : List (List Char) :=
  (Lines.complete '\n' text).map stripLineEnd ++
    if Lines.rest '\n' text = [] then [] else [Lines.rest '\n' text]

namespace Stopped

/-- The format marker written at the top of the file. -/
def versionLine : String := "# servicrab stopped v1"

/-- Whether a line, once trimmed, holds a name. -/
def isName (line : List Char) : Bool := !line.isEmpty && line.head? != some '#'

/-- Split the file into names, ignoring the version line and any other comment. -/
def parse (text : String) : ExtTreeSet String :=
  .ofList ((((textLines text.toList).map trim).filter isName).map String.ofList)

/-- Render a set as the file's contents. -/
def render (names : ExtTreeSet String) : String :=
  names.toList.foldl (fun text name => text ++ name ++ "\n") (versionLine ++ "\n")

/-- Read the remembered set. A missing or unreadable file means that nothing is remembered. -/
def read (file : Option String) : ExtTreeSet String := (file.map parse).getD ∅

/-- Record whether a service is currently stopped by hand. -/
def record (file : Option String) (service : String) (stopped : Bool) : Option String :=
  let names := read file
  let changed := if stopped then service ∉ names else service ∈ names
  -- Forgetting a name that was never there must not create the file.
  if changed then
    some (render (if stopped then names.insert service else names.erase service))
  else file

/-- A name that is read back from a line of its own. -/
structure Plain (name : String) : Prop where
  isName : isName name.toList
  trim_eq : trim name.toList = name.toList
  newline : '\n' ∉ name.toList

end Stopped

/-! ### Whitespace at the ends of a line -/

theorem isWhitespace_eq_false_of_isNameChar {ch : Char} (h : isNameChar ch) :
    isWhitespace ch = false ∧ ch ≠ '#' := by
  have hrange := range_of_isNameChar h
  constructor
  · simp only [isWhitespace, List.mem_cons, List.not_mem_nil, or_false, Bool.decide_or,
      Bool.decide_and, Bool.or_eq_false_iff, Bool.and_eq_false_iff, decide_eq_false_iff_not]
    omega
  · rintro rfl
    simp at hrange

theorem trim_eq_self {text : List Char} (h : ∀ ch ∈ text, isWhitespace ch = false) :
    trim text = text := by
  have hfront : text.dropWhile isWhitespace = text :=
    List.dropWhile_eq_self_iff.mpr fun hl => by simp [h _ (List.getElem_mem hl)]
  rw [trim, hfront]
  exact List.rdropWhile_eq_self_iff.mpr fun hl => by simp [h _ (List.getLast_mem hl)]

theorem trim_trim (text : List Char) : trim (trim text) = trim text := by
  have hinitial : trim text <+: text.dropWhile isWhitespace := List.rdropWhile_prefix _ _
  have hfront : (trim text).dropWhile isWhitespace = trim text := by
    refine List.dropWhile_eq_self_iff.mpr fun hl => ?_
    rw [hinitial.getElem hl]
    exact List.dropWhile_get_zero_not isWhitespace text _
  rw [trim, hfront]
  exact List.rdropWhile_idempotent _ _

theorem isWhitespace_getLast_trim {text : List Char} {ch : Char} (h : (trim text).getLast? = some ch) :
    isWhitespace ch = false := by
  have hne : trim text ≠ [] := fun hnil => by simp [hnil] at h
  rw [List.getLast?_eq_some_getLast hne, Option.some.injEq] at h
  have hlast := List.rdropWhile_last_not isWhitespace (text.dropWhile isWhitespace) hne
  exact Bool.eq_false_of_not_eq_true (h ▸ hlast)

theorem mem_of_mem_trim {text : List Char} {ch : Char} (h : ch ∈ trim text) : ch ∈ text :=
  (List.dropWhile_suffix _).subset ((List.rdropWhile_prefix _ _).subset h)

/-! ### Lines -/

theorem newline_notMem_of_mem_textLines {text line : List Char} (h : line ∈ textLines text) :
    '\n' ∉ line := by
  rcases List.mem_append.mp h with h | h
  · obtain ⟨whole, hwhole, rfl⟩ := List.mem_map.mp h
    obtain ⟨line, rfl, hline⟩ := Lines.exists_of_mem_complete hwhole
    have hsub : stripLineEnd (line ++ ['\n']) ⊆ line := by
      simp only [stripLineEnd, List.dropLast_concat]
      split_ifs
      · exact List.dropLast_subset line
      · exact List.Subset.refl line
    exact fun hmem => hline (hsub hmem)
  · split_ifs at h
    · cases h
    · rw [List.mem_singleton.mp h]
      exact Lines.sep_notMem_rest

/-- Lines that were written one after another are read as they are, but for a carriage return at the
end of one. -/
theorem textLines_flatMap {ls : List (List Char)} (hnewline : ∀ l ∈ ls, '\n' ∉ l)
    (hreturn : ∀ l ∈ ls, l.getLast? ≠ some '\r') : textLines (ls.flatMap (· ++ ['\n'])) = ls := by
  rw [textLines, Lines.complete_flatMap hnewline, Lines.rest_flatMap hnewline, if_pos rfl,
    List.append_nil, List.map_map]
  conv_rhs => rw [← List.map_id ls]
  refine List.map_congr_left fun l hl => ?_
  simp [stripLineEnd, hreturn l hl]

namespace Stopped

variable {name service text : String} {names : ExtTreeSet String} {file : Option String}
  {stopped : Bool}

/-! ### What is read and written -/

theorem mem_parse : name ∈ parse text ↔
    ∃ line ∈ textLines text.toList, isName (trim line) ∧ trim line = name.toList := by
  rw [parse, Std.ExtTreeSet.mem_ofList, List.contains_iff_mem, List.mem_map]
  simp only [List.mem_filter, List.mem_map]
  constructor
  · rintro ⟨_, ⟨⟨line, hline, rfl⟩, hname⟩, rfl⟩
    exact ⟨line, hline, hname, String.toList_ofList.symm⟩
  · rintro ⟨line, hline, hname, htrim⟩
    exact ⟨trim line, ⟨⟨line, hline, rfl⟩, hname⟩, by rw [htrim, String.ofList_toList]⟩

/-- What is read can be on a line of its own. -/
theorem plain_of_mem_parse (h : name ∈ parse text) : Plain name := by
  obtain ⟨line, hline, hname, htrim⟩ := mem_parse.mp h
  constructor
  · rwa [← htrim]
  · rw [← htrim, trim_trim]
  · rw [← htrim]
    exact fun hmem => newline_notMem_of_mem_textLines hline (mem_of_mem_trim hmem)

theorem plain_of_mem_read (h : name ∈ read file) : Plain name := by
  cases file with
  | none => exact absurd h Std.ExtTreeSet.not_mem_empty
  | some text => exact plain_of_mem_parse h

/-- A name that the validation lets through can be on a line of its own. -/
theorem plain_of_validateName {maxLen : ℕ} (h : validateName name maxLen = .ok ()) :
    Plain name := by
  obtain ⟨hne, hchars⟩ := isNameChar_of_validateName h
  have hplain : ∀ ch ∈ name.toList, isWhitespace ch = false ∧ ch ≠ '#' :=
    fun ch hch => isWhitespace_eq_false_of_isNameChar (hchars ch hch)
  constructor
  · cases hlist : name.toList with
    | nil => exact absurd hlist hne
    | cons first rest => simp [isName, (hplain first (by simp [hlist])).2]
  · exact trim_eq_self fun ch hch => (hplain ch hch).1
  · exact fun hmem => absurd (hplain _ hmem).1 (by decide)

theorem toList_render (names : ExtTreeSet String) : (render names).toList =
    ((versionLine :: names.toList).map String.toList).flatMap (· ++ ['\n']) := by
  have hfold : ∀ (l : List String) (text : String),
      (l.foldl (fun text name => text ++ name ++ "\n") text).toList =
        text.toList ++ (l.map String.toList).flatMap (· ++ ['\n']) := by
    intro l
    induction l with
    | nil => simp
    | cons name l ih =>
      intro text
      rw [List.foldl_cons, ih]
      simp
  rw [render, hfold]
  simp

theorem Plain.getLast?_ne (h : Plain name) : name.toList.getLast? ≠ some '\r' := by
  rw [← h.trim_eq]
  exact fun hlast => absurd (isWhitespace_getLast_trim hlast) (by decide)

/-- **What is written is read back.** -/
theorem parse_render (h : ∀ name ∈ names, Plain name) : parse (render names) = names := by
  have hwritten : ∀ l ∈ (versionLine :: names.toList).map String.toList,
      '\n' ∉ l ∧ l.getLast? ≠ some '\r' := by
    intro l hl
    obtain ⟨written, hwritten, rfl⟩ := List.mem_map.mp hl
    rcases List.mem_cons.mp hwritten with rfl | hwritten
    · decide
    · have hplain := h written (Std.ExtTreeSet.mem_toList.mp hwritten)
      exact ⟨hplain.newline, hplain.getLast?_ne⟩
  have hlines : textLines (render names).toList = (versionLine :: names.toList).map String.toList := by
    rw [toList_render]
    exact textLines_flatMap (fun l hl => (hwritten l hl).1) fun l hl => (hwritten l hl).2
  refine Std.ExtTreeSet.ext_mem fun name => ?_
  rw [mem_parse, hlines]
  constructor
  · rintro ⟨line, hline, hname, htrim⟩
    obtain ⟨written, hwritten, rfl⟩ := List.mem_map.mp hline
    rcases List.mem_cons.mp hwritten with rfl | hwritten
    · exact absurd hname (by decide)
    · have hmem := Std.ExtTreeSet.mem_toList.mp hwritten
      rw [(h written hmem).trim_eq, String.toList_inj] at htrim
      exact htrim ▸ hmem
  · intro hmem
    have hplain := h name hmem
    refine ⟨name.toList, List.mem_map_of_mem (.tail _ (Std.ExtTreeSet.mem_toList.mpr hmem)), ?_⟩
    rw [hplain.trim_eq]
    exact ⟨hplain.isName, rfl⟩

theorem mem_updated : (name ∈ if stopped then names.insert service else names.erase service) ↔
    if name = service then stopped = true else name ∈ names := by
  cases stopped with
  | true =>
    simp only [if_true, Std.ExtTreeSet.mem_insert, compare_eq_iff_eq]
    split_ifs with he
    · simp [he]
    · simp [Ne.symm he]
  | false =>
    simp only [Bool.false_eq_true, if_false, Std.ExtTreeSet.mem_erase, Ne, compare_eq_iff_eq]
    split_ifs with he
    · simp [he]
    · simp [Ne.symm he]

/-- A decision that is remembered already is not written. -/
theorem record_cases (file : Option String) (service : String) (stopped : Bool) :
    record file service stopped = some (render
      (if stopped then (read file).insert service else (read file).erase service)) ∨
    record file service stopped = file ∧ (service ∈ read file ↔ stopped = true) := by
  by_cases hmem : service ∈ read file <;> cases stopped <;> simp [record, hmem]

/-- **A recorded decision** is about one service. -/
theorem mem_read_record (hservice : Plain service) :
    name ∈ read (record file service stopped) ↔
      if name = service then stopped = true else name ∈ read file := by
  rcases record_cases file service stopped with hwrite | ⟨hkeep, hknown⟩
  · have hplain : ∀ name ∈ if stopped then (read file).insert service else (read file).erase service,
        Plain name := by
      intro name hname
      have hname := mem_updated.mp hname
      split_ifs at hname with he
      · exact he ▸ hservice
      · exact plain_of_mem_read hname
    rw [hwrite, ← mem_updated]
    exact iff_of_eq (congrArg (name ∈ ·) (parse_render hplain))
  · rw [hkeep]
    split_ifs with he
    · exact he ▸ hknown
    · rfl

end Stopped

end Servicrab
