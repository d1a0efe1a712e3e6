import Servicrab.Config.EnvFile

/-!
# Environment files that are written out

The lines of an environment file (`envfile.rs`) from the parts that they are put together from: a
key, its value in double quotes with the escapes that are taken back, and around them blanks, an
`export` and a comment. Such a line is read as its key and its value, whatever the value is: the quote
that ends it is the first one without a backslash, and what follows it is a comment or nothing.

## Main definitions

* `EnvFile.Line`, `EnvFile.Line.render`: a line by its parts, and as it is written.
* `EnvFile.escape`: a value between its quotes.
* `EnvFile.fileText`: the text of a file with given lines.
* `EnvFile.lastValue`: the value of a key in its last line.

## Main results

* `EnvFile.scanQuoted_escape`, `EnvFile.parseLine_render`.
* `EnvFile.parse_fileText`.
-/

open Std (ExtTreeMap)

namespace Servicrab.EnvFile

/-! ### Lines -/

/-- Blanks within a line. -/
abbrev Blanks := { text : List Char // ∀ c ∈ text, Text.isWhitespace c ∧ c ≠ '\n' }

/-- Any text within a line. -/
abbrev LineText := { text : List Char // '\n' ∉ text }

/-- The keys that a line can be written with. -/
structure Key where
  text : List Char
  ne_nil : text ≠ []
  plain : ∀ c ∈ text, ¬Text.isWhitespace c ∧ c ≠ '=' ∧ c ≠ '\x00'
  head : ∀ c ∈ text.head?, c ≠ '#' ∧ c ≠ '\uFEFF'

/-- A line by its parts. -/
inductive Line
  | blank (blanks : Blanks)
  | comment (indent : Blanks) (text : LineText)
  /-- `KEY="value"`, possibly after `export ` and more blanks, and before blanks and a comment. -/
  | assign (indent : Blanks) (exported : Option Blanks) (key : Key) (value : List Char)
      (blanks : Blanks) (remark : Option LineText)

/-- How a character of a value is written between double quotes. -/
def escapeChar (c : Char) : List Char :=
  if c = '\\' then ['\\', '\\']
  else if c = '"' then ['\\', '"']
  else if c = '\n' then ['\\', 'n']
  else if c = '\r' then ['\\', 'r']
  else if c = '\t' then ['\\', 't']
  else [c]

/-- A value as it is written between double quotes. -/
def escape (value : List Char) : List Char := value.flatMap escapeChar

/-- `#` and what follows it. -/
def commentText (remark : Option LineText) : List Char := remark.elim [] fun text => '#' :: text.val

def exportText (exported : Option Blanks) : List Char :=
  exported.elim [] fun blanks => "export ".toList ++ blanks.val

namespace Line

/-- A line as it is written. -/
def render : Line → List Char
  | blank blanks => blanks.val
  | comment indent text => indent.val ++ '#' :: text.val
  | assign indent exported key value blanks remark =>
    indent.val ++ (exportText exported ++ (key.text ++ '=' :: '"' :: (escape value ++
      '"' :: (blanks.val ++ commentText remark))))

/-- The key and the value of a line. -/
def entry : Line → Option (String × String)
  | blank _ => none
  | comment _ _ => none
  | assign _ _ key value _ _ => some (String.ofList key.text, String.ofList value)

end Line

/-- The text of a file with given lines, of which the last one may not be ended. -/
def fileText (lines : List Line) (ended : Bool) : String :=
  let text := lines.flatMap (·.render ++ ['\n'])
  String.ofList (if ended then text else text.dropLast)

/-- The value of a key in its last line. -/
def lastValue (lines : List Line) (key : String) : Option String :=
  ((lines.filterMap Line.entry).filter (·.1 = key)).getLast?.map Prod.snd

variable {text out value : List Char} {c : Char} {lines : List Line}

/-! ### Values -/

theorem scanQuoted_quote (out text : List Char) :
    scanQuoted '"' true out ('"' :: text) = .ok (out, text) := by
  cases text <;> simp [scanQuoted]

theorem scanQuoted_escaped (out text : List Char) (c : Char) :
    scanQuoted '"' true out ('\\' :: c :: text) = scanQuoted '"' true (out ++ unescape c) text := by
  simp [scanQuoted]

theorem scanQuoted_char (hquote : c ≠ '"') (hback : c ≠ '\\') (out text : List Char) :
    scanQuoted '"' true out (c :: text) = scanQuoted '"' true (out ++ [c]) text := by
  cases text <;> simp [scanQuoted, hquote, hback]

theorem scanQuoted_escapeChar (c : Char) (out text : List Char) :
    scanQuoted '"' true out (escapeChar c ++ text) = scanQuoted '"' true (out ++ [c]) text := by
  unfold escapeChar
  split_ifs with hback hquote hnewline hreturn htab
  · subst hback
    exact scanQuoted_escaped out text '\\'
  · subst hquote
    exact scanQuoted_escaped out text '"'
  · subst hnewline
    exact scanQuoted_escaped out text 'n'
  · subst hreturn
    exact scanQuoted_escaped out text 'r'
  · subst htab
    exact scanQuoted_escaped out text 't'
  · exact scanQuoted_char hquote hback out text

/-- A value is read back from between its quotes. -/
theorem scanQuoted_escape (value out text : List Char) :
    scanQuoted '"' true out (escape value ++ '"' :: text) = .ok (out ++ value, text) := by
  induction value generalizing out with
  | nil => simpa [escape] using scanQuoted_quote out text
  | cons c value ih =>
    have hescape : escape (c :: value) = escapeChar c ++ escape value := List.flatMap_cons
    rw [hescape, List.append_assoc, scanQuoted_escapeChar, ih]
    simp

theorem newline_notMem_escape (value : List Char) : '\n' ∉ escape value := by
  intro hmem
  obtain ⟨c, -, hc⟩ := List.mem_flatMap.mp hmem
  unfold escapeChar at hc
  split_ifs at hc with _ _ hnewline
  · simp at hc
  · simp at hc
  · simp at hc
  · simp at hc
  · simp at hc
  · exact hnewline (List.mem_singleton.mp hc).symm

/-- What follows the quote is nothing or a comment. -/
theorem trim_remark (blanks : Blanks) (remark : Option LineText) :
    ∀ c ∈ (Text.trim (Text.trimEnd (blanks.val ++ commentText remark))).head?, c = '#' := by
  have hblanks : ∀ c ∈ blanks.val, Text.isWhitespace c := fun c hc => (blanks.property c hc).1
  have hsharp : ¬Text.isWhitespace '#' := by decide
  cases remark with
  | none =>
    rw [commentText, Option.elim_none, ← List.nil_append (blanks.val ++ []), List.append_nil,
      Text.trimEnd_append hblanks]
    simp [Text.trimEnd, Text.trim, Text.trimStart]
  | some text =>
    rw [commentText, Option.elim_some, Text.trimEnd_append_cons hsharp, Text.trim,
      Text.trimStart_append hblanks, Text.trimStart_cons hsharp]
    have hend := Text.trimEnd_append_cons hsharp [] (Text.trimEnd text.val)
    rw [List.nil_append] at hend
    simp [hend]

theorem parseValue_escape (value : List Char) (blanks : Blanks) (remark : Option LineText) :
    parseValue ('"' :: (escape value ++ '"' :: Text.trimEnd (blanks.val ++ commentText remark))) =
      .ok value := by
  have htrim := trim_remark blanks remark
  have hquoted : parseValue ('"' :: (escape value ++
      '"' :: Text.trimEnd (blanks.val ++ commentText remark))) = unquote ('"' :: (escape value ++
        '"' :: Text.trimEnd (blanks.val ++ commentText remark))) '"' true := rfl
  rw [hquoted, unquote, List.drop_one, List.tail_cons, scanQuoted_escape]
  simp only [bind, Except.bind]
  rw [if_neg]
  · rfl
  · rintro ⟨hne, hhead⟩
    obtain ⟨c, rest, hlist⟩ := List.exists_cons_of_ne_nil hne
    rw [hlist] at htrim hhead
    exact hhead (congrArg some (htrim c rfl))

/-! ### A line -/

theorem Key.trim_text (key : Key) : Text.trim key.text = key.text :=
  Text.trim_of_forall fun c hc => (key.plain c hc).1

/-- A line with a key does not begin with a blank, nor with a comment. -/
theorem exists_head (exported : Option Blanks) (key : Key) (text : List Char) :
    ∃ c more, exportText exported ++ (key.text ++ text) = c :: more ∧
      ¬Text.isWhitespace c ∧ c ≠ '#' ∧ c ≠ '\uFEFF' := by
  cases exported with
  | none =>
    obtain ⟨c, rest, hkey⟩ := List.exists_cons_of_ne_nil key.ne_nil
    have hhead := key.head c (by rw [hkey]; rfl)
    have hplain := key.plain c (by rw [hkey]; exact List.mem_cons_self)
    exact ⟨c, rest ++ text, by simp [exportText, hkey], hplain.1, hhead⟩
  | some blanks =>
    exact ⟨'e', "xport ".toList ++ blanks.val ++ (key.text ++ text), by simp [exportText], by decide,
      by decide, by decide⟩

/-- An `export` is found where there is one. -/
theorem stripPrefix_export (exported : Option Blanks) (key : Key) (text : List Char) :
    Text.stripPrefix "export ".toList (exportText exported ++ (key.text ++ '=' :: text)) =
      exported.map fun blanks => blanks.val ++ (key.text ++ '=' :: text) := by
  cases exported with
  | none =>
    refine Text.stripPrefix_eq_none ?_
    rw [exportText, Option.elim_none, List.nil_append]
    -- there is a blank in it, which no key has, and no equals sign, which ends the key
    rintro ⟨after, heq⟩
    rcases List.append_eq_append_iff.mp heq with ⟨more, hkey, -⟩ | ⟨more, hexport, hmore⟩
    · exact (key.plain ' ' (by rw [hkey]; simp)).1 (by decide)
    · cases more with
      | nil =>
        rw [List.append_nil] at hexport
        exact (key.plain ' ' (by rw [← hexport]; simp)).1 (by decide)
      | cons d more =>
        obtain ⟨rfl, -⟩ := List.cons.inj hmore
        have hmem : '=' ∈ "export ".toList := by rw [hexport]; simp
        exact absurd hmem (by decide)
  | some blanks =>
    rw [exportText, Option.elim_some, List.append_assoc]
    exact Text.stripPrefix_append _ _

theorem trimStart_key (blanks : Blanks) (key : Key) (text : List Char) :
    Text.trimStart (blanks.val ++ (key.text ++ text)) = key.text ++ text := by
  obtain ⟨c, more, hhead, hplain, -⟩ := exists_head none key text
  rw [exportText, Option.elim_none, List.nil_append] at hhead
  rw [Text.trimStart_append fun c hc => (blanks.property c hc).1, hhead, Text.trimStart_cons hplain]

/-- **A line is read as its key and its value.** -/
theorem parseLine_render (line : Line) : parseLine line.render = .ok line.entry := by
  cases line with
  | blank blanks =>
    have htrim : Text.trim blanks.val = [] :=
      Text.trim_blanks fun c hc => (blanks.property c hc).1
    rw [Line.render, parseLine, htrim]
    rfl
  | comment indent text =>
    have hindent : ∀ c ∈ indent.val, Text.isWhitespace c := fun c hc => (indent.property c hc).1
    have hsharp : ¬Text.isWhitespace '#' := by decide
    have hend := Text.trimEnd_append_cons hsharp [] text.val
    rw [List.nil_append, List.nil_append] at hend
    rw [Line.render, parseLine, Text.trim, Text.trimStart_append hindent,
      Text.trimStart_cons hsharp, hend]
    rfl
  | assign indent exported key value blanks remark =>
    have hindent : ∀ c ∈ indent.val, Text.isWhitespace c := fun c hc => (indent.property c hc).1
    have hquote : ¬Text.isWhitespace '"' := by decide
    let body := key.text ++ '=' :: '"' :: (escape value ++
      '"' :: Text.trimEnd (blanks.val ++ commentText remark))
    have htrim : Text.trim (Line.assign indent exported key value blanks remark).render =
        exportText exported ++ body := by
      obtain ⟨c, more, hhead, hplain, -⟩ := exists_head exported key ('=' :: '"' :: (escape value ++
        '"' :: (blanks.val ++ commentText remark)))
      rw [Line.render, Text.trim, Text.trimStart_append hindent, hhead, Text.trimStart_cons hplain,
        ← hhead]
      have hend := Text.trimEnd_append_cons hquote
        (exportText exported ++ (key.text ++ '=' :: '"' :: escape value))
        (blanks.val ++ commentText remark)
      simpa [body] using hend
    have hstart : ¬(exportText exported ++ body = [] ∨
        (exportText exported ++ body).head? = some '#') := by
      obtain ⟨c, more, hhead, -, hsharp, -⟩ := exists_head exported key ('=' :: '"' ::
        (escape value ++ '"' :: Text.trimEnd (blanks.val ++ commentText remark)))
      rw [hhead]
      simpa using hsharp
    have hkey : ¬(key.text = [] ∨ key.text.any Text.isWhitespace ∨ '\x00' ∈ key.text) := by
      rintro (hnil | hblank | hnul)
      · exact key.ne_nil hnil
      · obtain ⟨c, hc, hblank⟩ := List.any_eq_true.mp hblank
        exact (key.plain c hc).1 hblank
      · exact (key.plain _ hnul).2.2 rfl
    have hequal : '=' ∉ key.text := fun hmem => (key.plain _ hmem).2.1 rfl
    have hvalue := parseValue_escape value blanks remark
    cases exported with
    | none =>
      simp only [parseLine, htrim, if_neg hstart, body, stripPrefix_export, Option.map_none]
      simp only [exportText, Option.elim_none, List.nil_append, Text.splitOnce_singleton hequal,
        key.trim_text, if_neg hkey, Text.trimStart_cons hquote, hvalue]
      rfl
    | some blanks' =>
      simp only [parseLine, htrim, if_neg hstart, body, stripPrefix_export, Option.map_some,
        trimStart_key, Text.splitOnce_singleton hequal, key.trim_text, if_neg hkey,
        Text.trimStart_cons hquote, hvalue]
      rfl

/-! ### A file -/

theorem newline_notMem_render (line : Line) : '\n' ∉ line.render := by
  have hblanks (blanks : Blanks) : '\n' ∉ blanks.val := fun hmem => (blanks.property _ hmem).2 rfl
  cases line with
  | blank blanks => exact hblanks blanks
  | comment indent text => simpa [Line.render] using ⟨hblanks indent, text.property⟩
  | assign indent exported key value blanks remark =>
    have hexport : '\n' ∉ exportText exported := by
      cases exported with
      | none => simp [exportText]
      | some blanks => simpa [exportText] using hblanks blanks
    have hkey : '\n' ∉ key.text := fun hmem => (key.plain _ hmem).1 (by decide)
    have hremark : '\n' ∉ commentText remark := by
      cases remark with
      | none => simp [commentText]
      | some text => simpa [commentText] using text.property
    simpa [Line.render] using ⟨hblanks indent, hexport, hkey, newline_notMem_escape value,
      hblanks blanks, hremark⟩

theorem head_blanks (blanks : Blanks) {c : Char} (hc : c ≠ '\uFEFF') (more : List Char) :
    ∀ d ∈ (blanks.val ++ c :: more).head?, d ≠ '\uFEFF' := by
  obtain ⟨blanks, hblanks⟩ := blanks
  cases blanks with
  | nil => simpa using hc
  | cons d blanks =>
    have hd : d ≠ '\uFEFF' := by
      rintro rfl
      exact absurd (hblanks _ List.mem_cons_self).1 (by decide)
    simpa using hd

/-- No line begins with a byte order mark. -/
theorem head_render (line : Line) (text : List Char) :
    ∀ c ∈ (line.render ++ '\n' :: text).head?, c ≠ '\uFEFF' := by
  cases line with
  | blank blanks => exact head_blanks blanks (by decide) text
  | comment indent remark =>
    rw [Line.render, List.append_assoc]
    exact head_blanks indent (by decide) _
  | assign indent exported key value blanks remark =>
    obtain ⟨c, more, hhead, -, -, hmark⟩ := exists_head exported key ('=' :: '"' ::
      (escape value ++ '"' :: (blanks.val ++ commentText remark)))
    rw [Line.render, hhead, List.append_assoc]
    exact head_blanks indent hmark _

theorem parseLine_stripEnding (text : List Char) :
    parseLine (Text.stripEnding (text ++ ['\n'])) = parseLine text := by
  have htrim : Text.trim (Text.stripEnding (text ++ ['\n'])) = Text.trim text := by
    rw [Text.stripEnding, List.dropLast_concat]
    split_ifs with hreturn
    · obtain ⟨front, rfl⟩ := List.getLast?_eq_some_iff.mp hreturn
      have hblank : ∀ c ∈ ['\r'], Text.isWhitespace c := by
        intro c hc
        rw [List.mem_singleton.mp hc]
        decide
      rw [List.dropLast_concat, Text.trim_append hblank]
    · rfl
  simp only [parseLine, htrim]

/-- Lines are read one after another, and the last value of a key is kept. -/
theorem parseLines_eq {out : ExtTreeMap String String} {texts : List (List Char)}
    {entries : List (Option (String × String))} (h : texts.map parseLine = entries.map .ok) (n : ℕ) :
    parseLines out n texts =
      .ok ((entries.filterMap id).foldl (fun out entry => out.insert entry.1 entry.2) out) := by
  induction texts generalizing out entries n with
  | nil =>
    obtain rfl : entries = [] := by simpa using h.symm
    rfl
  | cons text texts ih =>
    cases entries with
    | nil => simp at h
    | cons entry entries =>
      rw [List.map_cons, List.map_cons, List.cons.injEq] at h
      rw [parseLines, h.1]
      cases entry with
      | none => simpa using ih h.2 (n + 1)
      | some entry => simpa using ih h.2 (n + 1)

theorem getElem?_foldl_insert (entries : List (String × String)) (key : String) :
    (entries.foldl (fun out entry => out.insert entry.1 entry.2) (∅ : ExtTreeMap String String))[key]? =
      (entries.filter (·.1 = key)).getLast?.map Prod.snd := by
  induction entries using List.reverseRecOn with
  | nil => simp
  | append_singleton entries entry ih =>
    rw [List.foldl_concat, List.filter_append, Std.ExtTreeMap.getElem?_insert, ih]
    by_cases hkey : entry.1 = key <;> simp [hkey]

/-- The lines that are read are those that were written. -/
theorem map_parseLine_lines (lines : List Line) (ended : Bool) :
    ∃ entries : List (Option (String × String)),
      (Text.lines (fileText lines ended).toList).map parseLine = entries.map .ok ∧
        entries.filterMap id = lines.filterMap Line.entry := by
  have hflat (lines : List Line) : lines.flatMap (·.render ++ ['\n']) =
      (lines.map Line.render).flatMap (· ++ ['\n']) := by rw [List.flatMap_map]
  have hnewline (lines : List Line) : ∀ text ∈ lines.map Line.render, '\n' ∉ text := by
    intro text htext
    obtain ⟨line, -, rfl⟩ := List.mem_map.mp htext
    exact newline_notMem_render line
  have hread (lines : List Line) : (((lines.map Line.render).map (· ++ ['\n'])).map
      Text.stripEnding).map parseLine = (lines.map Line.entry).map .ok := by
    simp only [List.map_map]
    exact List.map_congr_left fun line _ =>
      (parseLine_stripEnding line.render).trans (parseLine_render line)
  rw [fileText, String.toList_ofList]
  cases ended with
  | true =>
    refine ⟨lines.map Line.entry, ?_, by rw [List.filterMap_map]; rfl⟩
    rw [if_pos rfl, hflat, Text.lines, Lines.complete_flatMap (hnewline lines),
      Lines.rest_flatMap (hnewline lines), if_pos rfl, List.append_nil, hread]
  | false =>
    induction lines using List.reverseRecOn with
    | nil => exact ⟨[], rfl, rfl⟩
    | append_singleton lines line _ =>
      have htext : ((lines ++ [line]).flatMap (·.render ++ ['\n'])).dropLast =
          lines.flatMap (·.render ++ ['\n']) ++ line.render := by
        rw [List.flatMap_append, List.flatMap_singleton, ← List.append_assoc, List.dropLast_concat]
      have hrest := Lines.rest_flatMap (hnewline lines)
      have hlast : Lines.complete '\n' line.render = [] ∧
          Lines.rest '\n' line.render = line.render := by
        rw [Lines.complete, Lines.rest, Lines.scan_of_notMem (newline_notMem_render line)]
        exact ⟨rfl, rfl⟩
      rw [if_neg (by simp), htext, hflat, Text.lines, Lines.complete_append hrest,
        Lines.rest_append hrest, Lines.complete_flatMap (hnewline lines), hlast.1, hlast.2,
        List.append_nil, List.map_append, hread]
      split_ifs with hempty
      · have hentry : line.entry = none := by
          have hline := parseLine_render line
          rw [hempty] at hline
          exact (Except.ok.inj hline).symm
        refine ⟨lines.map Line.entry, by simp, ?_⟩
        rw [List.filterMap_map, List.filterMap_append]
        simp [hentry]
      · refine ⟨lines.map Line.entry ++ [line.entry], by simp [parseLine_render], ?_⟩
        rw [List.filterMap_append, List.filterMap_map, List.filterMap_append]
        cases hentry : line.entry <;> simp [hentry]

/-- **A file** that was written out gives each key the value of its last line. -/
theorem parse_fileText (lines : List Line) (ended : Bool) :
    ∃ vars, parse (fileText lines ended) = .ok vars ∧ ∀ key, vars[key]? = lastValue lines key := by
  have hmark : Text.stripPrefix ['\uFEFF'] (fileText lines ended).toList = none := by
    refine Text.stripPrefix_eq_none fun hprefix => ?_
    have hwhole : ['\uFEFF'] <+: lines.flatMap (·.render ++ ['\n']) := by
      rw [fileText, String.toList_ofList] at hprefix
      split_ifs at hprefix
      · exact hprefix
      · exact hprefix.trans (List.dropLast_prefix _)
    cases lines with
    | nil => exact absurd (List.prefix_nil.mp hwhole) (by decide)
    | cons line lines =>
      rw [List.flatMap_cons, List.append_assoc] at hwhole
      obtain ⟨after, heq⟩ := hwhole
      exact head_render line (lines.flatMap (·.render ++ ['\n'])) '\uFEFF' (by
        rw [List.singleton_append] at heq
        rw [← List.singleton_append, ← heq]
        rfl) rfl
  obtain ⟨entries, hparse, hentries⟩ := map_parseLine_lines lines ended
  have hvars : parse (fileText lines ended) = .ok ((entries.filterMap id).foldl
      (fun out entry => out.insert entry.1 entry.2) ∅) := by
    rw [parse, hmark]
    exact parseLines_eq hparse 1
  exact ⟨_, hvars, fun key => by rw [getElem?_foldl_insert, hentries, lastValue]⟩

end Servicrab.EnvFile
