import Servicrab.Library.Json
import Mathlib.Tactic.SplitIfs

/-!
# JSON as text

A library that writes a value as a text on one line and reads it back, of which only this much is
asked: no control character is written, and what was written is read back, as long as its numbers
are of 64 bits and it is not nested too deeply. The compact text is one such format.

## Main definitions

* `Json.Plain`, `Json.Format`.
* `Json.print`, `Json.parse`, `Json.compact`.

## Main results

* `Json.parseValue_print`: a value is read back, whatever follows it.
-/

namespace Json

/-- A value that every reader takes: its numbers have 64 bits, signed or not, and it is nested no
deeper than the bound. -/
inductive Plain : ℕ → Json → Prop
  | null {depth : ℕ} : Plain depth null
  | bool {depth : ℕ} (b : Bool) : Plain depth (bool b)
  | number {depth : ℕ} {n : ℤ} (hlow : -2 ^ 63 ≤ n) (hhigh : n < 2 ^ 64) : Plain depth (number n)
  | string {depth : ℕ} (s : String) : Plain depth (string s)
  | array {depth : ℕ} {items : List Json} (h : ∀ item ∈ items, Plain depth item) :
      Plain (depth + 1) (array items)
  | object {depth : ℕ} {entries : List (String × Json)}
      (h : ∀ entry ∈ entries, Plain depth entry.2) : Plain (depth + 1) (object entries)

/-- How many values may be nested in one another. -/
def maxDepth : ℕ := 127

/-- A character that may not stand in a text as it is. -/
def isControl (c : Char) : Bool := c.toNat < 0x20

/-- A way to write values and to read them. -/
structure Format where
  toString : Json → List Char
  fromStr : List Char → Except String Json
  fromStr_toString : ∀ value, Plain maxDepth value → fromStr (toString value) = .ok value
  not_isControl : ∀ value, ∀ c ∈ toString value, ¬ isControl c

/-! ### The compact text -/

/-- A character inside a string. -/
def escape (c : Char) : List Char :=
  if c = '"' then ['\\', '"']
  else if c = '\\' then ['\\', '\\']
  else if c = '\n' then ['\\', 'n']
  else if c = '\r' then ['\\', 'r']
  else if c = '\t' then ['\\', 't']
  else if c.toNat = 8 then ['\\', 'b']
  else if c.toNat = 12 then ['\\', 'f']
  else if isControl c then
    ['\\', 'u', '0', '0', Nat.digitChar (c.toNat / 16), Nat.digitChar (c.toNat % 16)]
  else [c]

def quote (s : String) : List Char := '"' :: (s.toList.flatMap escape ++ ['"'])

def printNumber : ℤ → List Char
  | .ofNat n => Nat.toDigits 10 n
  | .negSucc n => '-' :: Nat.toDigits 10 (n + 1)

mutual

/-- The text of a value. -/
def print : Json → List Char
  | null => ['n', 'u', 'l', 'l']
  | bool true => ['t', 'r', 'u', 'e']
  | bool false => ['f', 'a', 'l', 's', 'e']
  | number n => printNumber n
  | string s => quote s
  | array [] => ['[', ']']
  | array (item :: items) => '[' :: (print item ++ printItems items)
  | object [] => ['\x7b', '\x7d']
  | object ((key, value) :: entries) =>
    '\x7b' :: (quote key ++ ':' :: (print value ++ printEntries entries))

/-- The text of the other items of an array. -/
def printItems : List Json → List Char
  | [] => [']']
  | item :: items => ',' :: (print item ++ printItems items)

/-- The text of the other entries of an object. -/
def printEntries : List (String × Json) → List Char
  | [] => ['\x7d']
  | (key, value) :: entries =>
    ',' :: (quote key ++ ':' :: (print value ++ printEntries entries))

end

def hexValue (c : Char) : Option ℕ := (List.range 16).find? (Nat.digitChar · = c)

/-- The character that a short escape stands for. -/
def unescape : Char → Option Char
  | '"' => some '"'
  | '\\' => some '\\'
  | '/' => some '/'
  | 'n' => some '\n'
  | 'r' => some '\r'
  | 't' => some '\t'
  | 'b' => some (Char.ofNat 8)
  | 'f' => some (Char.ofNat 12)
  | _ => none

/-- Read a string behind its opening quote. -/
def parseString : List Char → Option (List Char × List Char)
  | [] => none
  | '"' :: text => some ([], text)
  | '\\' :: 'u' :: '0' :: '0' :: high :: low :: text => do
    let high ← hexValue high
    let low ← hexValue low
    let (s, text) ← parseString text
    return (Char.ofNat (high * 16 + low) :: s, text)
  | '\\' :: c :: text => do
    let c ← unescape c
    let (s, text) ← parseString text
    return (c :: s, text)
  | c :: text => do
    let (s, text) ← parseString text
    return (c :: s, text)

/-- Read a number without a sign. -/
def parseDigits (text : List Char) : Option (ℕ × List Char) :=
  match text.takeWhile Char.isDigit with
  | [] => none
  | digits => some (Nat.ofDigitChars 10 digits 0, text.dropWhile Char.isDigit)

def parseNumber : List Char → Option (ℤ × List Char)
  | '-' :: text => (parseDigits text).map fun (n, text) => (-n, text)
  | text => (parseDigits text).map fun (n, text) => (n, text)

mutual

/-- Read a value, in no more rounds than are granted. -/
def parseValue : ℕ → List Char → Option (Json × List Char)
  | 0, _ => none
  | _ + 1, 'n' :: 'u' :: 'l' :: 'l' :: text => some (null, text)
  | _ + 1, 't' :: 'r' :: 'u' :: 'e' :: text => some (bool true, text)
  | _ + 1, 'f' :: 'a' :: 'l' :: 's' :: 'e' :: text => some (bool false, text)
  | _ + 1, '"' :: text => (parseString text).map fun (s, text) => (string (.ofList s), text)
  | _ + 1, '[' :: ']' :: text => some (array [], text)
  | rounds + 1, '[' :: text => do
    let (item, text) ← parseValue rounds text
    let (items, text) ← parseItems rounds text
    return (array (item :: items), text)
  | _ + 1, '\x7b' :: '\x7d' :: text => some (object [], text)
  | rounds + 1, '\x7b' :: text => do
    let (entry, text) ← parseEntry rounds text
    let (entries, text) ← parseEntries rounds text
    return (object (entry :: entries), text)
  | _ + 1, text => (parseNumber text).map fun (n, text) => (number n, text)

/-- Read a key and its value. -/
def parseEntry : ℕ → List Char → Option ((String × Json) × List Char)
  | rounds + 1, '"' :: text => do
    match ← parseString text with
    | (key, ':' :: text) =>
      let (value, text) ← parseValue rounds text
      return ((.ofList key, value), text)
    | _ => none
  | _, _ => none

/-- Read the other items of an array. -/
def parseItems : ℕ → List Char → Option (List Json × List Char)
  | _ + 1, ']' :: text => some ([], text)
  | rounds + 1, ',' :: text => do
    let (item, text) ← parseValue rounds text
    let (items, text) ← parseItems rounds text
    return (item :: items, text)
  | _, _ => none

/-- Read the other entries of an object. -/
def parseEntries : ℕ → List Char → Option (List (String × Json) × List Char)
  | _ + 1, '\x7d' :: text => some ([], text)
  | rounds + 1, ',' :: text => do
    let (entry, text) ← parseEntry rounds text
    let (entries, text) ← parseEntries rounds text
    return (entry :: entries, text)
  | _, _ => none

end

/-- Read a text that is one value. -/
def parse (text : List Char) : Except String Json :=
  match parseValue (text.length + 1) text with
  | some (value, []) => .ok value
  | _ => .error "expected a value"

/-! ### Strings and numbers are read back -/

theorem hexValue_digitChar {n : ℕ} (h : n < 16) : hexValue (Nat.digitChar n) = some n := by
  revert n
  decide

theorem parseString_unescape {c e : Char} (h : unescape e = some c) (text : List Char) :
    parseString ('\\' :: e :: text) =
      (parseString text).map fun read => (c :: read.1, read.2) := by
  have hu : e ≠ 'u' := by
    rintro rfl
    cases h
  rw [parseString]
  · rw [h]
    cases parseString text <;> rfl
  · intro high low rest he
    exact absurd he hu

theorem parseString_cons {c : Char} (hquote : c ≠ '"') (hslash : c ≠ '\\') (text : List Char) :
    parseString (c :: text) = (parseString text).map fun read => (c :: read.1, read.2) := by
  rw [parseString]
  · cases parseString text <;> rfl
  · exact hquote
  · intro high low rest hc
    exact absurd hc hslash
  · intro d rest hc
    exact absurd hc hslash

theorem parseString_escape (c : Char) (text : List Char) :
    parseString (escape c ++ text) = (parseString text).map fun read => (c :: read.1, read.2) := by
  rw [escape]
  split_ifs with hquote hslash hn hr ht hb hf hcontrol
  · subst hquote
    exact parseString_unescape rfl text
  · subst hslash
    exact parseString_unescape rfl text
  · exact hn ▸ parseString_unescape rfl text
  · exact hr ▸ parseString_unescape rfl text
  · exact ht ▸ parseString_unescape rfl text
  · obtain rfl : c = Char.ofNat 8 := by rw [← hb, Char.ofNat_toNat]
    exact parseString_unescape rfl text
  · obtain rfl : c = Char.ofNat 12 := by rw [← hf, Char.ofNat_toNat]
    exact parseString_unescape rfl text
  · have hlt : c.toNat < 32 := by simpa [isControl] using hcontrol
    have hc : Char.ofNat (c.toNat / 16 * 16 + c.toNat % 16) = c := by
      rw [Nat.div_add_mod', Char.ofNat_toNat]
    have hhigh := hexValue_digitChar (n := c.toNat / 16) (by omega)
    have hlow := hexValue_digitChar (n := c.toNat % 16) (by omega)
    simp only [List.cons_append, List.nil_append, parseString, hhigh, hlow, hc, Option.bind_eq_bind,
      Option.bind_some]
    cases parseString text <;> rfl
  · exact parseString_cons hquote hslash text

theorem parseString_flatMap (s text : List Char) :
    parseString (s.flatMap escape ++ '"' :: text) = some (s, text) := by
  induction s with
  | nil => rfl
  | cons c s ih =>
    rw [List.flatMap_cons, List.append_assoc, parseString_escape, ih]
    rfl

/-- The text does not go on with a digit. -/
def NoDigit (text : List Char) : Prop := ∀ c ∈ text.head?, ¬ c.isDigit

theorem parseDigits_toDigits (n : ℕ) {text : List Char} (h : NoDigit text) :
    parseDigits (Nat.toDigits 10 n ++ text) = some (n, text) := by
  have hdigits : ∀ c ∈ Nat.toDigits 10 n, c.isDigit := fun c hc =>
    Nat.isDigit_of_mem_toDigits (by decide) (by decide) hc
  have htake : (Nat.toDigits 10 n ++ text).takeWhile Char.isDigit = Nat.toDigits 10 n := by
    rw [List.takeWhile_append_of_pos hdigits]
    cases text with
    | nil => simp
    | cons c text => simp [h c rfl]
  have hdrop : (Nat.toDigits 10 n ++ text).dropWhile Char.isDigit = text := by
    rw [List.dropWhile_append_of_pos hdigits]
    cases text with
    | nil => rfl
    | cons c text => simp [h c rfl]
  rw [parseDigits, htake, hdrop]
  split
  · rename_i hnil
    exact absurd hnil Nat.toDigits_ne_nil
  · rw [Nat.ofDigitChars_ten_toDigits]

theorem parseNumber_printNumber (n : ℤ) {text : List Char} (h : NoDigit text) :
    parseNumber (printNumber n ++ text) = some (n, text) := by
  cases n with
  | ofNat n =>
    have hsign : ∀ rest, Nat.toDigits 10 n ++ text ≠ '-' :: rest := by
      intro rest heq
      obtain ⟨d, ds, hds⟩ := List.exists_cons_of_ne_nil (Nat.toDigits_ne_nil (n := n) (b := 10))
      rw [hds] at heq
      obtain rfl := (List.cons.inj heq).1
      have hdigit : Char.isDigit '-' := Nat.isDigit_of_mem_toDigits (b := 10) (n := n) (by decide)
        (by decide) (by rw [hds]; exact List.mem_cons_self)
      exact absurd hdigit (by decide)
    rw [printNumber, parseNumber, parseDigits_toDigits n h]
    · rfl
    · exact hsign
  | negSucc n =>
    rw [printNumber, List.cons_append, parseNumber, parseDigits_toDigits (n + 1) h]
    rfl

/-! ### Values are read back -/

theorem noDigit_cons {c : Char} (h : ¬ c.isDigit) (text : List Char) : NoDigit (c :: text) := by
  intro d hd
  obtain rfl := Option.some.inj hd
  exact h

theorem noDigit_printItems (items : List Json) (text : List Char) :
    NoDigit (printItems items ++ text) := by
  cases items <;> exact noDigit_cons (by decide) _

theorem noDigit_printEntries (entries : List (String × Json)) (text : List Char) :
    NoDigit (printEntries entries ++ text) := by
  cases entries <;> exact noDigit_cons (by decide) _

/-- A number begins with its sign or with a digit. -/
theorem exists_printNumber (n : ℤ) (text : List Char) :
    ∃ c rest, printNumber n ++ text = c :: rest ∧ (c = '-' ∨ c.isDigit) := by
  cases n with
  | ofNat n =>
    obtain ⟨d, ds, hds⟩ := List.exists_cons_of_ne_nil (Nat.toDigits_ne_nil (n := n) (b := 10))
    have hdigit : d.isDigit := Nat.isDigit_of_mem_toDigits (b := 10) (n := n) (by decide)
      (by decide) (by rw [hds]; exact List.mem_cons_self)
    exact ⟨d, ds ++ text, by rw [printNumber, hds]; rfl, .inr hdigit⟩
  | negSucc n => exact ⟨'-', _, rfl, .inl rfl⟩

/-- A number begins as nothing else does. -/
theorem parseValue_printNumber (rounds : ℕ) (n : ℤ) {text : List Char} (h : NoDigit text) :
    parseValue (rounds + 1) (printNumber n ++ text) = some (number n, text) := by
  obtain ⟨c, rest, hcons, hc⟩ := exists_printNumber n text
  have hne (d : Char) (hd : d ≠ '-' ∧ ¬ d.isDigit) : c ≠ d := by
    rintro rfl
    exact hc.elim hd.1 hd.2
  have hread := parseNumber_printNumber n h
  rw [hcons] at hread ⊢
  rw [parseValue, hread]
  · rfl
  all_goals
    intro _ hhead
    exact absurd (List.cons.inj hhead).1 (hne _ (by decide))

/-- No value begins as an array ends. -/
theorem print_append_ne (value : Json) (text rest : List Char) :
    print value ++ text ≠ ']' :: rest := by
  intro heq
  cases value with
  | null | string => cases (List.cons.inj heq).1
  | bool b => cases b <;> cases (List.cons.inj heq).1
  | number n =>
    obtain ⟨c, rest', hcons, hc⟩ := exists_printNumber n text
    rw [print, hcons] at heq
    obtain rfl := (List.cons.inj heq).1
    exact hc.elim (by decide) (by decide)
  | array items => cases items <;> cases (List.cons.inj heq).1
  | object entries => rcases entries with _ | ⟨⟨key, value⟩, entries⟩ <;> cases (List.cons.inj heq).1

mutual

/-- A value is read back, whatever follows it. -/
theorem parseValue_print : ∀ (value : Json) {rounds : ℕ} {text : List Char},
    (print value).length < rounds → NoDigit text →
      parseValue rounds (print value ++ text) = some (value, text)
  | null, _ + 1, _, _, _ => rfl
  | bool true, _ + 1, _, _, _ => rfl
  | bool false, _ + 1, _, _, _ => rfl
  | number n, rounds + 1, _, _, h => parseValue_printNumber rounds n h
  | string s, rounds + 1, text, _, _ => by
    have hread := parseString_flatMap s.toList text
    rw [print, quote, List.cons_append, List.append_assoc]
    simp only [parseValue, List.singleton_append, hread, Option.map_some, String.ofList_toList]
  | array [], _ + 1, _, _, _ => rfl
  | array (item :: items), rounds + 1, text, hlt, h => by
    rw [print] at hlt ⊢
    simp only [List.length_cons, List.length_append] at hlt
    have hitem : parseValue rounds (print item ++ (printItems items ++ text)) =
        some (item, printItems items ++ text) :=
      parseValue_print item (by omega) (noDigit_printItems items text)
    have hitems : parseItems rounds (printItems items ++ text) = some (items, text) :=
      parseItems_print items (by omega)
    rw [List.cons_append, List.append_assoc, parseValue]
    · simp only [hitem, hitems, Option.bind_eq_bind, Option.bind_some]
      rfl
    · exact fun rest => print_append_ne item _ rest
  | object [], _ + 1, _, _, _ => rfl
  | object ((key, value) :: entries), rounds + 1, text, hlt, h => by
    rw [print] at hlt ⊢
    simp only [List.length_cons, List.length_append] at hlt
    have hentry : parseEntry rounds
        (quote key ++ ':' :: (print value ++ (printEntries entries ++ text))) =
        some ((key, value), printEntries entries ++ text) :=
      parseEntry_print key value (by simp only [List.length_append, List.length_cons]; omega)
        (noDigit_printEntries entries text)
    have hentries : parseEntries rounds (printEntries entries ++ text) = some (entries, text) :=
      parseEntries_print entries (by omega)
    rw [List.cons_append, List.append_assoc, List.cons_append, List.append_assoc, parseValue]
    · simp only [hentry, hentries, Option.bind_eq_bind, Option.bind_some]
      rfl
    · exact fun rest hrest => absurd (List.cons.inj hrest).1 (by decide)

theorem parseEntry_print (key : String) (value : Json) : ∀ {rounds : ℕ} {text : List Char},
    (quote key ++ ':' :: print value).length < rounds → NoDigit text →
      parseEntry rounds (quote key ++ ':' :: (print value ++ text)) = some ((key, value), text)
  | rounds + 1, text, hlt, h => by
    simp only [List.length_append, List.length_cons] at hlt
    have hkey := parseString_flatMap key.toList (':' :: (print value ++ text))
    have hvalue : parseValue rounds (print value ++ text) = some (value, text) :=
      parseValue_print value (by omega) h
    rw [quote, List.cons_append, List.append_assoc, List.singleton_append]
    simp only [parseEntry, hkey, Option.bind_eq_bind, Option.bind_some, hvalue, String.ofList_toList]
    rfl

theorem parseItems_print : ∀ (items : List Json) {rounds : ℕ} {text : List Char},
    (printItems items).length < rounds →
      parseItems rounds (printItems items ++ text) = some (items, text)
  | [], _ + 1, _, _ => rfl
  | item :: items, rounds + 1, text, hlt => by
    rw [printItems] at hlt ⊢
    simp only [List.length_cons, List.length_append] at hlt
    have hitem : parseValue rounds (print item ++ (printItems items ++ text)) =
        some (item, printItems items ++ text) :=
      parseValue_print item (by omega) (noDigit_printItems items text)
    have hitems : parseItems rounds (printItems items ++ text) = some (items, text) :=
      parseItems_print items (by omega)
    rw [List.cons_append, List.append_assoc, parseItems]
    simp only [hitem, hitems, Option.bind_eq_bind, Option.bind_some]
    rfl

theorem parseEntries_print : ∀ (entries : List (String × Json)) {rounds : ℕ} {text : List Char},
    (printEntries entries).length < rounds →
      parseEntries rounds (printEntries entries ++ text) = some (entries, text)
  | [], _ + 1, _, _ => rfl
  | (key, value) :: entries, rounds + 1, text, hlt => by
    rw [printEntries] at hlt ⊢
    simp only [List.length_cons, List.length_append] at hlt
    have hentry : parseEntry rounds
        (quote key ++ ':' :: (print value ++ (printEntries entries ++ text))) =
        some ((key, value), printEntries entries ++ text) :=
      parseEntry_print key value (by simp only [List.length_append, List.length_cons]; omega)
        (noDigit_printEntries entries text)
    have hentries : parseEntries rounds (printEntries entries ++ text) = some (entries, text) :=
      parseEntries_print entries (by omega)
    rw [List.cons_append, List.append_assoc, List.cons_append, List.append_assoc, parseEntries]
    simp only [hentry, hentries, Option.bind_eq_bind, Option.bind_some]
    rfl

end

theorem parse_print (value : Json) : parse (print value) = .ok value := by
  have hread : parseValue ((print value).length + 1) (print value ++ []) = some (value, []) :=
    parseValue_print value (Nat.lt_succ_self _) nofun
  rw [List.append_nil] at hread
  rw [parse, hread]

/-! ### No control character is written -/

/-- No character of the text is a control character. -/
def Clean (text : List Char) : Prop := ∀ c ∈ text, ¬ isControl c

instance : DecidablePred Clean := List.decidableBAll fun c => ¬ isControl c

theorem clean_cons {c : Char} {text : List Char} : Clean (c :: text) ↔ ¬ isControl c ∧ Clean text :=
  List.forall_mem_cons

theorem clean_append {text text' : List Char} : Clean (text ++ text') ↔ Clean text ∧ Clean text' :=
  List.forall_mem_append

theorem clean_escape (c : Char) : Clean (escape c) := by
  have hdigit (n : ℕ) (h : n < 16) : ¬ isControl (Nat.digitChar n) := by
    revert n
    decide
  rw [escape]
  by_cases hcontrol : isControl c
  · have hlt : c.toNat < 32 := by simpa [isControl] using hcontrol
    have hhex : Clean ['\\', 'u', '0', '0', Nat.digitChar (c.toNat / 16),
        Nat.digitChar (c.toNat % 16)] := by
      simp only [clean_cons]
      exact ⟨by decide, by decide, by decide, by decide, hdigit _ (by omega), hdigit _ (by omega),
        fun _ hnil => nomatch hnil⟩
    split_ifs
    all_goals first | exact hhex | decide
  · have hself : Clean [c] := clean_cons.mpr ⟨hcontrol, fun _ hnil => nomatch hnil⟩
    split_ifs
    all_goals first | exact hself | decide

theorem clean_quote (s : String) : Clean (quote s) := by
  rw [quote, clean_cons, clean_append]
  refine ⟨by decide, fun c hc => ?_, by decide⟩
  obtain ⟨d, -, hd⟩ := List.mem_flatMap.mp hc
  exact clean_escape d c hd

theorem clean_printNumber (n : ℤ) : Clean (printNumber n) := by
  have hdigits (n : ℕ) : Clean (Nat.toDigits 10 n) := by
    intro c hc
    have hdigit := Nat.isDigit_of_mem_toDigits (by decide) (by decide) hc
    have hle : 48 ≤ c.toNat := (Char.isDigit_iff_toNat.mp hdigit).1
    rw [isControl, decide_eq_true_eq]
    omega
  cases n with
  | ofNat n => exact hdigits n
  | negSucc n => exact clean_cons.mpr ⟨by decide, hdigits (n + 1)⟩

mutual

theorem clean_print : ∀ value, Clean (print value)
  | null | bool true | bool false | array [] | object [] => by
    simp only [print]
    decide
  | number n => clean_printNumber n
  | string s => clean_quote s
  | array (item :: items) =>
    clean_cons.mpr ⟨by decide, clean_append.mpr ⟨clean_print item, clean_printItems items⟩⟩
  | object ((key, value) :: entries) =>
    clean_cons.mpr ⟨by decide, clean_append.mpr ⟨clean_quote key, clean_cons.mpr ⟨by decide,
      clean_append.mpr ⟨clean_print value, clean_printEntries entries⟩⟩⟩⟩

theorem clean_printItems : ∀ items, Clean (printItems items)
  | [] => by decide
  | item :: items =>
    clean_cons.mpr ⟨by decide, clean_append.mpr ⟨clean_print item, clean_printItems items⟩⟩

theorem clean_printEntries : ∀ entries, Clean (printEntries entries)
  | [] => by decide
  | (key, value) :: entries =>
    clean_cons.mpr ⟨by decide, clean_append.mpr ⟨clean_quote key, clean_cons.mpr ⟨by decide,
      clean_append.mpr ⟨clean_print value, clean_printEntries entries⟩⟩⟩⟩

end

/-- The compact text of a value. -/
def compact : Format where
  toString := print
  fromStr := parse
  fromStr_toString := fun value _ => parse_print value
  not_isControl := clean_print

end Json
