import Servicrab.Library.ByteOffset
import Mathlib.Data.String.Basic
import Mathlib.Tactic.SplitIfs
import Std.Data.ExtTreeMap

/-!
# Substitution in configuration values

`expand` (`subst.rs`) looks for references to variables in a value, and the default of a reference
is expanded in turn when it is needed. The source finds its way by offsets in bytes, and slicing a
text at an offset that is not the end of a character panics. Here a slice at such an offset gives no
result, and neither does an expansion that takes more rounds than it is granted.

## Main definitions

* `expandFrom`, `expand`, `splitBraced`, `resolve`.

## Main results

* `exists_expandFrom`: a value is always expanded, in no more rounds than it has characters.
-/

open Std (ExtTreeMap)

namespace Servicrab

open ByteOffset (splitAt size)

/-- The variables a configuration may refer to. -/
abbrev Vars := ExtTreeMap String String

/-- Why one value could not be expanded. -/
inductive SubstError
  /-- A reference to a variable that is not set. -/
  | undefined (name : String)
  /-- A reference that is not one of the accepted forms. -/
  | malformed (reason : String)
  deriving DecidableEq, Repr

def openBrace : Char := '\x7b'

def closeBrace : Char := '\x7d'

/-- `"${"`. -/
def opener : List Char := ['$', openBrace]

/-- The first characters of a name, and the others. -/
def isVariableChar (first : Bool) (c : Char) : Bool :=
  if first then c.isAlpha || c == '_' else c.isAlphanum || c == '_'

/-- How many bytes at the start of a text form a variable name, from an offset on. -/
def nameLength (index : ℕ) : List Char → ℕ
  | [] => index
  | c :: text =>
    if isVariableChar (index == 0) c then nameLength (index + c.utf8Size) text else index

/-- `str::find("${")`: the offset of the first opener. -/
def findOpener : List Char → Option ℕ
  | [] => none
  | c :: text =>
    if c = '$' ∧ text.head? = some openBrace then some 0
    else (findOpener text).map (c.utf8Size + ·)

/-- `str::strip_suffix('$')`. -/
def stripDollar (text : List Char) : Option (List Char) :=
  if text.getLast? = some '$' then some text.dropLast else none

/-- The offset of the brace that closes as many as are open. -/
def closingBrace : ℕ → ℕ → List Char → Option ℕ
  | _, _, [] => none
  | depth, index, [c] =>
    if c = closeBrace ∧ depth = 1 then some index else none
  | depth, index, c :: d :: text =>
    if c = openBrace then closingBrace (depth + 1) (index + c.utf8Size) (d :: text)
    else if c = closeBrace then
      if depth = 1 then some index
      else closingBrace (depth - 1) (index + c.utf8Size) (d :: text)
    else if c = '$' ∧ d = '$' then closingBrace depth (index + c.utf8Size + d.utf8Size) text
    else closingBrace depth (index + c.utf8Size) (d :: text)

/-- Split a reference at its closing brace: the body and what follows. -/
def splitBraced (input : List Char) : Option (Except SubstError (List Char × List Char)) :=
  match closingBrace 1 0 input with
  | some index => do
    let (body, _) ← splitAt index input
    let (_, tail) ← splitAt (index + 1) input
    return .ok (body, tail)
  | none =>
    some (.error (.malformed ("$\x7b" ++ String.ofList input ++ " is missing its closing brace")))

/-- Look up a variable that has to be there. -/
def lookup (vars : Vars) (name : List Char) : Except SubstError (List Char) :=
  match vars[String.ofList name]? with
  | some value => .ok value.toList
  | none => .error (.undefined (String.ofList name))

/-- The reference a body may be meant to be. -/
def supportedForms (body name : List Char) : String :=
  let braced (text : List Char) := "$\x7b" ++ String.ofList text ++ "\x7d"
  braced body ++ " is not a supported form; expected " ++ braced name ++ ", " ++
    braced (name ++ ":-default".toList) ++ " or " ++ braced (name ++ "-default".toList)

/-- The value of a variable, or the default, which is expanded when it is needed. -/
def valueOr (vars : Vars) (expand : List Char → Option (Except SubstError (List Char)))
    (name default : List Char) (emptyCounts : Bool) : Option (Except SubstError (List Char)) :=
  match vars[String.ofList name]? with
  | some value => if !value.isEmpty || !emptyCounts then some (.ok value.toList) else expand default
  | none => expand default

/-- Resolve the body of a reference. -/
def resolve (vars : Vars) (expand : List Char → Option (Except SubstError (List Char)))
    (body : List Char) : Option (Except SubstError (List Char)) := do
  let (name, modifier) ← splitAt (nameLength 0 body) body
  if name = [] then
    some (.error (.malformed ("$\x7b" ++ String.ofList body ++ "\x7d has no name")))
  else
    match modifier with
    | [] => some (lookup vars name)
    | ':' :: '-' :: default => valueOr vars expand name default true
    | '-' :: default => valueOr vars expand name default false
    | _ => some (.error (.malformed (supportedForms body name)))

/-- The loop of `expand`, with what it has put out so far and the rest of the value. -/
def expandFrom (vars : Vars) : ℕ → List Char → List Char → Option (Except SubstError (List Char))
  | 0, _, _ => none
  | rounds + 1, out, rest =>
    match findOpener rest with
    | none => some (.ok (out ++ rest))
    | some index => do
      let (before, opened) ← splitAt index rest
      let (_, inner) ← splitAt (size opener) opened
      match stripDollar before with
      -- A dollar right before the brace escapes it.
      | some before => expandFrom vars rounds (out ++ before ++ opener) inner
      | none =>
        match ← splitBraced inner with
        | .error e => some (.error e)
        | .ok (body, tail) =>
          match ← resolve vars (expandFrom vars rounds []) body with
          | .error e => some (.error e)
          | .ok text => expandFrom vars rounds (out ++ before ++ text) tail

/-- Expand every reference in one value. -/
def expand (vars : Vars) (input : List Char) : Option (Except SubstError (List Char)) :=
  expandFrom vars (input.length + 1) [] input

/-! ### Every slice is at the end of a character -/

variable {vars : Vars} {text body tail : List Char} {index depth : ℕ}

theorem size_closeBrace : closeBrace.utf8Size = 1 := by decide

theorem exists_of_findOpener (h : findOpener text = some index) :
    ∃ before inner, text = before ++ opener ++ inner ∧ index = size before := by
  induction text generalizing index with
  | nil => cases h
  | cons c text ih =>
    rw [findOpener] at h
    split_ifs at h with hopener
    · obtain rfl := Option.some.inj h
      obtain ⟨rfl, hhead⟩ := hopener
      obtain ⟨inner, rfl⟩ := List.head?_eq_some_iff.mp hhead
      exact ⟨[], inner, rfl, rfl⟩
    · obtain ⟨index', hfind, rfl⟩ := Option.map_eq_some_iff.mp h
      obtain ⟨before, inner, rfl, rfl⟩ := ih hfind
      exact ⟨c :: before, inner, rfl, rfl⟩

theorem exists_of_closingBrace {start : ℕ} (h : closingBrace depth start text = some index) :
    ∃ body tail, text = body ++ closeBrace :: tail ∧ index = start + size body := by
  induction depth, start, text using closingBrace.induct with
  | case1 => cases h
  | case2 depth start c hclose =>
    rw [closingBrace, if_pos hclose] at h
    obtain rfl := Option.some.inj h
    exact ⟨[], [], by rw [hclose.1]; rfl, rfl⟩
  | case3 depth start c hclose =>
    rw [closingBrace, if_neg hclose] at h
    cases h
  | case4 depth start d text ih =>
    rw [closingBrace, if_pos rfl] at h
    obtain ⟨body, tail, htext, rfl⟩ := ih h
    exact ⟨openBrace :: body, tail, by rw [htext]; rfl, by rw [ByteOffset.size_cons]; omega⟩
  | case5 start d text hopen =>
    rw [closingBrace, if_neg hopen, if_pos rfl, if_pos rfl] at h
    obtain rfl := Option.some.inj h
    exact ⟨[], d :: text, rfl, rfl⟩
  | case6 depth start d text hopen hdepth ih =>
    rw [closingBrace, if_neg hopen, if_pos rfl, if_neg hdepth] at h
    obtain ⟨body, tail, htext, rfl⟩ := ih h
    exact ⟨closeBrace :: body, tail, by rw [htext]; rfl, by rw [ByteOffset.size_cons]; omega⟩
  | case7 depth start c d text hopen hclose hdollar ih =>
    rw [closingBrace, if_neg hopen, if_neg hclose, if_pos hdollar] at h
    obtain ⟨body, tail, rfl, rfl⟩ := ih h
    refine ⟨c :: d :: body, tail, rfl, ?_⟩
    rw [ByteOffset.size_cons, ByteOffset.size_cons]
    omega
  | case8 depth start c d text hopen hclose hdollar ih =>
    rw [closingBrace, if_neg hopen, if_neg hclose, if_neg hdollar] at h
    obtain ⟨body, tail, htext, rfl⟩ := ih h
    exact ⟨c :: body, tail, by rw [htext]; rfl, by rw [ByteOffset.size_cons]; omega⟩

/-- A reference is split at the end of a character. -/
theorem exists_splitBraced (input : List Char) : ∃ result, splitBraced input = some result ∧
    ∀ body tail, result = .ok (body, tail) → input = body ++ closeBrace :: tail := by
  rw [splitBraced]
  rcases hclosing : closingBrace 1 0 input with _ | index
  · exact ⟨_, rfl, nofun⟩
  · obtain ⟨body, tail, rfl, rfl⟩ := exists_of_closingBrace hclosing
    have hend : 0 + size body + 1 = size (body ++ [closeBrace]) := by
      simp [size_closeBrace]
    have htail : splitAt (0 + size body + 1) (body ++ closeBrace :: tail) =
        some (body ++ [closeBrace], tail) := by
      rw [hend, List.append_cons body closeBrace tail, ByteOffset.splitAt_size]
    have hbody : splitAt (0 + size body) (body ++ closeBrace :: tail) =
        some (body, closeBrace :: tail) := by
      rw [Nat.zero_add, ByteOffset.splitAt_size]
    simp only [hbody, htail]
    exact ⟨.ok (body, tail), rfl, fun body' tail' h => by cases h; rfl⟩

/-- A name ends at the end of a character. -/
theorem exists_of_nameLength (start : ℕ) (text : List Char) :
    ∃ name modifier, text = name ++ modifier ∧ nameLength start text = start + size name := by
  induction text generalizing start with
  | nil => exact ⟨[], [], rfl, rfl⟩
  | cons c text ih =>
    rw [nameLength]
    split_ifs
    · obtain ⟨name, modifier, rfl, hlength⟩ := ih (start + c.utf8Size)
      exact ⟨c :: name, modifier, rfl, by rw [hlength, ByteOffset.size_cons]; omega⟩
    · exact ⟨[], c :: text, rfl, rfl⟩

theorem exists_valueOr {expand : List Char → Option (Except SubstError (List Char))}
    {name default : List Char} {emptyCounts : Bool}
    (hexpand : ∃ result, expand default = some result) :
    ∃ result, valueOr vars expand name default emptyCounts = some result := by
  rw [valueOr]
  split
  · split_ifs
    · exact ⟨_, rfl⟩
    · exact hexpand
  · exact hexpand

/-- A reference is resolved, if its default is expanded. -/
theorem exists_resolve {expand : List Char → Option (Except SubstError (List Char))}
    (hexpand : ∀ default, default.length < body.length → ∃ result, expand default = some result) :
    ∃ result, resolve vars expand body = some result := by
  obtain ⟨name, modifier, rfl, hlength⟩ := exists_of_nameLength 0 body
  rw [Nat.zero_add] at hlength
  simp only [resolve, hlength, ByteOffset.splitAt_size, Option.bind_eq_bind, Option.bind_some]
  split_ifs with hname
  · exact ⟨_, rfl⟩
  · split
    · exact ⟨_, rfl⟩
    · exact exists_valueOr (hexpand _ (by simp only [List.length_append, List.length_cons]; omega))
    · exact exists_valueOr (hexpand _ (by simp only [List.length_append, List.length_cons]; omega))
    · exact ⟨_, rfl⟩

/-- **A value is always expanded.** Every slice is at the end of a character, and no more rounds are
needed than the value has characters. -/
theorem exists_expandFrom {rounds : ℕ} : ∀ {out rest : List Char}, rest.length < rounds →
    ∃ result, expandFrom vars rounds out rest = some result := by
  induction rounds with
  | zero => exact fun hlt => absurd hlt (Nat.not_lt_zero _)
  | succ rounds ih =>
    intro out rest hlt
    rw [expandFrom]
    rcases hfind : findOpener rest with _ | index
    · exact ⟨_, rfl⟩
    · obtain ⟨before, inner, rfl, rfl⟩ := exists_of_findOpener hfind
      simp only [List.length_append] at hlt
      have hlength : opener.length = 2 := rfl
      have hsplit : splitAt (size before) (before ++ opener ++ inner) =
          some (before, opener ++ inner) := by
        rw [List.append_assoc, ByteOffset.splitAt_size]
      simp only [hsplit, ByteOffset.splitAt_size, Option.bind_eq_bind, Option.bind_some]
      split
      · exact ih (by omega)
      · obtain ⟨result, hresult, hok⟩ := exists_splitBraced inner
        simp only [hresult, Option.bind_some]
        split
        · exact ⟨_, rfl⟩
        · rename_i body tail
          have hinner : inner.length = body.length + (tail.length + 1) := by
            rw [hok body tail rfl, List.length_append, List.length_cons]
          obtain ⟨value, hvalue⟩ : ∃ value, resolve vars (expandFrom vars rounds []) body =
              some value := exists_resolve fun default hdefault => ih (by omega)
          simp only [hvalue, Option.bind_some]
          split
          · exact ⟨_, rfl⟩
          · exact ih (by omega)

/-! ### More rounds change nothing -/

variable {expand expand' : List Char → Option (Except SubstError (List Char))}
  {result : Except SubstError (List Char)}

theorem resolve_mono (h : ∀ default result, expand default = some result →
    expand' default = some result) (hresult : resolve vars expand body = some result) :
    resolve vars expand' body = some result := by
  have hvalue : ∀ name default emptyCounts,
      valueOr vars expand name default emptyCounts = some result →
        valueOr vars expand' name default emptyCounts = some result := by
    intro name default emptyCounts hvalue
    rw [valueOr] at hvalue ⊢
    split at hvalue
    · split_ifs at hvalue ⊢
      · exact hvalue
      · exact h default result hvalue
    · exact h default result hvalue
  obtain ⟨name, modifier, rfl, hlength⟩ := exists_of_nameLength 0 body
  rw [Nat.zero_add] at hlength
  simp only [resolve, hlength, ByteOffset.splitAt_size, Option.bind_eq_bind, Option.bind_some]
    at hresult ⊢
  split_ifs at hresult ⊢
  · exact hresult
  · split at hresult
    · exact hresult
    · exact hvalue _ _ _ hresult
    · exact hvalue _ _ _ hresult
    · exact hresult

theorem expandFrom_succ {rounds : ℕ} : ∀ {out rest : List Char},
    expandFrom vars rounds out rest = some result →
      expandFrom vars (rounds + 1) out rest = some result := by
  induction rounds generalizing result with
  | zero => exact fun h => nomatch h
  | succ rounds ih =>
    intro out rest h
    rw [expandFrom] at h ⊢
    rcases hfind : findOpener rest with _ | index
    · simpa only [hfind] using h
    · obtain ⟨before, inner, rfl, rfl⟩ := exists_of_findOpener hfind
      have hsplit : splitAt (size before) (before ++ opener ++ inner) =
          some (before, opener ++ inner) := by
        rw [List.append_assoc, ByteOffset.splitAt_size]
      simp only [hfind, hsplit, ByteOffset.splitAt_size, Option.bind_eq_bind, Option.bind_some]
        at h ⊢
      split at h
      · exact ih h
      · obtain ⟨halves, hhalves, -⟩ := exists_splitBraced inner
        simp only [hhalves, Option.bind_some] at h ⊢
        cases halves with
        | error e => exact h
        | ok halves =>
          obtain ⟨value, hvalue, h⟩ := Option.bind_eq_some_iff.mp h
          simp only [resolve_mono (fun default result => ih) hvalue, Option.bind_some]
          cases value with
          | error e => exact h
          | ok value => exact ih h

/-- More rounds than are needed change nothing. -/
theorem expandFrom_of_le {rounds rounds' : ℕ} {out rest : List Char} (hle : rounds ≤ rounds')
    (h : expandFrom vars rounds out rest = some result) :
    expandFrom vars rounds' out rest = some result := by
  induction rounds', hle using Nat.le_induction with
  | base => exact h
  | succ rounds' _ ih => exact expandFrom_succ ih

end Servicrab
