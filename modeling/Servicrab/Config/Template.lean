import Servicrab.Config.Substitution
import Mathlib.Data.List.Infix

/-!
# What a value with references means

A template is text with escapes and references, whose defaults are templates again. It is written
as the source's documentation has it, and evaluated piece by piece: a value is put in as it is, and
a default is evaluated only when it is chosen. The expansion of a template as it is written is its
evaluation.

In the text of a template no dollar comes before an opening brace or right before a reference, and
a default is written with as many closing braces as opening ones, of which none closes more than is
open.

## Main definitions

* `Template`, `Template.render`, `Template.eval`, `Template.WellFormed`.

## Main results

* `expandFrom_cons`: a character of text is put out as it is.
* `splitBraced_balanced`: a balanced body is found whole.
* `expand_render`: an expansion is an evaluation.
-/

namespace Servicrab

open ByteOffset (splitAt size)

/-- Text with references to variables. -/
inductive Template
  | done
  /-- A character of literal text. -/
  | char (c : Char) (rest : Template)
  /-- A literal opener. -/
  | escape (rest : Template)
  /-- A variable that has to be set. -/
  | required (name : List Char) (rest : Template)
  /-- A variable with a default, for when it is not set, or also for when it is empty. -/
  | orElse (name : List Char) (emptyCounts : Bool) (default rest : Template)

namespace Template

/-- How a template is written. -/
def render : Template → List Char
  | done => []
  | char c rest => c :: rest.render
  | escape rest => '$' :: opener ++ rest.render
  | required name rest => opener ++ name ++ closeBrace :: rest.render
  | orElse name emptyCounts default rest =>
    opener ++ name ++ (if emptyCounts then [':', '-'] else ['-']) ++ default.render ++
      closeBrace :: rest.render

/-- The value of a variable, or else a default. -/
def orDefault (value : Option String) (emptyCounts : Bool)
    (default : Except (List Char) (List Char)) : Except (List Char) (List Char) :=
  match value with
  | some value => if value.isEmpty && emptyCounts then default else .ok value.toList
  | none => default

/-- What a template means: a text, or the first variable that is not set. -/
def eval (vars : Vars) : Template → Except (List Char) (List Char)
  | done => .ok []
  | char c rest => (eval vars rest).map (c :: ·)
  | escape rest => (eval vars rest).map (opener ++ ·)
  | required name rest =>
    match vars[String.ofList name]? with
    | some value => (eval vars rest).map (value.toList ++ ·)
    | none => .error name
  | orElse name emptyCounts default rest =>
    (orDefault vars[String.ofList name]? emptyCounts (eval vars default)).bind fun text =>
      (eval vars rest).map (text ++ ·)

/-- The name of a variable: a letter or an underscore, and then also digits. -/
def IsName : List Char → Prop
  | [] => False
  | first :: rest => isVariableChar true first ∧ ∀ c ∈ rest, isVariableChar false c

/-- The template begins with a reference, or with a brace that a dollar before it would open. -/
def Opens : Template → Prop
  | char c _ => c = openBrace
  | required _ _ | orElse _ _ _ _ => True
  | done | escape _ => False

/-- No part of the text closes more braces than are open before, and all that open are closed. -/
structure Balanced (text : List Char) : Prop where
  prefixes : ∀ part, part <+: text → part.count closeBrace ≤ part.count openBrace
  total : text.count closeBrace = text.count openBrace

/-- The text means itself, the names are names, and the defaults are balanced. -/
def WellFormed : Template → Prop
  | done => True
  | char c rest => (c = '$' → ¬ rest.Opens) ∧ rest.WellFormed
  | escape rest => rest.WellFormed
  | required name rest => IsName name ∧ rest.WellFormed
  | orElse name _ default rest =>
    IsName name ∧ Balanced default.render ∧ default.WellFormed ∧ rest.WellFormed

instance : DecidablePred IsName
  | [] => instDecidableFalse
  | _ :: rest =>
    @instDecidableAnd _ _ inferInstance (List.decidableBAll (fun c => isVariableChar false c) rest)

instance : DecidablePred Opens
  | char c _ => inferInstanceAs (Decidable (c = openBrace))
  | required _ _ | orElse _ _ _ _ => instDecidableTrue
  | done | escape _ => instDecidableFalse

theorem balanced_iff (text : List Char) :
    Balanced text ↔ (∀ part ∈ text.inits, part.count closeBrace ≤ part.count openBrace) ∧
      text.count closeBrace = text.count openBrace := by
  simp only [List.mem_inits]
  exact ⟨fun h => ⟨h.prefixes, h.total⟩, fun h => ⟨h.1, h.2⟩⟩

instance : DecidablePred Balanced := fun text => decidable_of_iff _ (balanced_iff text).symm

instance decidableWellFormed : DecidablePred WellFormed
  | done => instDecidableTrue
  | char c rest =>
    have := decidableWellFormed rest
    inferInstanceAs (Decidable ((c = '$' → ¬ rest.Opens) ∧ rest.WellFormed))
  | escape rest => decidableWellFormed rest
  | required name rest =>
    have := decidableWellFormed rest
    inferInstanceAs (Decidable (IsName name ∧ rest.WellFormed))
  | orElse name _ default rest =>
    have := decidableWellFormed default
    have := decidableWellFormed rest
    inferInstanceAs (Decidable
      (IsName name ∧ Balanced default.render ∧ default.WellFormed ∧ rest.WellFormed))

end Template

variable {vars : Vars} {text tail before inner out : List Char} {c : Char} {depth start rounds : ℕ}

/-! ### Text -/

theorem stripDollar_cons (c : Char) (before : List Char) (h : before = [] → c ≠ '$') :
    stripDollar (c :: before) = (stripDollar before).map (c :: ·) := by
  cases before with
  | nil => simp [stripDollar, h rfl]
  | cons d before =>
    simp only [stripDollar, List.getLast?_cons_cons, List.dropLast_cons_cons]
    split_ifs <;> rfl

/-- The text does not go on with an opener, nor with an escape. -/
structure Literal (c : Char) (text : List Char) : Prop where
  opener : ¬ (c = '$' ∧ text.head? = some openBrace)
  escape : ¬ (c = '$' ∧ Servicrab.opener <+: text)

/-- A character of text is put out as it is. -/
theorem expandFrom_cons (h : Literal c text) :
    expandFrom vars (rounds + 1) out (c :: text) =
      expandFrom vars (rounds + 1) (out ++ [c]) text := by
  rw [expandFrom, expandFrom, findOpener, if_neg h.opener]
  rcases hfind : findOpener text with _ | index
  · simp
  · obtain ⟨before, inner, rfl, rfl⟩ := exists_of_findOpener hfind
    have hsplit : splitAt (size before) (before ++ opener ++ inner) =
        some (before, opener ++ inner) := by
      rw [List.append_assoc, ByteOffset.splitAt_size]
    have hsplit' : splitAt (c.utf8Size + size before) (c :: (before ++ opener ++ inner)) =
        some (c :: before, opener ++ inner) := by
      rw [← ByteOffset.size_cons, List.append_assoc, ← List.cons_append, ByteOffset.splitAt_size]
    have hdollar : before = [] → c ≠ '$' := by
      rintro rfl rfl
      exact h.escape ⟨rfl, inner, rfl⟩
    simp only [Option.map_some, hsplit, hsplit', ByteOffset.splitAt_size, Option.bind_eq_bind,
      Option.bind_some, stripDollar_cons c before hdollar]
    cases stripDollar before <;> simp

/-! ### Braces -/

/-- A dollar is like any other character: the one behind it is no brace. -/
theorem closingBrace_dollar (depth start : ℕ) (text : List Char) :
    closingBrace depth start ('$' :: text) = closingBrace depth (start + 1) text := by
  have hopen : '$' ≠ openBrace := by decide
  have hclose : '$' ≠ closeBrace := by decide
  have hsize : Char.utf8Size '$' = 1 := by decide
  induction text generalizing start with
  | nil => simp [closingBrace, hclose]
  | cons d text ih =>
    rw [closingBrace, if_neg hopen, if_neg hclose, hsize]
    split_ifs with hdollar
    · obtain ⟨-, rfl⟩ := hdollar
      rw [ih, hsize]
    · rfl

/-- Only braces are counted. -/
theorem closingBrace_cons (depth start : ℕ) (c : Char) (text : List Char) :
    closingBrace depth start (c :: text) =
      if c = openBrace then closingBrace (depth + 1) (start + c.utf8Size) text
      else if c = closeBrace then
        if depth = 1 then some start else closingBrace (depth - 1) (start + c.utf8Size) text
      else closingBrace depth (start + c.utf8Size) text := by
  have hne : openBrace ≠ closeBrace := by decide
  cases text with
  | nil =>
    simp only [closingBrace]
    split_ifs <;> simp_all
  | cons d text =>
    rw [closingBrace]
    split_ifs with hopen hclose hdepth hdollar
    · rfl
    · rfl
    · rfl
    · obtain ⟨rfl, rfl⟩ := hdollar
      have hsize : Char.utf8Size '$' = 1 := by decide
      rw [closingBrace_dollar, hsize]
    · rfl

/-- Text that closes fewer braces than are open is passed over. -/
theorem closingBrace_append (h : ∀ part, part <+: text →
    part.count closeBrace < depth + part.count openBrace) (tail : List Char) :
    closingBrace depth start (text ++ tail) =
      closingBrace (depth + text.count openBrace - text.count closeBrace) (start + size text)
        tail := by
  have hne : openBrace ≠ closeBrace := by decide
  induction text generalizing depth start with
  | nil => rfl
  | cons c text ih =>
    have hparts (part : List Char) (hpart : part <+: text) :=
      h (c :: part) (List.cons_prefix_cons.mpr ⟨rfl, hpart⟩)
    have hfirst := hparts [] List.nil_prefix
    rw [List.cons_append, closingBrace_cons, ByteOffset.size_cons, ← Nat.add_assoc start]
    split_ifs with hopen hclose hdepth
    · subst hopen
      rw [ih fun part hpart => ?_]
      · simp only [List.count_cons_self, List.count_cons_of_ne hne]
        congr 1
        omega
      · have hcount := hparts part hpart
        simp only [List.count_cons_self, List.count_cons_of_ne hne] at hcount
        omega
    · subst hclose hdepth
      simp only [List.count_cons_self, List.count_nil, List.count_cons_of_ne hne.symm] at hfirst
      omega
    · subst hclose
      simp only [List.count_cons_self, List.count_nil, List.count_cons_of_ne hne.symm] at hfirst
      rw [ih fun part hpart => ?_]
      · simp only [List.count_cons_self, List.count_cons_of_ne hne.symm]
        congr 1
        omega
      · have hcount := hparts part hpart
        simp only [List.count_cons_self, List.count_cons_of_ne hne.symm] at hcount
        omega
    · rw [ih fun part hpart => ?_]
      · simp only [List.count_cons_of_ne hopen, List.count_cons_of_ne hclose]
      · have hcount := hparts part hpart
        simpa only [List.count_cons_of_ne hopen, List.count_cons_of_ne hclose] using hcount

/-- A balanced body is found whole. -/
theorem splitBraced_balanced (h : Template.Balanced text) (tail : List Char) :
    splitBraced (text ++ closeBrace :: tail) = some (.ok (text, tail)) := by
  have hne : closeBrace ≠ openBrace := by decide
  have hclosing : closingBrace 1 0 (text ++ closeBrace :: tail) = some (size text) := by
    rw [closingBrace_append (fun part hpart => by have := h.prefixes part hpart; omega),
      closingBrace_cons, if_neg hne, if_pos rfl, if_pos (by have := h.total; omega), Nat.zero_add]
  have hend : size text + 1 = size (text ++ [closeBrace]) := by simp [size_closeBrace]
  have htail : splitAt (size text + 1) (text ++ closeBrace :: tail) =
      some (text ++ [closeBrace], tail) := by
    rw [hend, List.append_cons text closeBrace tail, ByteOffset.splitAt_size]
  simp only [splitBraced, hclosing, htail, ByteOffset.splitAt_size]
  rfl

theorem Template.Balanced.nil : Template.Balanced [] := by
  constructor
  · intro part hpart
    rw [List.prefix_nil.mp hpart]
    exact Nat.zero_le _
  · rfl

/-- Text without braces may come before. -/
theorem Template.Balanced.append (h : Template.Balanced text)
    (hbefore : ∀ c ∈ before, c ≠ openBrace ∧ c ≠ closeBrace) :
    Template.Balanced (before ++ text) := by
  induction before with
  | nil => exact h
  | cons c before ih =>
    obtain ⟨hopen, hclose⟩ := hbefore c List.mem_cons_self
    have hrest := ih fun d hd => hbefore d (List.mem_cons_of_mem c hd)
    constructor
    · intro part hpart
      rcases List.prefix_cons_iff.mp hpart with rfl | ⟨part', rfl, hpart'⟩
      · exact Nat.zero_le _
      · simpa only [List.count_cons_of_ne hopen, List.count_cons_of_ne hclose] using
          hrest.prefixes part' hpart'
    · simpa only [List.cons_append, List.count_cons_of_ne hopen, List.count_cons_of_ne hclose] using
        hrest.total

/-! ### Names -/

variable {name modifier default : List Char}

theorem ne_brace_of_isVariableChar {first : Bool} (h : isVariableChar first c) :
    c ≠ openBrace ∧ c ≠ closeBrace := by
  constructor
  all_goals
    rintro rfl
    revert first
    decide

theorem Template.IsName.ne_nil (h : Template.IsName name) : name ≠ [] := by
  rintro rfl
  exact h

theorem Template.IsName.ne_brace (h : Template.IsName name) :
    ∀ c ∈ name, c ≠ openBrace ∧ c ≠ closeBrace := by
  cases name with
  | nil => exact h.elim
  | cons first rest =>
    intro c hc
    rcases List.mem_cons.mp hc with rfl | hc
    · exact ne_brace_of_isVariableChar h.1
    · exact ne_brace_of_isVariableChar (h.2 c hc)

/-- Behind its first character a name ends at the first character that is not for names. -/
theorem nameLength_append (hstart : 0 < start) (hname : ∀ c ∈ name, isVariableChar false c)
    (hmodifier : ∀ c ∈ modifier.head?, ¬ isVariableChar false c) :
    nameLength start (name ++ modifier) = start + size name := by
  have hzero (n : ℕ) (hn : 0 < n) : (n == 0) = false := by rw [beq_eq_false_iff_ne]; omega
  induction name generalizing start with
  | nil =>
    cases modifier with
    | nil => rfl
    | cons c modifier =>
      rw [List.nil_append, nameLength, hzero start hstart, if_neg (hmodifier c rfl)]
      rfl
  | cons c name ih =>
    rw [List.cons_append, nameLength, hzero start hstart, if_pos (hname c List.mem_cons_self),
      ih (by omega) fun d hd => hname d (List.mem_cons_of_mem c hd), ByteOffset.size_cons]
    omega

theorem Template.IsName.nameLength_eq (h : Template.IsName name)
    (hmodifier : ∀ c ∈ modifier.head?, ¬ isVariableChar false c) :
    nameLength 0 (name ++ modifier) = size name := by
  cases name with
  | nil => exact h.elim
  | cons first rest =>
    have hfirst : isVariableChar ((0 : ℕ) == 0) first := h.1
    rw [List.cons_append, nameLength, if_pos hfirst, Nat.zero_add,
      nameLength_append first.utf8Size_pos h.2 hmodifier, ByteOffset.size_cons]

variable {expandDefault : List Char → Option (Except SubstError (List Char))}

/-- A name alone is looked up. -/
theorem resolve_name (h : Template.IsName name) :
    resolve vars expandDefault name = some (lookup vars name) := by
  have hlength : nameLength 0 name = size name := by
    have happend : nameLength 0 (name ++ []) = size name := h.nameLength_eq nofun
    rwa [List.append_nil] at happend
  have hsplit : splitAt (size name) name = some (name, []) := by
    simpa using ByteOffset.splitAt_size name []
  simp [resolve, hlength, hsplit, h.ne_nil]

/-- A name with a default gives one of the two. -/
theorem resolve_orElse (h : Template.IsName name) (emptyCounts : Bool) (default : List Char) :
    resolve vars expandDefault (name ++ ((if emptyCounts then [':', '-'] else ['-']) ++ default)) =
      valueOr vars expandDefault name default emptyCounts := by
  have hne := h.ne_nil
  cases emptyCounts with
  | false =>
    have hlength : nameLength 0 (name ++ ('-' :: default)) = size name :=
      h.nameLength_eq (by simp; decide)
    simp [resolve, hlength, ByteOffset.splitAt_size, hne]
  | true =>
    have hlength : nameLength 0 (name ++ (':' :: '-' :: default)) = size name :=
      h.nameLength_eq (by simp; decide)
    simp [resolve, hlength, ByteOffset.splitAt_size, hne]

/-! ### Templates -/

namespace Template

variable {t rest : Template}

theorem Opens.of_head?_render (h : rest.render.head? = some openBrace) : rest.Opens := by
  cases rest with
  | done => cases h
  | char c rest => exact Option.some.inj h
  | escape rest => exact absurd (Option.some.inj h) (by decide)
  | required | orElse => trivial

theorem WellFormed.opens_of_opener (hwf : rest.WellFormed) (h : opener <+: rest.render) :
    rest.Opens := by
  obtain ⟨inner, hinner⟩ := h
  cases rest with
  | done => cases hinner
  | char c rest =>
    obtain ⟨rfl, hrest⟩ := List.cons.inj hinner
    have hhead : rest.render.head? = some openBrace := by rw [← hrest]; rfl
    exact absurd (Opens.of_head?_render hhead) (hwf.1 rfl)
  | escape rest => exact absurd (List.cons.inj (List.cons.inj hinner).2).1 (by decide)
  | required | orElse => trivial

/-- The text of a template goes on with no opener. -/
theorem WellFormed.literal (h : (char c rest).WellFormed) : Literal c rest.render :=
  ⟨fun ⟨hdollar, hhead⟩ => h.1 hdollar (Opens.of_head?_render hhead),
    fun ⟨hdollar, hopener⟩ => h.1 hdollar (h.2.opens_of_opener hopener)⟩

end Template

/-- An escape is put out as an opener. -/
theorem expandFrom_escape (rounds : ℕ) (out text : List Char) :
    expandFrom vars (rounds + 1) out ('$' :: opener ++ text) =
      expandFrom vars rounds (out ++ opener) text := by
  have hfind : findOpener ('$' :: opener ++ text) = some (size ['$']) := by
    simp [findOpener, opener]
    decide
  have hsplit : splitAt (size ['$']) ('$' :: opener ++ text) = some (['$'], opener ++ text) :=
    ByteOffset.splitAt_size ['$'] (opener ++ text)
  have hstrip : stripDollar ['$'] = some [] := rfl
  simp only [expandFrom, hfind, hsplit, ByteOffset.splitAt_size, hstrip, Option.bind_eq_bind,
    Option.bind_some, List.append_nil]

/-- A reference is put out as what its body is resolved to. -/
theorem expandFrom_reference (hbody : Template.Balanced text) (rounds : ℕ)
    (out tail : List Char) :
    expandFrom vars (rounds + 1) out (opener ++ text ++ closeBrace :: tail) =
      (resolve vars (expandFrom vars rounds []) text).bind fun
        | .error e => some (.error e)
        | .ok value => expandFrom vars rounds (out ++ value) tail := by
  have hfind : findOpener (opener ++ text ++ closeBrace :: tail) = some (size []) := by
    simp [findOpener, opener]
  have hsplit : splitAt (size []) (opener ++ text ++ closeBrace :: tail) =
      some ([], opener ++ (text ++ closeBrace :: tail)) := by
    rw [List.append_assoc]
    exact ByteOffset.splitAt_size [] _
  simp only [expandFrom, hfind, hsplit, ByteOffset.splitAt_size, stripDollar,
    splitBraced_balanced hbody, Option.bind_eq_bind, Option.bind_some, List.append_nil]
  rfl

/-- What an expansion gives that has put out a text before. -/
def answer (out : List Char) (result : Except (List Char) (List Char)) :
    Except SubstError (List Char) :=
  (result.map (out ++ ·)).mapError fun name => .undefined (String.ofList name)

theorem answer_map (out text : List Char) (result : Except (List Char) (List Char)) :
    answer out (result.map (text ++ ·)) = answer (out ++ text) result := by
  cases result with
  | error name => rfl
  | ok value => simp [answer, Except.map, Except.mapError]

/-- A default that is expanded is evaluated. -/
theorem valueOr_eq {result : Except (List Char) (List Char)}
    (hdefault : expandDefault default = some (answer [] result)) (name : List Char)
    (emptyCounts : Bool) :
    valueOr vars expandDefault name default emptyCounts =
      some (answer [] (Template.orDefault vars[String.ofList name]? emptyCounts result)) := by
  rw [valueOr]
  cases vars[String.ofList name]? with
  | none => exact hdefault
  | some value =>
    simp only [Template.orDefault]
    cases value.isEmpty <;> cases emptyCounts <;> first | exact hdefault | rfl

/-- The rest of a value that is a template is put out as the template's evaluation. -/
theorem expandFrom_render {t : Template} (hwf : t.WellFormed) :
    ∀ {rounds : ℕ} {out : List Char}, t.render.length < rounds →
      expandFrom vars rounds out t.render = some (answer out (t.eval vars)) := by
  induction t with
  | done =>
    intro rounds out hlt
    obtain ⟨rounds, rfl⟩ := Nat.exists_eq_add_one.mpr hlt
    rfl
  | char c rest ih =>
    intro rounds out hlt
    obtain ⟨rounds, rfl⟩ := Nat.exists_eq_add_one.mpr (Nat.zero_lt_of_lt hlt)
    rw [Template.render, expandFrom_cons hwf.literal, ih hwf.2 (Nat.lt_of_succ_lt hlt), Template.eval]
    exact congrArg some (answer_map out [c] (rest.eval vars)).symm
  | escape rest ih =>
    intro rounds out hlt
    obtain ⟨rounds, rfl⟩ := Nat.exists_eq_add_one.mpr (Nat.zero_lt_of_lt hlt)
    have hrest : rest.render.length < rounds := by
      simp only [Template.render, opener, List.length_append, List.length_cons] at hlt
      omega
    rw [Template.render, expandFrom_escape, ih hwf hrest, Template.eval, answer_map]
  | required name rest ih =>
    intro rounds out hlt
    obtain ⟨rounds, rfl⟩ := Nat.exists_eq_add_one.mpr (Nat.zero_lt_of_lt hlt)
    obtain ⟨hname, hrest⟩ := hwf
    have hlt' : rest.render.length < rounds := by
      simp only [Template.render, opener, List.length_append, List.length_cons] at hlt
      omega
    have hbody : Template.Balanced name := by
      simpa using Template.Balanced.nil.append hname.ne_brace
    rw [Template.render, expandFrom_reference hbody, resolve_name hname, Option.bind_some, lookup,
      Template.eval]
    cases vars[String.ofList name]? with
    | none => rfl
    | some value => exact (ih hrest hlt').trans (by rw [answer_map])
  | orElse name emptyCounts default rest ihDefault ih =>
    intro rounds out hlt
    obtain ⟨rounds, rfl⟩ := Nat.exists_eq_add_one.mpr (Nat.zero_lt_of_lt hlt)
    obtain ⟨hname, hbalanced, hdefault, hrest⟩ := hwf
    have hlt' : default.render.length < rounds ∧ rest.render.length < rounds := by
      simp only [Template.render, opener, List.length_append, List.length_cons] at hlt
      omega
    have hmodifier : Template.Balanced
        ((if emptyCounts then [':', '-'] else ['-']) ++ default.render) :=
      hbalanced.append (by cases emptyCounts <;> simp [openBrace, closeBrace])
    have hbody := hmodifier.append hname.ne_brace
    have hrender : (Template.orElse name emptyCounts default rest).render =
        opener ++ (name ++ ((if emptyCounts then [':', '-'] else ['-']) ++ default.render)) ++
          closeBrace :: rest.render := by
      simp only [Template.render, List.append_assoc]
    rw [hrender, expandFrom_reference hbody, resolve_orElse hname,
      valueOr_eq (ihDefault hdefault hlt'.1), Option.bind_some, Template.eval]
    cases Template.orDefault vars[String.ofList name]? emptyCounts (default.eval vars) with
    | error name => rfl
    | ok text =>
      exact (ih hrest hlt'.2).trans (congrArg some (answer_map out text (rest.eval vars)).symm)

/-- **Substitution means what its grammar says.** A template as it is written is expanded to its
evaluation, or to the variable the evaluation does not find. Whatever the input, the expansion ends,
and every slice it takes is at the end of a character. -/
theorem expand_render (vars : Vars) :
    (∀ t : Template, t.WellFormed →
      expand vars t.render = some (match t.eval vars with
        | .ok text => .ok text
        | .error name => .error (.undefined (String.ofList name)))) ∧
    ∀ input, ∃ result, expand vars input = some result := by
  constructor
  · intro t hwf
    rw [expand, expandFrom_render hwf (Nat.lt_succ_self _)]
    cases t.eval vars <;> rfl
  · exact fun input => exists_expandFrom (Nat.lt_succ_self _)

/-- The default of an empty variable is another variable, whose value is a reference. -/
theorem expand_render_nested :
    expand {("EMPTY", ""), ("NAME", "$\x7bX\x7d")} "$$\x7b$\x7bEMPTY:-$\x7bNAME\x7d!\x7d".toList =
      some (.ok "$\x7b$\x7bX\x7d!".toList) := by
  have h := (expand_render {("EMPTY", ""), ("NAME", "$\x7bX\x7d")}).1
    (.escape (.orElse "EMPTY".toList true (.required "NAME".toList (.char '!' .done)) .done))
    (by decide +kernel)
  exact h.trans (by decide +kernel)

end Servicrab
