import Servicrab.Config.Template

/-!
# Escapes

What an escape `$${` does to the braces around it (`subst.rs`). The expansion takes an escape for a
literal opener, and a text in which every opener is escaped is put out as it was.

The search for the closing brace of a reference reads the same escapes, but it passes over their
dollars only: their braces count as open, although nothing closes them. So a default with an escape in
it is not found whole, unless a brace of the text around it happens to close the one that is escaped.

## Main definitions

* `escapeOpeners`: the text with every opener escaped.
* `DefaultText`: text with references and escapes, and nothing else with a dollar or a brace.
* `DefaultText.escapes`: how many escapes there are, in references also.
* `DefaultText.Expands`: every reference of the text can be resolved.
* `DefaultText.AgreesAsDefault`: the text is expanded alike as a default and by itself.

## Main results

* `expand_escapeOpeners`: escaping undoes substitution.
* `DefaultText.exists_expandFrom_iff`: the texts that are expanded.
* `DefaultText.agreesAsDefault_iff`: the texts that may be defaults.
-/

namespace Servicrab

open ByteOffset (splitAt size)

/-! ### Text without references -/

/-- Put a dollar before each opener. -/
def escapeOpeners : List Char → List Char
  | c :: d :: text =>
    if c = '$' ∧ d = openBrace then '$' :: opener ++ escapeOpeners text
    else c :: escapeOpeners (d :: text)
  | text => text

/-- The template that means a text. -/
def Template.ofText : List Char → Template
  | c :: d :: text =>
    if c = '$' ∧ d = openBrace then .escape (ofText text) else .char c (ofText (d :: text))
  | [c] => .char c .done
  | [] => .done

namespace Template

theorem render_ofText (text : List Char) : (ofText text).render = escapeOpeners text := by
  induction text using ofText.induct with
  | case1 c d text hopener ih => rw [ofText, escapeOpeners, if_pos hopener, if_pos hopener, render, ih]
  | case2 c d text hopener ih => rw [ofText, escapeOpeners, if_neg hopener, if_neg hopener, render, ih]
  | case3 c => rfl
  | case4 => rfl

theorem eval_ofText (vars : Vars) (text : List Char) : (ofText text).eval vars = .ok text := by
  induction text using ofText.induct with
  | case1 c d text hopener ih =>
    obtain ⟨rfl, rfl⟩ := hopener
    rw [ofText, if_pos ⟨rfl, rfl⟩, eval, ih]
    rfl
  | case2 c d text hopener ih =>
    rw [ofText, if_neg hopener, eval, ih]
    rfl
  | case3 c => rfl
  | case4 => rfl

/-- The template of a text has no references, so that only a brace could be opened. -/
theorem opens_ofText {text : List Char} (h : (ofText text).Opens) : text.head? = some openBrace := by
  unfold ofText at h
  split at h
  · split_ifs at h
    · exact h.elim
    · exact congrArg some h
  · exact congrArg some h
  · exact h.elim

theorem wellFormed_ofText (text : List Char) : (ofText text).WellFormed := by
  induction text using ofText.induct with
  | case1 c d text hopener ih => rwa [ofText, if_pos hopener]
  | case2 c d text hopener ih =>
    rw [ofText, if_neg hopener]
    exact ⟨fun hc hopens => hopener ⟨hc, Option.some.inj (opens_ofText hopens)⟩, ih⟩
  | case3 c => exact ⟨fun _ hopens => hopens, trivial⟩
  | case4 => trivial

end Template

/-- **Escaping undoes substitution.** -/
theorem expand_escapeOpeners (vars : Vars) (text : List Char) :
    expand vars (escapeOpeners text) = some (.ok text) := by
  rw [← Template.render_ofText, expand,
    expandFrom_render (Template.wellFormed_ofText text) (Nat.lt_succ_self _), Template.eval_ofText]
  rfl

/-! ### Texts that may be defaults -/

/-- A character that is no dollar and no brace. -/
abbrev PlainChar := { c : Char // c ≠ '$' ∧ c ≠ openBrace ∧ c ≠ closeBrace }

/-- Text with references and escapes. The body of a reference is such a text again, whether or not it
is one of the accepted forms. -/
inductive DefaultText
  | done
  | char (c : PlainChar) (rest : DefaultText)
  | escape (rest : DefaultText)
  | reference (body rest : DefaultText)

namespace DefaultText

/-- How a text is written. -/
def render : DefaultText → List Char
  | done => []
  | char c rest => c.val :: rest.render
  | escape rest => '$' :: opener ++ rest.render
  | reference body rest => opener ++ body.render ++ closeBrace :: rest.render

/-- The number of escapes, those in references included. -/
def escapes : DefaultText → ℕ
  | done => 0
  | char _ rest => rest.escapes
  | escape rest => rest.escapes + 1
  | reference body rest => body.escapes + rest.escapes

mutual

/-- Every reference is found whole, and resolved. -/
def Expands (vars : Vars) : DefaultText → Prop
  | done => True
  | char _ rest => rest.Expands vars
  | escape rest => rest.Expands vars
  | reference body rest => body.escapes = 0 ∧ body.Resolves vars [] ∧ rest.Expands vars

/-- What follows the first characters of a name is the rest of an accepted form, and there is a value
for it. -/
def Resolves (vars : Vars) (name : List Char) : DefaultText → Prop
  | done => name ≠ [] ∧ vars[String.ofList name]?.isSome
  | char c rest =>
    if isVariableChar (name = []) c then rest.Resolves vars (name ++ [c.val])
    else name ≠ [] ∧
      (c = '-' ∧ (vars[String.ofList name]?.isSome ∨ rest.Expands vars) ∨
        c = ':' ∧ rest.ResolvesEmpty vars name)
  | escape _ => False
  | reference _ _ => False

/-- What follows a name and a colon is a default. -/
def ResolvesEmpty (vars : Vars) (name : List Char) : DefaultText → Prop
  | char c rest => c = '-' ∧
      (vars[String.ofList name]?.any (!·.isEmpty) ∨ rest.Expands vars)
  | done => False
  | escape _ => False
  | reference _ _ => False

end

/-- The reference to a variable with the text as its default. -/
def asDefault (name : List Char) (t : DefaultText) : List Char :=
  opener ++ (name ++ ([':', '-'] ++ t.render)) ++ [closeBrace]

/-- The text is expanded to the same as a default, if it is expanded at all. -/
def AgreesAsDefault (vars : Vars) (name : List Char) (t : DefaultText) : Prop :=
  ∀ text, expand vars (t.asDefault name) = some (.ok text) ↔
    expand vars t.render = some (.ok text)

/-! ### Braces -/

/-- No part of the text closes more braces than are open, and so many are left open. -/
structure Nests (text : List Char) (excess : ℕ) : Prop where
  prefixes : ∀ part, part <+: text → part.count closeBrace ≤ part.count openBrace
  total : text.count openBrace = text.count closeBrace + excess

variable {vars : Vars} {text tail name out : List Char} {excess excess' rounds : ℕ}

theorem Nests.nil : Nests [] 0 := by
  constructor
  · intro part hpart
    rw [List.prefix_nil.mp hpart]
    exact Nat.zero_le _
  · rfl

theorem Nests.append (h : Nests text excess) (h' : Nests tail excess') :
    Nests (text ++ tail) (excess + excess') := by
  have htotal := h.total
  constructor
  · intro part hpart
    obtain ⟨after, heq⟩ := hpart
    rcases List.append_eq_append_iff.mp heq with ⟨more, rfl, -⟩ | ⟨more, rfl, rfl⟩
    · exact h.prefixes part (List.prefix_append part more)
    · have hlast := h'.prefixes more (List.prefix_append more after)
      rw [List.count_append, List.count_append]
      omega
  · have htotal' := h'.total
    rw [List.count_append, List.count_append]
    omega

/-- Text without braces. -/
theorem Nests.plain (h : ∀ c ∈ text, c ≠ openBrace ∧ c ≠ closeBrace) : Nests text 0 := by
  have hopen : openBrace ∉ text := fun hmem => (h _ hmem).1 rfl
  have hclose : closeBrace ∉ text := fun hmem => (h _ hmem).2 rfl
  constructor
  · intro part hpart
    rw [List.count_eq_zero_of_not_mem fun hmem => hclose (hpart.subset hmem)]
    exact Nat.zero_le _
  · rw [List.count_eq_zero_of_not_mem hopen, List.count_eq_zero_of_not_mem hclose]

theorem Nests.openBrace : Nests [openBrace] 1 := by
  have hne : Servicrab.openBrace ≠ closeBrace := by decide
  constructor
  · intro part hpart
    have hnone : closeBrace ∉ part := fun hmem => by
      simpa [hne.symm] using hpart.subset hmem
    rw [List.count_eq_zero_of_not_mem hnone]
    exact Nat.zero_le _
  · decide

/-- A brace that is open is closed. -/
theorem Nests.close (h : Nests text (excess + 1)) : Nests (text ++ [closeBrace]) excess := by
  have hne : closeBrace ≠ Servicrab.openBrace := by decide
  have htotal := h.total
  constructor
  · intro part hpart
    rcases List.prefix_concat_iff.mp hpart with rfl | hpart
    · simp only [List.count_append, List.count_cons_self, List.count_cons_of_ne hne, List.count_nil]
      omega
    · exact h.prefixes part hpart
  · simp only [List.count_append, List.count_cons_self, List.count_cons_of_ne hne, List.count_nil]
    omega

/-- A text that leaves no brace open is balanced. -/
theorem Nests.balanced (h : Nests text 0) : Template.Balanced text :=
  ⟨h.prefixes, h.total.symm⟩

/-- A text that closes no brace but its own has no closing brace for the one before it. -/
theorem Nests.splitBraced_eq (h : Nests text excess) : ∃ e, splitBraced text = some (.error e) := by
  have hclosing : closingBrace 1 0 text = none := by
    rw [← List.append_nil text,
      closingBrace_append fun part hpart => by have := h.prefixes part hpart; omega]
    rfl
  rw [splitBraced, hclosing]
  exact ⟨_, rfl⟩

/-- Each escape leaves a brace open. -/
theorem nests_render (t : DefaultText) : Nests t.render t.escapes := by
  have hdollar : Nests ['$'] 0 := .plain (by simp [Servicrab.openBrace, closeBrace])
  have hopener : Nests opener 1 := hdollar.append .openBrace
  induction t with
  | done => exact .nil
  | char c rest ih =>
    have hchar : Nests [c.val] 0 := .plain (by simpa using c.property.2)
    have happend := hchar.append ih
    rwa [Nat.zero_add] at happend
  | escape rest ih =>
    have happend := (hdollar.append hopener).append ih
    rwa [Nat.zero_add, Nat.add_comm 1] at happend
  | reference body rest ihBody ih =>
    have hopened := hopener.append ihBody
    rw [Nat.add_comm 1] at hopened
    have happend := hopened.close.append ih
    rwa [← List.append_cons] at happend

/-! ### References -/

variable {expand : List Char → Option (Except SubstError (List Char))} {modifier : List Char}

/-- The text is given out, and not an error. -/
def Gives (result : Option (Except SubstError (List Char))) : Prop :=
  ∃ text, result = some (.ok text)

theorem not_gives_error (e : SubstError) : ¬Gives (some (.error e)) := by
  rintro ⟨text, htext⟩
  cases htext

theorem not_gives_none : ¬Gives none := by
  rintro ⟨text, htext⟩
  cases htext

theorem isName_concat {c : Char} (h : name = [] ∨ Template.IsName name)
    (hc : isVariableChar (name = []) c) : Template.IsName (name ++ [c]) := by
  rcases h with rfl | hname
  · exact ⟨hc, by simp⟩
  · cases name with
    | nil => exact hname.elim
    | cons first rest =>
      refine ⟨hname.1, fun d hd => ?_⟩
      rcases List.mem_append.mp hd with hd | hd
      · exact hname.2 d hd
      · rw [List.mem_singleton.mp hd]
        simpa using hc

/-- A dollar sign ends a name. -/
theorem not_isVariableChar_head {text : List Char} (h : text.head? = some '$') (first : Bool) :
    ∀ c ∈ text.head?, ¬isVariableChar first c := by
  intro c hc
  obtain rfl : '$' = c := Option.some.inj (h.symm.trans hc)
  cases first <;> decide

/-- The value of a reference in an accepted form, by what follows its name. -/
def acceptedValue (vars : Vars) (expand : List Char → Option (Except SubstError (List Char)))
    (name : List Char) : List Char → Option (Except SubstError (List Char))
  | [] => some (lookup vars name)
  | ':' :: '-' :: default => valueOr vars expand name default true
  | '-' :: default => valueOr vars expand name default false
  | _ => none

/-- A body is taken apart where its name ends. -/
theorem resolve_append (h : name = [] ∨ Template.IsName name)
    (hmodifier : ∀ c ∈ modifier.head?, ¬isVariableChar (name = []) c) :
    Gives (resolve vars expand (name ++ modifier)) ↔
      name ≠ [] ∧ Gives (acceptedValue vars expand name modifier) := by
  have hlength : nameLength 0 (name ++ modifier) = size name := by
    rcases h with rfl | hname
    · cases modifier with
      | nil => rfl
      | cons c modifier =>
        rw [List.nil_append, nameLength, if_neg (by simpa using hmodifier)]
        rfl
    · exact hname.nameLength_eq (by simpa [hname.ne_nil] using hmodifier)
  simp only [resolve, hlength, ByteOffset.splitAt_size, Option.bind_eq_bind, Option.bind_some]
  split_ifs with hname
  · exact iff_of_false (not_gives_error _) fun h => h.1 hname
  · rw [and_iff_right hname]
    split
    · rfl
    · rfl
    · rfl
    · rename_i hnil hcolon hdash
      rw [acceptedValue]
      · exact iff_of_false (not_gives_error _) not_gives_none
      · exact hnil
      · exact hcolon
      · exact hdash

theorem gives_valueOr {default : List Char} {emptyCounts : Bool} :
    Gives (valueOr vars expand name default emptyCounts) ↔
      vars[String.ofList name]?.any (fun value => !value.isEmpty || !emptyCounts) ∨
        Gives (expand default) := by
  rw [valueOr]
  cases vars[String.ofList name]? with
  | none => simp
  | some value =>
    simp only [Option.any_some]
    split_ifs with h <;> simp [h, Gives]

/-! ### The texts that are expanded -/

theorem expandFrom_char (c : PlainChar) (text : List Char) :
    expandFrom vars (rounds + 1) out (c.val :: text) =
      expandFrom vars (rounds + 1) (out ++ [c.val]) text :=
  expandFrom_cons ⟨fun h => c.property.1 h.1, fun h => c.property.1 h.1⟩

/-- A reference that is not closed is not expanded. -/
theorem expandFrom_unclosed (h : Nests text excess) :
    ∃ e, expandFrom vars (rounds + 1) out (opener ++ text) = some (.error e) := by
  obtain ⟨e, he⟩ := h.splitBraced_eq
  have hfind : findOpener (opener ++ text) = some (size []) := by simp [findOpener, opener]
  have hsplit : splitAt (size []) (opener ++ text) = some ([], opener ++ text) :=
    ByteOffset.splitAt_size [] _
  refine ⟨e, ?_⟩
  simp only [expandFrom, hfind, hsplit, ByteOffset.splitAt_size, stripDollar, he,
    Option.bind_eq_bind, Option.bind_some]
  rfl

/-- What follows a name and a colon, if the defaults in it are expanded as they are said to be. -/
theorem gives_resolve_colon (t : DefaultText) (hname : Template.IsName name)
    (hdefault : ∀ c rest, t = char c rest → (Gives (expand rest.render) ↔ rest.Expands vars)) :
    Gives (resolve vars expand (name ++ ':' :: t.render)) ↔ t.ResolvesEmpty vars name := by
  have hne := hname.ne_nil
  have hcolon : ∀ c ∈ (':' :: t.render).head?, ¬isVariableChar (name = []) c := by
    simp [hne]
    decide
  rw [resolve_append (.inr hname) hcolon, and_iff_right hne]
  cases t with
  | done => simp [render, ResolvesEmpty, acceptedValue, Gives]
  | escape rest => simp [render, opener, ResolvesEmpty, acceptedValue, Gives]
  | reference body rest => simp [render, opener, ResolvesEmpty, acceptedValue, Gives]
  | char c rest =>
    rw [ResolvesEmpty, ← hdefault c rest rfl, render]
    by_cases hc : c.val = '-'
    · rw [hc, and_iff_right rfl, acceptedValue, gives_valueOr]
      simp
    · simp [hc, acceptedValue, Gives]

/-- What follows the first characters of a name. -/
theorem gives_resolve (t : DefaultText) (hname : name = [] ∨ Template.IsName name)
    (hdefault : ∀ u : DefaultText, u.render.length < t.render.length →
      (Gives (expand u.render) ↔ u.Expands vars)) :
    Gives (resolve vars expand (name ++ t.render)) ↔ t.Resolves vars name := by
  induction t generalizing name with
  | done =>
    have hlookup : Gives (some (lookup vars name)) ↔ vars[String.ofList name]?.isSome := by
      rw [lookup]
      cases vars[String.ofList name]? with
      | none => exact iff_of_false (not_gives_error _) Bool.false_ne_true
      | some value => exact iff_of_true ⟨_, rfl⟩ rfl
    have hend : ∀ c ∈ ([] : List Char).head?, ¬isVariableChar (name = []) c := by simp
    rw [render, resolve_append hname hend, acceptedValue, hlookup, Resolves]
  | escape rest ih =>
    rw [resolve_append hname (not_isVariableChar_head rfl _)]
    simp [render, opener, Resolves, acceptedValue, Gives]
  | reference body rest ihBody ih =>
    rw [resolve_append hname (not_isVariableChar_head rfl _)]
    simp [render, opener, Resolves, acceptedValue, Gives]
  | char c rest ih =>
    have hlt : rest.render.length < (char c rest).render.length := Nat.lt_succ_self _
    rw [Resolves]
    split_ifs with hc
    · -- the name goes on
      rw [render, List.append_cons]
      exact ih (.inr (isName_concat hname hc)) fun u hu => hdefault u (hu.trans hlt)
    · rcases hname with rfl | hname
      · rw [resolve_append (.inl rfl) (by simpa [render] using hc)]
        simp
      · have hne := hname.ne_nil
        rw [and_iff_right hne]
        by_cases hcolon : c.val = ':'
        · have hrest : Gives (resolve vars expand (name ++ ':' :: rest.render)) ↔
              rest.ResolvesEmpty vars name := by
            refine gives_resolve_colon rest hname fun d rest' hrest => hdefault rest' ?_
            subst hrest
            exact (Nat.lt_succ_self _).trans hlt
          rw [render, hcolon, hrest]
          simp
        · rw [resolve_append (.inr hname) (by simpa [render] using hc), and_iff_right hne, render]
          by_cases hdash : c.val = '-'
          · rw [hdash, acceptedValue, gives_valueOr, hdefault rest hlt]
            simp
          · simp [hcolon, hdash, acceptedValue, Gives]

/-- A reference is put out as its value, if it is resolved and found whole. -/
theorem exists_expandFrom_iff (t : DefaultText) : ∀ {rounds : ℕ} {out : List Char},
    t.render.length < rounds → (Gives (expandFrom vars rounds out t.render) ↔ t.Expands vars) := by
  induction hn : t.render.length using Nat.strong_induction_on generalizing t with
  | _ n ih =>
    intro rounds out hlt
    obtain ⟨rounds, rfl⟩ := Nat.exists_eq_add_one.mpr (Nat.zero_lt_of_lt hlt)
    subst hn
    cases t with
    | done => exact iff_of_true ⟨out, by simp [expandFrom, findOpener, render]⟩ trivial
    | char c rest =>
      have hrest : rest.render.length < (char c rest).render.length := Nat.lt_succ_self _
      rw [render, expandFrom_char, Expands]
      exact ih _ hrest rest rfl (hrest.trans hlt)
    | escape rest =>
      have hrest : rest.render.length + 3 = (escape rest).render.length := by simp [render, opener]
      rw [render, expandFrom_escape, Expands]
      exact ih _ (by omega) rest rfl (by omega)
    | reference body rest =>
      have hlength : (reference body rest).render.length =
          body.render.length + rest.render.length + 3 := by
        simp [render, opener]
        omega
      rw [Expands, render]
      cases hescapes : body.escapes with
      | zero =>
        have hbody : Gives (resolve vars (expandFrom vars rounds []) body.render) ↔
            body.Resolves vars [] :=
          gives_resolve body (.inl rfl) fun u hu => ih _ (by omega) u rfl (by omega)
        have hrest (value : List Char) :
            Gives (expandFrom vars rounds (out ++ value) rest.render) ↔ rest.Expands vars :=
          ih _ (by omega) rest rfl (by omega)
        rw [expandFrom_reference (hescapes ▸ nests_render body).balanced, and_iff_right rfl, ← hbody]
        constructor
        · rintro ⟨text, htext⟩
          obtain ⟨value, hvalue, htext⟩ := Option.bind_eq_some_iff.mp htext
          cases value with
          | error e => cases htext
          | ok value => exact ⟨⟨value, hvalue⟩, (hrest value).mp ⟨text, htext⟩⟩
        · rintro ⟨⟨value, hvalue⟩, hexpands⟩
          obtain ⟨text, htext⟩ := (hrest value).mpr hexpands
          exact ⟨text, by rw [hvalue]; exact htext⟩
      | succ excess =>
        -- the brace that would close the reference closes one that is escaped
        have hunclosed := (hescapes ▸ nests_render body).close.append (nests_render rest)
        obtain ⟨e, he⟩ : ∃ e, expandFrom vars (rounds + 1) out
            (opener ++ (body.render ++ [closeBrace] ++ rest.render)) = some (.error e) :=
          expandFrom_unclosed hunclosed
        rw [List.append_assoc, List.append_cons body.render closeBrace, he]
        exact iff_of_false (not_gives_error e) fun h => absurd h.1 (Nat.succ_ne_zero excess)

/-- **A text is expanded alike as a default** unless there is an escape in it: then it is not expanded
as a default at all. -/
theorem agreesAsDefault_iff (t : DefaultText) (hname : Template.IsName name)
    (hunset : vars[String.ofList name]? = none) :
    t.AgreesAsDefault vars name ↔ t.escapes = 0 ∨ ¬t.Expands vars := by
  have hexpands : Gives (Servicrab.expand vars t.render) ↔ t.Expands vars :=
    exists_expandFrom_iff t (Nat.lt_succ_self _)
  have hname' : Nests name 0 := .plain hname.ne_brace
  have hmodifier : Nests [':', '-'] 0 := .plain (by simp [Servicrab.openBrace, closeBrace])
  cases hescapes : t.escapes with
  | zero =>
    have hbody := (hname'.append (hmodifier.append (hescapes ▸ nests_render t))).balanced
    obtain ⟨result, hresult⟩ : ∃ result, Servicrab.expand vars t.render = some result :=
      exists_expandFrom (Nat.lt_succ_self _)
    have hasDefault : Servicrab.expand vars (t.asDefault name) = some result := by
      obtain ⟨rounds, hrounds⟩ : ∃ rounds, (t.asDefault name).length = rounds + 1 ∧
          t.render.length ≤ rounds := by
        refine ⟨name.length + t.render.length + 4, ?_, by omega⟩
        simp [asDefault, opener]
        omega
      have hdefault : resolve vars (expandFrom vars (rounds + 1) [])
          (name ++ ([':', '-'] ++ t.render)) = some result := by
        refine (resolve_orElse hname true t.render).trans ?_
        simp only [valueOr, hunset]
        exact expandFrom_of_le (Nat.succ_le_succ hrounds.2) hresult
      rw [Servicrab.expand, hrounds.1, asDefault, expandFrom_reference hbody, hdefault]
      cases result with
      | error e => rfl
      | ok value => simp [expandFrom, findOpener]
    exact iff_of_true (fun text => by rw [hasDefault, hresult]) (.inl rfl)
  | succ excess =>
    have hunclosed := (hname'.append (hmodifier.append (hescapes ▸ nests_render t))).close
    obtain ⟨e, he⟩ : ∃ e, expandFrom vars ((t.asDefault name).length + 1) []
        (opener ++ (name ++ ([':', '-'] ++ t.render) ++ [closeBrace])) = some (.error e) :=
      expandFrom_unclosed hunclosed
    have herror : Servicrab.expand vars (t.asDefault name) = some (.error e) := by
      rw [Servicrab.expand, ← he, asDefault, List.append_assoc]
    rw [AgreesAsDefault, or_iff_right (Nat.succ_ne_zero excess), ← hexpands, Gives, not_exists]
    simp [herror]

/-- A reference with a reference in its default, as a default. -/
theorem agreesAsDefault_nested : (DefaultText.reference (.char ⟨'A', by decide⟩ (.char ⟨'-', by decide⟩
    (.reference (.char ⟨'B', by decide⟩ .done) .done))) .done).AgreesAsDefault {("B", "b")}
      "NAME".toList :=
  (agreesAsDefault_iff _ (by decide) (by decide)).mpr (.inl rfl)

/-- An opener that is escaped in a default. -/
theorem not_agreesAsDefault_escape : ¬∀ (vars : Vars) (name : List Char) (t : DefaultText),
    Template.IsName name → vars[String.ofList name]? = none → t.AgreesAsDefault vars name := by
  intro h
  have hself : Servicrab.expand {("A", "a")} (escape done).render = some (.ok opener) := by
    decide +kernel
  have hdefault : Servicrab.expand {("A", "a")} ((escape done).asDefault "NAME".toList) ≠
      some (.ok opener) := by decide +kernel
  exact hdefault ((h _ _ _ (by decide) (by decide) opener).mpr hself)

end DefaultText

end Servicrab
