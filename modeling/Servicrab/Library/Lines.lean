import Mathlib.Data.List.Basic

/-!
# Lines

A sequence is cut after each separator. The complete lines keep their separator, and the remainder
after the last of them has none. Reading goes on where the remainder begins once more has arrived.

## Main definitions

* `Lines.complete`, `Lines.rest`.

## Main results

* `Lines.flatten_complete_append_rest`: nothing is lost.
* `Lines.complete_append`: the remainder is read again with what follows it.
* `Lines.complete_flatten`, `Lines.rest_flatten`: what was read is whole lines.
* `Lines.complete_flatMap`, `Lines.rest_flatMap`: what was written line by line is read so.
-/

namespace Lines

variable {α : Type*} [DecidableEq α] (sep : α)

/-- The lines of a sequence, and the remainder, with a line that was begun before. -/
def scan (buffer : List α) : List α → List (List α) × List α
  | [] => ([], buffer)
  | a :: l =>
    if a = sep then ((buffer ++ [a]) :: (scan [] l).1, (scan [] l).2) else scan (buffer ++ [a]) l

/-- The complete lines, each with its separator. -/
def complete (l : List α) : List (List α) := (scan sep [] l).1

/-- What follows the last separator. -/
def rest (l : List α) : List α := (scan sep [] l).2

variable {sep} {buffer l l' : List α}

@[simp] theorem complete_nil : complete sep ([] : List α) = [] := rfl

@[simp] theorem rest_nil : rest sep ([] : List α) = [] := rfl

theorem scan_append : scan sep buffer (l ++ l') =
    ((scan sep buffer l).1 ++ (scan sep (scan sep buffer l).2 l').1,
      (scan sep (scan sep buffer l).2 l').2) := by
  induction l generalizing buffer with
  | nil => rfl
  | cons a l ih =>
    simp only [List.cons_append, scan]
    split_ifs
    · simp [ih]
    · exact ih

theorem flatten_scan : (scan sep buffer l).1.flatten ++ (scan sep buffer l).2 = buffer ++ l := by
  induction l generalizing buffer with
  | nil => simp [scan]
  | cons a l ih =>
    simp only [scan]
    split_ifs
    · have hrest : (scan sep [] l).1.flatten ++ (scan sep [] l).2 = [] ++ l := ih
      simp only [List.flatten_cons, List.append_assoc]
      rw [hrest]
      simp
    · rw [ih]
      simp

theorem scan_of_notMem (h : sep ∉ l) : scan sep buffer l = ([], buffer ++ l) := by
  induction l generalizing buffer with
  | nil => simp [scan]
  | cons a l ih =>
    obtain ⟨hne, hmem⟩ := not_or.mp (mt List.mem_cons.mpr h)
    simp only [scan, if_neg (Ne.symm hne), ih hmem]
    simp

/-- The lines that were read are read again, and nothing is left of them. -/
theorem scan_flatten (h : sep ∉ buffer) :
    scan sep [] (scan sep buffer l).1.flatten = ((scan sep buffer l).1, []) := by
  induction l generalizing buffer with
  | nil => rfl
  | cons a l ih =>
    simp only [scan]
    split_ifs with ha
    · subst ha
      have hrest : scan a [] (scan a [] l).1.flatten = ((scan a [] l).1, []) :=
        ih List.not_mem_nil
      simp only [List.flatten_cons, List.append_assoc]
      rw [scan_append, scan_of_notMem h]
      simp [scan, hrest]
    · exact ih (by simpa [h] using Ne.symm ha)

/-- Nothing is lost. -/
theorem flatten_complete_append_rest (l : List α) :
    (complete sep l).flatten ++ rest sep l = l := flatten_scan

/-- What is left behind the complete lines is the remainder. -/
theorem drop_length_complete (l : List α) :
    l.drop (complete sep l).flatten.length = rest sep l := by
  have hdrop : ((complete sep l).flatten ++ rest sep l).drop (complete sep l).flatten.length =
      rest sep l := List.drop_left
  rwa [flatten_complete_append_rest] at hdrop

/-- What follows whole lines is read on its own. -/
theorem complete_append (h : rest sep l = []) :
    complete sep (l ++ l') = complete sep l ++ complete sep l' := by
  have hrest : (scan sep [] l).2 = [] := h
  simp [complete, scan_append, hrest]

theorem rest_append (h : rest sep l = []) : rest sep (l ++ l') = rest sep l' := by
  have hrest : (scan sep [] l).2 = [] := h
  simp [rest, scan_append, hrest]

theorem complete_flatten (l : List α) :
    complete sep (complete sep l).flatten = complete sep l := by
  show (scan sep [] (scan sep [] l).1.flatten).1 = (scan sep [] l).1
  rw [scan_flatten List.not_mem_nil]

theorem rest_flatten (l : List α) : rest sep (complete sep l).flatten = [] := by
  show (scan sep [] (scan sep [] l).1.flatten).2 = []
  rw [scan_flatten List.not_mem_nil]

/-- The remainder has no complete line. -/
theorem complete_rest (l : List α) : complete sep (rest sep l) = [] := by
  have heq : complete sep ((complete sep l).flatten ++ rest sep l) = _ :=
    complete_append (rest_flatten l)
  rw [flatten_complete_append_rest, complete_flatten] at heq
  exact List.self_eq_append_right.mp heq

/-- No line, and no remainder, has a separator inside. -/
theorem sep_notMem_scan (h : sep ∉ buffer) :
    (∀ line ∈ (scan sep buffer l).1, ∃ text, line = text ++ [sep] ∧ sep ∉ text) ∧
      sep ∉ (scan sep buffer l).2 := by
  induction l generalizing buffer with
  | nil => exact ⟨by simp [scan], h⟩
  | cons a l ih =>
    simp only [scan]
    split_ifs with ha
    · subst ha
      obtain ⟨hlines, hrest⟩ := ih List.not_mem_nil
      refine ⟨fun line hline => ?_, hrest⟩
      rcases List.mem_cons.mp hline with rfl | hline
      · exact ⟨buffer, rfl, h⟩
      · exact hlines line hline
    · exact ih (by simpa [h] using Ne.symm ha)

/-- A line ends in the separator and has none before it. -/
theorem exists_of_mem_complete {line : List α} (h : line ∈ complete sep l) :
    ∃ text, line = text ++ [sep] ∧ sep ∉ text :=
  (sep_notMem_scan List.not_mem_nil).1 line h

theorem sep_notMem_rest : sep ∉ rest sep l := (sep_notMem_scan List.not_mem_nil).2

theorem scan_line (h : sep ∉ l) : scan sep [] (l ++ [sep]) = ([l ++ [sep]], []) := by
  rw [scan_append, scan_of_notMem h]
  simp [scan]

theorem complete_line (h : sep ∉ l) : complete sep (l ++ [sep]) = [l ++ [sep]] := by
  rw [complete, scan_line h]

theorem rest_line (h : sep ∉ l) : rest sep (l ++ [sep]) = [] := by
  rw [rest, scan_line h]

/-- Lines that were written one after another are read one after another. -/
theorem rest_flatMap {ls : List (List α)} (h : ∀ l ∈ ls, sep ∉ l) :
    rest sep (ls.flatMap (· ++ [sep])) = [] := by
  induction ls with
  | nil => rfl
  | cons l ls ih =>
    rw [List.flatMap_cons, rest_append (rest_line (h l List.mem_cons_self))]
    exact ih fun l' hl' => h l' (List.mem_cons_of_mem l hl')

theorem complete_flatMap {ls : List (List α)} (h : ∀ l ∈ ls, sep ∉ l) :
    complete sep (ls.flatMap (· ++ [sep])) = ls.map (· ++ [sep]) := by
  induction ls with
  | nil => rfl
  | cons l ls ih =>
    have hl := h l List.mem_cons_self
    rw [List.flatMap_cons, complete_append (rest_line hl), complete_line hl,
      ih fun l' hl' => h l' (List.mem_cons_of_mem l hl')]
    rfl

end Lines
