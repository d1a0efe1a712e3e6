import Mathlib.Data.List.Basic
import Mathlib.Tactic.SplitIfs

/-!
# Reading up to a delimiter

A buffered reader over a source that brings its content in pieces, none of which is empty, and then
ends. Reading up to a delimiter, under a cap on the length, takes what the buffer has and asks the
source for more until the delimiter, the cap or the end is reached.

## Main definitions

* `CappedReader.Reader`, `CappedReader.readUntil`, `CappedReader.upTo`.

## Main results

* `CappedReader.readUntil_eq`: what is read depends on the content only, and not on its pieces.
-/

namespace CappedReader

variable {α : Type*}

/-- A buffer, and what the source will bring. -/
structure Reader (α : Type*) where
  buffered : List α
  pending : List { piece : List α // piece ≠ [] }

namespace Reader

/-- All that is still to be read. -/
def content (r : Reader α) : List α := r.buffered ++ (r.pending.map (·.1)).flatten

/-- Ask the source when the buffer is empty. -/
def fill (r : Reader α) : Reader α :=
  match r.buffered, r.pending with
  | [], piece :: pending => ⟨piece.1, pending⟩
  | _, _ => r

/-- Take the first elements out of the buffer. -/
def consume (n : ℕ) (r : Reader α) : Reader α := { r with buffered := r.buffered.drop n }

@[simp] theorem content_fill (r : Reader α) : r.fill.content = r.content := by
  rcases r with ⟨_ | ⟨a, buffered⟩, _ | ⟨piece, pending⟩⟩ <;> rfl

theorem content_consume {n : ℕ} {r : Reader α} (h : n ≤ r.buffered.length) :
    (r.consume n).content = r.content.drop n := by
  rw [content, content, consume, List.drop_append_of_le_length h]

/-- Only at the end of the source the buffer stays empty. -/
theorem buffered_fill_eq_nil {r : Reader α} (h : r.fill.buffered = []) : r.content = [] := by
  rcases r with ⟨_ | ⟨a, buffered⟩, _ | ⟨piece, pending⟩⟩
  · rfl
  · exact absurd h piece.2
  · cases h
  · cases h

end Reader

variable [DecidableEq α] (delim : α)

/-- What comes up to the first delimiter, with the delimiter, or else everything. -/
def upTo : List α → List α
  | [] => []
  | a :: l => if a = delim then [a] else a :: upTo l

/-- Read up to the delimiter, the cap or the end, in no more rounds than are granted. -/
def readUntil : ℕ → ℕ → List α → Reader α → List α × Reader α
  | 0, _, line, r => (line, r)
  | rounds + 1, cap, line, r =>
    -- The source is not asked when nothing more may be read.
    let r := if cap = 0 then r else r.fill
    let available := r.buffered.take cap
    match available.idxOf? delim with
    | some i => (line ++ available.take (i + 1), r.consume (i + 1))
    | none =>
      if available.length = 0 then (line ++ available, r.consume available.length)
      else readUntil rounds (cap - available.length) (line ++ available)
        (r.consume available.length)

variable {delim} {l l' : List α} {r : Reader α} {cap rounds : ℕ}

theorem upTo_of_notMem (h : delim ∉ l) : upTo delim (l ++ l') = l ++ upTo delim l' := by
  induction l with
  | nil => rfl
  | cons a l ih =>
    obtain ⟨hne, hmem⟩ := not_or.mp (mt List.mem_cons.mpr h)
    rw [List.cons_append, upTo, if_neg (Ne.symm hne), ih hmem]
    rfl

theorem upTo_append_cons (h : delim ∉ l) : upTo delim (l ++ delim :: l') = l ++ [delim] := by
  rw [upTo_of_notMem h, upTo, if_pos rfl]

omit [DecidableEq α] in
/-- What the buffer offers under a cap, and what comes behind it. -/
theorem exists_content (r : Reader α) (cap : ℕ) :
    ∃ more, r.content = r.buffered.take cap ++ more ∧
      r.content.take cap =
        r.buffered.take cap ++ more.take (cap - (r.buffered.take cap).length) := by
  have hcontent : r.content =
      r.buffered.take cap ++ (r.buffered.drop cap ++ (r.pending.map (·.1)).flatten) := by
    rw [← List.append_assoc, List.take_append_drop, Reader.content]
  refine ⟨_, hcontent, ?_⟩
  rw [hcontent, List.take_append, List.take_of_length_le (List.length_take_le _ _)]

/-- The delimiter at an offset ends what is read. -/
theorem upTo_of_idxOf? {i : ℕ} (h : l.idxOf? delim = some i) :
    upTo delim (l ++ l') = l.take (i + 1) ∧ (l.take (i + 1)).length = i + 1 := by
  induction l generalizing i with
  | nil => cases h
  | cons a l ih =>
    simp only [List.idxOf?_cons, beq_iff_eq] at h
    rw [List.cons_append, upTo]
    split_ifs at h ⊢ with ha
    · obtain rfl := Option.some.inj h
      exact ⟨rfl, rfl⟩
    · obtain ⟨j, hj, rfl⟩ := Option.map_eq_some_iff.mp h
      obtain ⟨hupTo, hlength⟩ := ih hj
      rw [hupTo, List.take_succ_cons, List.length_cons, hlength]
      exact ⟨rfl, rfl⟩

/-- **What is read depends on the content only.** It goes up to the delimiter or the cap, and the
rest stays to be read. -/
theorem readUntil_eq : ∀ {rounds cap : ℕ} {line : List α} {r : Reader α}, cap < rounds →
    (readUntil delim rounds cap line r).1 = line ++ upTo delim (r.content.take cap) ∧
      (readUntil delim rounds cap line r).2.content =
        r.content.drop (upTo delim (r.content.take cap)).length := by
  intro rounds
  induction rounds with
  | zero => exact fun h => absurd h (Nat.not_lt_zero _)
  | succ rounds ih =>
    intro cap line r hlt
    obtain ⟨r', hr', hcontent⟩ : ∃ r', r' = (if cap = 0 then r else r.fill) ∧
        r'.content = r.content := by
      refine ⟨_, rfl, ?_⟩
      split_ifs
      · rfl
      · exact r.content_fill
    obtain ⟨more, hmore, htake⟩ := exists_content r' cap
    have hlength : (r'.buffered.take cap).length ≤ r'.buffered.length := List.length_take_le' _ _
    have hcap : (r'.buffered.take cap).length ≤ cap := List.length_take_le _ _
    rw [readUntil, ← hr', ← hcontent, htake]
    rcases hidx : (r'.buffered.take cap).idxOf? delim with _ | i
    · have hmem : delim ∉ r'.buffered.take cap := List.idxOf?_eq_none_iff.mp hidx
      simp only [upTo_of_notMem hmem]
      split_ifs with hzero
      · have hmore' : more.take (cap - (r'.buffered.take cap).length) = [] := by
          rcases eq_or_ne cap 0 with rfl | hne
          · simp
          · -- The buffer stayed empty, so nothing is left to come.
            rw [if_neg hne] at hr'
            have hempty : r'.buffered = [] := by
              rw [List.length_take, Nat.min_eq_zero_iff] at hzero
              exact List.eq_nil_of_length_eq_zero (hzero.resolve_left hne)
            have hnil := Reader.buffered_fill_eq_nil (hr' ▸ hempty)
            rw [← hcontent, hmore] at hnil
            rw [(List.append_eq_nil_iff.mp hnil).2, List.take_nil]
        rw [hmore', upTo, List.append_nil, hzero]
        exact ⟨rfl, Reader.content_consume (Nat.zero_le _)⟩
      · have hrest := Reader.content_consume hlength
        rw [hmore, List.drop_left] at hrest
        obtain ⟨hline, hreader⟩ := @ih (cap - (r'.buffered.take cap).length)
          (line ++ r'.buffered.take cap) (r'.consume (r'.buffered.take cap).length) (by omega)
        rw [hline, hreader, hrest, hmore, List.append_assoc, List.length_append,
          ← List.drop_drop, List.drop_left]
        exact ⟨rfl, rfl⟩
    · obtain ⟨hupTo, hlen⟩ : upTo delim
          (r'.buffered.take cap ++ more.take (cap - (r'.buffered.take cap).length)) =
          (r'.buffered.take cap).take (i + 1) ∧ ((r'.buffered.take cap).take (i + 1)).length = i + 1 :=
        upTo_of_idxOf? hidx
      rw [hupTo, hlen]
      exact ⟨rfl, Reader.content_consume (by
        rw [List.length_take] at hlen
        omega)⟩

end CappedReader
