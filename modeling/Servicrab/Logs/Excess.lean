import Mathlib.Data.Set.Card
import Mathlib.Order.Interval.Finset.Nat
import Servicrab.Logs.Retention

/-!
# The generations that rotation cannot name

`rotate` deletes and renames the files up to `<path>.<max_files>`, and no others (`logs.rs`). So what
an earlier run with a larger `max_files` has left above that stays there for good, and the history is
bounded by `max_files` if and only if it was when the writer was opened.

## Main definitions

* `LogFolder.HistoryBounded`: there are no more rotated files than `max_files`.

## Main results

* `LogFolder.rotated_above_run`: no run touches a file above `max_files`.
* `LogFolder.history_bounded_iff`.
-/

namespace Servicrab

/-- A step of the writer leaves its settings as they are. -/
theorem LogDisk.maxFiles_write {d d' : LogDisk} {action : WriteAction} (h : d.write action = some d') :
    d'.writer.maxFiles = d.writer.maxFiles := by
  cases action with
  | open' | flush | flushed | close =>
    obtain ⟨-, hsome⟩ := Option.ite_none_right_eq_some.mp h
    exact Option.some.inj hsome ▸ rfl
  | writeLine line =>
    obtain ⟨-, hsome⟩ := Option.ite_none_right_eq_some.mp h
    split_ifs at hsome
    · exact Option.some.inj hsome ▸ rfl
    · obtain rfl := Option.some.inj hsome
      exact LogDisk.maxFiles_append d.writer line
  | spill count =>
    simp only [write] at h
    split at h
    · exact Option.some.inj h ▸ rfl
    · cases h
  | rename =>
    simp only [write] at h
    split at h
    · split_ifs at h
      · obtain rfl := Option.some.inj h
        exact LogDisk.maxFiles_append _ _
      · exact Option.some.inj h ▸ rfl
    · cases h
  | create =>
    simp only [write] at h
    split at h
    · obtain rfl := Option.some.inj h
      exact LogDisk.maxFiles_append _ _
    · cases h

/-- Rotation touches no file above `max_files`. -/
theorem shiftRotated_above {rotated : ℕ → Option (List UInt8)} {maxFiles n : ℕ}
    {current : Option (List UInt8)} (hpos : 0 < maxFiles) (hn : maxFiles < n) :
    shiftRotated rotated maxFiles current n = rotated n := by
  have hfree : Function.update rotated maxFiles none (maxFiles - 1 + 1) = none := by
    rw [Nat.sub_add_cancel hpos]
    simp
  have habove : n = 0 ∨ maxFiles - 1 + 1 < n := by omega
  rw [shiftRotated, Function.update_of_ne (by omega), renameAll_apply hfree, if_pos habove,
    Function.update_of_ne (by omega)]

namespace LogFolder

/-- There is no rotated file above `max_files`, and so there are no more of them than that. -/
structure HistoryBounded (f : LogFolder) : Prop where
  above : ∀ n, f.disk.writer.maxFiles < n → f.rotated n = none
  count : {n | 0 < n ∧ (f.rotated n).isSome}.encard ≤ f.disk.writer.maxFiles

variable {f f' : LogFolder}

theorem HistoryBounded.of_above (h : ∀ n, f.disk.writer.maxFiles < n → f.rotated n = none) :
    f.HistoryBounded := by
  refine ⟨h, ?_⟩
  have hsub : {n | 0 < n ∧ (f.rotated n).isSome} ⊆
      (Finset.Icc 1 f.disk.writer.maxFiles : Set ℕ) := by
    rintro n ⟨hpos, hsome⟩
    rw [Finset.mem_coe, Finset.mem_Icc]
    refine ⟨hpos, not_lt.mp fun hlt => ?_⟩
    rw [h n hlt] at hsome
    cases hsome
  calc {n | 0 < n ∧ (f.rotated n).isSome}.encard
    _ ≤ (Finset.Icc 1 f.disk.writer.maxFiles : Set ℕ).encard := Set.encard_le_encard hsub
    _ = f.disk.writer.maxFiles := by rw [Set.encard_coe_eq_coe_finsetCard, Nat.card_Icc,
      Nat.add_sub_cancel]

/-- A step leaves the files above `max_files` as they are. -/
theorem rotated_above_step {action : WriteAction} (h : f.step action = some f') :
    f'.disk.writer.maxFiles = f.disk.writer.maxFiles ∧
      ∀ n, f.disk.writer.maxFiles < n → f'.rotated n = f.rotated n := by
  obtain ⟨disk, hdisk, rfl⟩ := Option.map_eq_some_iff.mp h
  refine ⟨LogDisk.maxFiles_write hdisk, fun n hn => ?_⟩
  dsimp only
  split_ifs with hrotates
  · exact shiftRotated_above (Nat.pos_of_ne_zero hrotates.2) hn
  · rfl

/-- **No run touches a file above `max_files`.** -/
theorem rotated_above_run {actions : List WriteAction} (h : logFolder.run f actions = some f') :
    f'.disk.writer.maxFiles = f.disk.writer.maxFiles ∧
      ∀ n, f.disk.writer.maxFiles < n → f'.rotated n = f.rotated n := by
  induction actions generalizing f with
  | nil =>
    obtain rfl : f = f' := Option.some.inj h
    exact ⟨rfl, fun _ _ => rfl⟩
  | cons action actions ih =>
    obtain ⟨f₁, hstep, hrest⟩ := Option.bind_eq_some_iff.mp h
    obtain ⟨hmaxFiles, habove⟩ := rotated_above_step hstep
    obtain ⟨hmaxFiles', habove'⟩ := ih hrest
    refine ⟨hmaxFiles'.trans hmaxFiles, fun n hn => ?_⟩
    rw [habove' n (hmaxFiles ▸ hn), habove n hn]

/-- **How long the history is.** Whatever the folder holds when the writer is opened, there are never
more rotated files than `max_files`, after a rotation or before one, if there was none above
`max_files` then; and there always are such files if there was one. -/
theorem history_bounded_iff (maxSize maxFiles : ℕ) (rotated : ℕ → Option (List UInt8))
    (current : Option (List UInt8)) {actions : List WriteAction} {f : LogFolder}
    (h : logFolder.run (initial maxSize maxFiles rotated current) actions = some f) :
    f.HistoryBounded ↔ ∀ n, maxFiles < n → rotated n = none := by
  obtain ⟨hmaxFiles, habove⟩ := rotated_above_run h
  constructor
  · intro hbounded n hn
    exact (habove n hn).symm.trans (hbounded.above n (hmaxFiles ▸ hn))
  · intro hnone
    refine .of_above fun n hn => ?_
    rw [hmaxFiles] at hn
    exact (habove n hn).trans (hnone n hn)

/-- Two rotations with one rotated file. -/
def exampleRotations : List WriteAction :=
  [.open', .writeLine [97, 98, 99], .writeLine [100], .spill 4, .rename, .create,
    .writeLine [101, 102], .spill 2, .rename, .create]

/-- In a folder without rotated files the history stays bounded. -/
theorem history_bounded_fresh : ∃ f,
    logFolder.run (initial 4 1 (fun _ => none) none) exampleRotations = some f ∧
      .rename ∈ exampleRotations ∧ f.HistoryBounded := by
  obtain ⟨f, hrun, -⟩ : ∃ f,
      logFolder.run (initial 4 1 (fun _ => none) none) exampleRotations = some f ∧
        f.rotated 1 = some [100, 10] := Option.map_eq_some_iff.mp (by decide)
  exact ⟨f, hrun, by decide, (history_bounded_iff 4 1 _ none hrun).mpr fun _ _ => rfl⟩

/-- A second rotated file, left from a run that kept two, is still there after two rotations that
keep one. -/
theorem history_unbounded_leftover : ∃ f,
    logFolder.run (initial 4 1 (fun n => if n = 2 then some [120, 10] else none) none)
      exampleRotations = some f ∧
      .rename ∈ exampleRotations ∧ f.rotated 2 = some [120, 10] ∧ ¬ f.HistoryBounded := by
  obtain ⟨f, hrun, htwo⟩ : ∃ f,
      logFolder.run (initial 4 1 (fun n => if n = 2 then some [120, 10] else none) none)
        exampleRotations = some f ∧ f.rotated 2 = some [120, 10] :=
    Option.map_eq_some_iff.mp (by decide)
  refine ⟨f, hrun, by decide, htwo, fun hbounded => ?_⟩
  have hmaxFiles : f.disk.writer.maxFiles = 1 := (rotated_above_run hrun).1
  rw [hbounded.above 2 (by rw [hmaxFiles]; decide)] at htwo
  cases htwo

end LogFolder

end Servicrab
