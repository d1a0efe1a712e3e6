import Servicrab.Tasks.FileWatch

/-!
# The changes that a watcher reports

What `Scan::changes` lists, and what comes of it while `watch_service` waits for the files to settle.
It puts together the changes from each scan to the next. A change may be undone again on the way, so
that the list can have more than the last scan differs by from the baseline; it never has less,
since two scans are the same at all paths that no step between them has changed.

## Main results

* `Watcher.sameOff_of_settle`: the changes that are put together cover the last scan.
* `Watcher.lists_and_covers`.
-/

namespace Servicrab

variable {π : Type} [LinearOrder π]

namespace Watcher

variable {env : Surroundings π} {w : Watcher π} {baseline current : Scan π}
  {changed accumulated : List π} {rounds scanned made : ℕ}

/-- What is put together while the files settle covers all by which the last scan differs from the
baseline. -/
theorem sameOff_of_settle (h : baseline.SameOff changed current)
    (hcurrent : env.scans made = some current)
    (hsettle : settle env rounds current changed (made + 1) = some (accumulated, scanned)) :
    ∃ last taken, made ≤ taken ∧ scanned = taken + 1 ∧ env.scans taken = some last ∧
      baseline.SameOff accumulated last := by
  induction rounds generalizing current changed made with
  | zero =>
    obtain ⟨rfl, rfl⟩ := Prod.mk.inj (Option.some.inj hsettle)
    exact ⟨current, made, le_rfl, rfl, hcurrent, h⟩
  | succ rounds ih =>
    rw [settle] at hsettle
    cases hsettled : env.scans (made + 1) with
    | none =>
      rw [hsettled] at hsettle
      cases hsettle
    | some settled =>
      rw [hsettled] at hsettle
      dsimp only at hsettle
      have hstep := h.trans (current.sameOff_changes settled)
      split_ifs at hsettle with hquiet
      · -- the files are as they were, so nothing is added
        obtain ⟨rfl, rfl⟩ := Prod.mk.inj (Option.some.inj hsettle)
        rw [hquiet, List.append_nil] at hstep
        exact ⟨settled, made + 1, made.le_succ, rfl, hsettled, hstep⟩
      · obtain ⟨last, taken, hle, hrest⟩ := ih hstep hsettled hsettle
        exact ⟨last, taken, made.le_succ.trans hle, hrest⟩

/-- **Changes are listed exactly, and none is lost** while the files settle: the list of the changes
between two scans is sorted and free of duplicates, and has the paths at which they differ; and what
is put together during the debounce, for however many rounds, has all paths at which the last scan
that was made differs from the baseline. -/
theorem lists_and_covers : (∀ a b : Scan π, a.ListsChanges b (a.changes b)) ∧
    ∀ (env : Surroundings π) (w : Watcher π) (rounds : ℕ) (current : Scan π)
      (accumulated : List π) (scanned : ℕ), env.scans w.scanned = some current →
      settle env rounds current (w.previous.changes current) (w.scanned + 1) =
        some (accumulated, scanned) →
      ∃ last taken, w.scanned ≤ taken ∧ scanned = taken + 1 ∧ env.scans taken = some last ∧
        ∀ path, w.previous.DiffersAt last path → path ∈ accumulated := by
  refine ⟨Scan.listsChanges_changes, ?_⟩
  intro env w rounds current accumulated scanned hscan hsettle
  obtain ⟨last, taken, hle, htaken, hlast, hsame⟩ :=
    sameOff_of_settle (w.previous.sameOff_changes current) hscan hsettle
  exact ⟨last, taken, hle, htaken, hlast, fun _ hpath => hsame.mem_of_differsAt hpath⟩

/-- A file is saved, and the files settle: it is among the changes that are put together. -/
theorem lists_and_covers_savedOnce : ∃ accumulated,
    settle Surroundings.savedOnce maxDebounceRounds Surroundings.saved
        (Scan.changes { Surroundings.saved with files := ∅ } Surroundings.saved) 2 =
      some (accumulated, 3) ∧ "/srv/main.rs" ∈ accumulated := by
  have hsettle : ∀ changed, settle Surroundings.savedOnce maxDebounceRounds Surroundings.saved
      changed 2 = some (changed, 3) := fun _ => if_pos (Scan.changes_eq_nil_iff.mpr rfl)
  obtain ⟨last, taken, -, htaken, hlast, hcovers⟩ := lists_and_covers.2 Surroundings.savedOnce
    ⟨{ Surroundings.saved with files := ∅ }, 1, 0⟩ maxDebounceRounds Surroundings.saved _ 3 rfl
    (hsettle _)
  obtain rfl : 2 = taken := Nat.succ.inj htaken
  obtain rfl : Surroundings.saved = last := Option.some.inj hlast
  refine ⟨_, hsettle _, hcovers "/srv/main.rs" (.inr (.inl ⟨?_, ?_⟩))⟩
  · simp
  · simp [Surroundings.saved]

end Watcher

end Servicrab
