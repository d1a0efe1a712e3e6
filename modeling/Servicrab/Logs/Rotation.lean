import Servicrab.Library.TransitionSystem
import Servicrab.Logs.Files

/-!
# Rotations that fail

A rotation that is broken off leaves what it has done up to there, and the next line starts it over
(`logs.rs`). Where the rename of `<path>.<k>` fails, the files above `k` have moved up by one by then
and left a gap, so that each retry moves them again, and in the end removes them one after the other.
Nothing is lost where no retry moves anything: when the flush or the removal fails, when no file is
above the one that cannot be renamed, and when the fresh file cannot be opened, as the rotation gets
that far only once.

## Main definitions

* `slots`: the files of a log, by their number.
* `raised`: what is left behind when the files above one have moved up.
* `retries`: the writes whose rotation fails at one operation.
* `KeepsHistory`, `ShiftsOff`.

## Main results

* `FileWriter.brokenOff_rotate`: what a rotation that fails leaves behind.
* `FileWriter.keeps_history_iff`.
-/

namespace Servicrab

/-- The files of a log by their number, which is `0` for the current one. -/
def slots (path : String) (d : LogDir) (n : ℕ) : Option (FileId String) :=
  d.entries (logPath path n)

/-- Everything above `k` and below `m` has moved up by one. -/
def raised {α : Type} (k m : ℕ) (slots : ℕ → Option α) (i : ℕ) : Option α :=
  if k < i ∧ i ≤ m then if i = k + 1 then none else slots (i - 1) else slots i

section Slots

variable {path : String} {d d' : LogDir}

theorem slots_congr (h : d'.entries = d.entries) : slots path d' = slots path d := by
  funext n
  rw [slots, slots, h]

theorem slots_remove (n : ℕ) :
    slots path (d.remove (logPath path n)) = Function.update (slots path d) n none := by
  funext i
  simp only [slots, FileStore.remove, Function.update_apply, (logPath_injective path).eq_iff]

theorem slots_rename (m n : ℕ) : slots path (d.rename (logPath path m) (logPath path n)) =
    Function.update (Function.update (slots path d) n (slots path d m)) m none := by
  funext i
  simp only [slots, FileStore.rename, Function.update_apply, (logPath_injective path).eq_iff]

end Slots

section Raised

variable {α : Type} {slots : ℕ → Option α} {k m : ℕ}

theorem raised_of_le {i : ℕ} (h : i ≤ k) : raised k m slots i = slots i := if_neg (by omega)

theorem raised_succ {i : ℕ} (hk : k < i) (hi : i < m) : raised k m slots (i + 1) = slots i := by
  rw [raised, if_pos (by omega), if_neg (by omega), Nat.add_sub_cancel]

/-- Nothing moves above the highest file. -/
theorem raised_self (hfree : slots (k + 1) = none) : raised k (k + 1) slots = slots := by
  funext i
  rw [raised]
  split_ifs with habove hnext
  · rw [hnext, hfree]
  · omega
  · rfl

/-- The highest file is moved first. -/
theorem raised_update (hk : k ≤ m) :
    raised k (m + 1) (Function.update (Function.update slots (m + 2) (slots (m + 1))) (m + 1) none) =
      raised k (m + 2) slots := by
  funext i
  simp only [raised, Function.update_apply]
  grind

/-- What falls off the end does not matter. -/
theorem raised_update_none (hk : k < m) :
    raised k m (Function.update slots m none) = raised k m slots := by
  funext i
  simp only [raised, Function.update_apply]
  grind

end Raised

theorem LogAttempt.andThen_of_ok {attempt : LogAttempt} (h : attempt.1 = .ok ())
    (next : FileWriter → LogDir → LogAttempt) :
    attempt.andThen next = next attempt.2.1 attempt.2.2 := by
  obtain ⟨result, w, d⟩ := attempt
  cases h
  rfl

/-- A call either fails at once, or goes on. -/
theorem LogAttempt.andThen_cases {attempt : LogAttempt} {next : FileWriter → LogDir → LogAttempt}
    {op : LogOp} (h : (attempt.andThen next).1 = .error op) :
    (attempt.1 = .error op ∧ attempt.andThen next = attempt) ∨
      attempt.1 = .ok () ∧ (next attempt.2.1 attempt.2.2).1 = .error op ∧
        attempt.andThen next = next attempt.2.1 attempt.2.2 := by
  obtain ⟨result, w, d⟩ := attempt
  cases result with
  | error op' => exact .inl ⟨h, rfl⟩
  | ok => exact .inr ⟨rfl, h, rfl⟩

namespace FileWriter

/-- A writer for the same log, whose current file has as much in it. -/
structure SameLog (w w' : FileWriter) : Prop where
  path : w'.path = w.path
  maxFiles : w'.maxFiles = w.maxFiles
  maxSize : w'.maxSize = w.maxSize
  size : w'.size = w.size

/-- What a rotation that fails at an operation leaves behind. -/
def BrokenOff (m : ℕ) (before : ℕ → Option (FileId String)) :
    LogOp → (ℕ → Option (FileId String)) → Prop
  | .flush, after | .remove, after => after = before
  | .rename k, after => k < m ∧ (k = 0 ∨ (before k).isSome) ∧ after = raised k m before
  | .reopen, after => (before 0).isSome ∧ after 0 = none ∧ ∀ i < m, after (i + 1) = before i
  | _, _ => False

variable {io : Io} {w : FileWriter} {d : LogDir}

theorem flush_cases (io : Io) (w : FileWriter) (d : LogDir) :
    SameLog w (w.flush io d).2.1 ∧ slots w.path (w.flush io d).2.2 = slots w.path d ∧
      (w.flush io d).1 = if io.fails .flush then .error .flush else .ok () := by
  rw [flush]
  split_ifs
  · exact ⟨⟨rfl, rfl, rfl, rfl⟩, slots_congr rfl, rfl⟩
  · exact ⟨⟨rfl, rfl, rfl, rfl⟩, slots_congr rfl, rfl⟩

/-- The oldest file is gone unless its removal fails. -/
theorem removeOldest_cases (io : Io) (w : FileWriter) (d : LogDir) (hpos : 0 < w.maxFiles) :
    (w.removeOldest io d = (.error .remove, w, d) ∧ io.fails .remove) ∨
      ∃ d', w.removeOldest io d = (.ok (), w, d') ∧
        slots w.path d' = Function.update (slots w.path d) w.maxFiles none := by
  have hpath : rotatedPath w.path w.maxFiles = logPath w.path w.maxFiles :=
    (if_neg (Nat.pos_iff_ne_zero.mp hpos)).symm
  rw [removeOldest, hpath]
  split_ifs with hsome hfails
  · exact .inl ⟨rfl, hfails⟩
  · exact .inr ⟨_, rfl, slots_remove _⟩
  · refine .inr ⟨d, rfl, ?_⟩
    rw [Function.eq_update_iff]
    exact ⟨Option.not_isSome_iff_eq_none.mp hsome, fun _ _ => rfl⟩

/-- What the loop comes to when it starts at a number: all files above one have moved, which is `0`
unless a rename fails. -/
inductive Moved (io : Io) (w : FileWriter) (n : ℕ) (before : ℕ → Option (FileId String)) :
    LogAttempt → Prop
  | all (d' : LogDir) (hslots : slots w.path d' = raised 0 (n + 1) before)
      (hrenamed : ∀ j, 0 < j → j ≤ n → (before j).isSome → ¬ io.fails (.rename j)) :
      Moved io w n before (.ok (), w, d')
  | above (k : ℕ) (d' : LogDir) (hslots : slots w.path d' = raised k (n + 1) before)
      (hrenamed : ∀ j, k < j → j ≤ n → (before j).isSome → ¬ io.fails (.rename j))
      (hpos : 0 < k) (hle : k ≤ n) (hsome : (before k).isSome) (hfails : io.fails (.rename k)) :
      Moved io w n before (.error (.rename k), w, d')

theorem moved_moveRotated (io : Io) (w : FileWriter) (n : ℕ) : ∀ d : LogDir,
    slots w.path d (n + 1) = none → Moved io w n (slots w.path d) (w.moveRotated io n d) := by
  induction n with
  | zero => exact fun d hfree => .all d (raised_self hfree).symm (by omega)
  | succ n ih =>
    intro d hfree
    -- Once the highest file has moved, or if there is none, the loop goes on below it.
    have hrest : ∀ d₁ : LogDir, ((slots w.path d (n + 1)).isSome → ¬ io.fails (.rename (n + 1))) →
        slots w.path d₁ = Function.update
          (Function.update (slots w.path d) (n + 2) (slots w.path d (n + 1))) (n + 1) none →
        Moved io w (n + 1) (slots w.path d) (w.moveRotated io n d₁) := by
      intro d₁ htop hslots
      have hbelow : ∀ k ≤ n, slots w.path d₁ k = slots w.path d k := by
        intro k hk
        rw [hslots, Function.update_of_ne (by omega), Function.update_of_ne (by omega)]
      have hrenamed : ∀ k, (∀ j, k < j → j ≤ n → (slots w.path d₁ j).isSome →
          ¬ io.fails (.rename j)) → ∀ j, k < j → j ≤ n + 1 → (slots w.path d j).isSome →
          ¬ io.fails (.rename j) := by
        intro k hall j hj hle hsome
        rcases Nat.le_succ_iff.mp hle with hle | rfl
        · exact hall j hj hle (hbelow j hle ▸ hsome)
        · exact htop hsome
      have hmoved := ih d₁ (by rw [hslots, Function.update_self])
      generalize w.moveRotated io n d₁ = attempt at hmoved ⊢
      cases hmoved with
      | all d' hd' hall =>
        exact .all d' (by rw [hd', hslots, raised_update n.zero_le]) (hrenamed 0 hall)
      | above k d' hd' hall hpos hk hsome hfails =>
        exact .above k d' (by rw [hd', hslots, raised_update hk]) (hrenamed k hall) hpos
          (hk.trans n.le_succ) (hbelow k hk ▸ hsome) hfails
    rw [moveRotated]
    split_ifs with hsome hfails
    · exact .above (n + 1) d (raised_self hfree).symm (by omega) n.succ_pos le_rfl hsome hfails
    · exact hrest _ (fun _ => hfails) (slots_rename (n + 1) (n + 2))
    · have hnone : slots w.path d (n + 1) = none := Option.not_isSome_iff_eq_none.mp hsome
      have hsame : Function.update (slots w.path d) (n + 2) none = slots w.path d :=
        Function.update_eq_self_iff.mpr hfree.symm
      refine hrest d (fun hsome' => absurd hsome' hsome) ?_
      rw [hnone, hsame]
      exact (Function.update_eq_self_iff.mpr hnone.symm).symm

/-- Where the current file goes. -/
theorem moveCurrent_cases (io : Io) (w : FileWriter) (d : LogDir) :
    w.moveCurrent io d = (.error (.rename 0), w, d) ∨
      ¬ io.fails (.rename 0) ∧ (slots w.path d 0).isSome ∧
        ∃ d', w.moveCurrent io d = (.ok (), w, d') ∧ slots w.path d' =
          Function.update (Function.update (slots w.path d) 1 (slots w.path d 0)) 0 none := by
  rw [moveCurrent]
  split_ifs with h
  · exact .inl rfl
  · rw [not_or, Option.isNone_iff_eq_none] at h
    exact .inr ⟨h.1, Option.isSome_iff_ne_none.mpr h.2, _, rfl, slots_rename 0 1⟩

/-- How far a rotation gets before the fresh file is opened. -/
inductive Reached (io : Io) (w : FileWriter) (d : LogDir) : LogAttempt → Prop
  | remove (hfails : io.fails .remove) : Reached io w d (.error .remove, w, d)
  | rename (k : ℕ) (d' : LogDir) (hslots : slots w.path d' = raised k w.maxFiles (slots w.path d))
      (hrenamed : ∀ j, k < j → j < w.maxFiles → (slots w.path d j).isSome → ¬ io.fails (.rename j))
      (hlt : k < w.maxFiles) (hsome : k = 0 ∨ (slots w.path d k).isSome)
      (hfails : 0 < k → io.fails (.rename k)) : Reached io w d (.error (.rename k), w, d')
  | reopen (d' : LogDir) (hsome : (slots w.path d 0).isSome) (hnone : slots w.path d' 0 = none)
      (hslots : ∀ i < w.maxFiles, slots w.path d' (i + 1) = slots w.path d i)
      (hrenamed : ∀ j < w.maxFiles, j = 0 ∨ (slots w.path d j).isSome → ¬ io.fails (.rename j)) :
      Reached io w d (w.reopen io d')

theorem reached_moveFiles (io : Io) (w : FileWriter) (d : LogDir) (hpos : 0 < w.maxFiles) :
    Reached io w d (w.moveFiles io d) := by
  rw [moveFiles]
  rcases removeOldest_cases io w d hpos with ⟨hremove, hfails⟩ | ⟨d₁, hremove, hd₁⟩
  · rw [hremove]
    exact .remove hfails
  have hbelow : ∀ j < w.maxFiles, slots w.path d₁ j = slots w.path d j := by
    intro j hj
    rw [hd₁, Function.update_of_ne hj.ne]
  have htop : w.maxFiles - 1 + 1 = w.maxFiles := Nat.sub_add_cancel hpos
  have hmoved := moved_moveRotated io w (w.maxFiles - 1) d₁ (by rw [htop, hd₁, Function.update_self])
  rw [hremove, LogAttempt.andThen]
  generalize w.moveRotated io (w.maxFiles - 1) d₁ = attempt at hmoved ⊢
  cases hmoved with
  | above k d' hd' hall hpos hk hsome hfails =>
    have hlt : k < w.maxFiles := by omega
    refine .rename k d' ?_ (fun j hj hlt hsome => ?_) hlt (.inr (hbelow k hlt ▸ hsome)) fun _ => hfails
    · rw [hd', htop, hd₁, raised_update_none hlt]
    · exact hall j hj (by omega) (hbelow j hlt ▸ hsome)
  | all d₂ hd₂ hall =>
    rw [htop, hd₁, raised_update_none hpos] at hd₂
    have hrenamed : ∀ j, 0 < j → j < w.maxFiles → (slots w.path d j).isSome →
        ¬ io.fails (.rename j) :=
      fun j hj hlt hsome => hall j hj (by omega) (hbelow j hlt ▸ hsome)
    rw [LogAttempt.andThen]
    rcases moveCurrent_cases io w d₂ with hcurrent | ⟨hzero, hsome, d₃, hcurrent, hd₃⟩
    · rw [hcurrent]
      exact .rename 0 d₂ hd₂ hrenamed hpos (.inl rfl) (by omega)
    · rw [hcurrent, LogAttempt.andThen]
      have hsame : slots w.path d₂ 0 = slots w.path d 0 := by rw [hd₂, raised_of_le le_rfl]
      refine .reopen d₃ (hsame ▸ hsome) (by rw [hd₃, Function.update_self]) (fun i hi => ?_)
        fun j hlt hj => ?_
      · rw [hd₃, Function.update_of_ne i.succ_ne_zero]
        by_cases hi' : i = 0
        · rw [hi', Function.update_self, hsame]
        · rw [Function.update_of_ne (by omega), hd₂, raised_succ (Nat.pos_of_ne_zero hi') hi]
      · by_cases hj' : j = 0
        · exact hj' ▸ hzero
        · exact hrenamed j (Nat.pos_of_ne_zero hj') hlt (hj.resolve_left hj')

/-- **What a rotation that fails leaves behind.** -/
theorem brokenOff_rotate (hpos : 0 < w.maxFiles) {op : LogOp} (h : (w.rotate io d).1 = .error op) :
    SameLog w (w.rotate io d).2.1 ∧
      BrokenOff w.maxFiles (slots w.path d) op (slots w.path (w.rotate io d).2.2) := by
  obtain ⟨hsame, hslots, hflush⟩ := flush_cases io w d
  rcases LogAttempt.andThen_cases h with ⟨herror, heq⟩ | ⟨-, hmove, heq⟩
  · rw [rotate, heq]
    refine ⟨hsame, ?_⟩
    rw [hflush] at herror
    split_ifs at herror
    obtain rfl := Except.error.inj herror
    exact hslots
  · rw [rotate, heq]
    generalize (w.flush io d).2.1 = w₁ at hsame hmove ⊢
    generalize (w.flush io d).2.2 = d₁ at hslots hmove ⊢
    rw [← hsame.maxFiles] at hpos
    have hne : w₁.maxFiles ≠ 0 := hpos.ne'
    simp only [if_neg hne] at hmove ⊢
    rw [← hslots, ← hsame.path, ← hsame.maxFiles]
    have hreached := reached_moveFiles io w₁ d₁ hpos
    generalize w₁.moveFiles io d₁ = attempt at hreached hmove ⊢
    cases hreached with
    | remove =>
      obtain rfl := Except.error.inj hmove
      exact ⟨hsame, rfl⟩
    | rename k d' hd' _ hlt hsome =>
      obtain rfl := Except.error.inj hmove
      exact ⟨hsame, hlt, hsome, hd'⟩
    | reopen d' hsome hnone hd' =>
      rw [reopen] at hmove ⊢
      split_ifs at hmove ⊢
      obtain rfl := Except.error.inj hmove
      exact ⟨hsame, hsome, hnone, hd'⟩

/-- Only the rename of one file fails. -/
def Io.onlyRename (k : ℕ) : Io where
  fails op := op = .rename k
  written _ := 0
  problem _ := ""

/-- The rename of a file fails as long as the file is there. -/
theorem rotate_onlyRename {k : ℕ} (hlt : k < w.maxFiles)
    (hsome : k = 0 ∨ (slots w.path d k).isSome) :
    (w.rotate (Io.onlyRename k) d).1 = .error (.rename k) := by
  obtain ⟨hsame, hslots, hflush⟩ := flush_cases (Io.onlyRename k) w d
  have hok : (w.flush (Io.onlyRename k) d).1 = .ok () := hflush
  rw [rotate, LogAttempt.andThen_of_ok hok]
  generalize (w.flush (Io.onlyRename k) d).2.1 = w₁ at hsame ⊢
  generalize (w.flush (Io.onlyRename k) d).2.2 = d₁ at hslots ⊢
  rw [← hslots, ← hsame.path] at hsome
  rw [← hsame.maxFiles] at hlt
  have hpos : 0 < w₁.maxFiles := Nat.zero_lt_of_lt hlt
  rw [if_neg hpos.ne']
  have hstrikes : (Io.onlyRename k).fails (.rename k) := by simp [Io.onlyRename]
  have hreached := reached_moveFiles (Io.onlyRename k) w₁ d₁ hpos
  generalize w₁.moveFiles (Io.onlyRename k) d₁ = attempt at hreached ⊢
  cases hreached with
  | remove hfails => cases hfails
  | rename j d' _ hrenamed _ _ hfails =>
    -- It is no other file whose rename fails, and no file is left out.
    rcases Nat.lt_trichotomy j k with hj | rfl | hj
    · exact absurd hstrikes (hrenamed k hj hlt (hsome.resolve_left (by omega)))
    · rfl
    · have heq : j = k := by simpa [Io.onlyRename] using hfails (by omega)
      omega
  | reopen _ _ _ _ hrenamed => exact absurd hstrikes (hrenamed k hlt hsome)

end FileWriter

/-! ### Retries -/

/-- A line that needs a rotation comes, and the rotation fails at an operation. -/
def retries (fault : LogOp) : TransitionSystem (FileWriter × LogDir) (Io × List UInt8) where
  init _ := True
  step
    | (w, d), (io, line) =>
      if w.mustRotate line ∧ (w.rotate io d).1 = .error fault then some (w.writeLine io d line).2
      else none

/-- Every file that one rotation keeps still has a name, and a rotated one has that of a rotated
file. -/
def KeepsHistory (w : FileWriter) (d d' : LogDir) : Prop :=
  ∀ i < w.maxFiles, ∀ file, slots w.path d i = some file →
    ∃ j ≤ w.maxFiles, (0 < i → 0 < j) ∧ slots w.path d' j = some file

/-- A rotation is due, and breaks off at the rename of a file with others above it. -/
def ShiftsOff (w : FileWriter) (d : LogDir) (fault : LogOp) : Prop :=
  0 < w.size ∧ ∃ k, fault = .rename k ∧ k < w.maxFiles ∧ (k = 0 ∨ (slots w.path d k).isSome) ∧
    ∃ i, k < i ∧ i < w.maxFiles ∧ (slots w.path d i).isSome

/-- What retries leave behind that shift nothing off: the same files, those up to the one that cannot
be renamed if there are no others, or all of them one number higher. -/
inductive LeftBehind (m : ℕ) (before : ℕ → Option (FileId String)) :
    LogOp → (ℕ → Option (FileId String)) → Prop
  | same (fault : LogOp) : LeftBehind m before fault before
  | below (k : ℕ) (after : ℕ → Option (FileId String)) (hbelow : ∀ i ≤ k, after i = before i)
      (hnone : ∀ i, k < i → i < m → before i = none) : LeftBehind m before (.rename k) after
  | moved (after : ℕ → Option (FileId String)) (hnone : after 0 = none)
      (hmoved : ∀ i < m, after (i + 1) = before i) : LeftBehind m before .reopen after

namespace FileWriter

variable {w w' : FileWriter} {d d' : LogDir} {io : Io} {line : List UInt8} {fault : LogOp}

theorem SameLog.trans {w'' : FileWriter} (h : SameLog w w') (h' : SameLog w' w'') :
    SameLog w w'' :=
  ⟨h'.path.trans h.path, h'.maxFiles.trans h.maxFiles, h'.maxSize.trans h.maxSize,
    h'.size.trans h.size⟩

/-- What one retry does. -/
theorem brokenOff_of_retry (hpos : 0 < w.maxFiles)
    (h : (retries fault).step (w, d) (io, line) = some (w', d')) :
    0 < w.size ∧ SameLog w w' ∧ BrokenOff w.maxFiles (slots w.path d) fault (slots w.path d') := by
  obtain ⟨⟨hmust, herror⟩, hwrite⟩ := Option.ite_none_right_eq_some.mp h
  have hbroken := brokenOff_rotate hpos herror
  have hsize : 0 < w.size := by
    rw [mustRotate, Bool.and_eq_true, decide_eq_true_eq] at hmust
    exact hmust.1
  have hrotate : w.writeLine io d line = w.rotate io d := by
    rw [writeLine, if_pos hmust]
    rcases hresult : w.rotate io d with ⟨result, w₁, d₁⟩
    rw [hresult] at herror
    cases herror
    rfl
  rw [hrotate] at hwrite
  obtain ⟨rfl, rfl⟩ := Prod.mk.inj (Option.some.inj hwrite)
  exact ⟨hsize, hbroken⟩

/-- Retries that shift nothing off leave the files behind. -/
theorem leftBehind_of_steps (hpos : 0 < w.maxFiles) (hsafe : ¬ ShiftsOff w d fault)
    {s : FileWriter × LogDir}
    (h : (retries fault).Steps TransitionSystem.AnyStep (w, d) s) : SameLog w s.1 ∧
      LeftBehind w.maxFiles (slots w.path d) fault (slots w.path s.2) := by
  refine h.invariant (I := fun s => SameLog w s.1 ∧
    LeftBehind w.maxFiles (slots w.path d) fault (slots w.path s.2))
    ⟨⟨rfl, rfl, rfl, rfl⟩, .same fault⟩ ?_
  rintro ⟨w₁, d₁⟩ ⟨io, line⟩ ⟨w₂, d₂⟩ - ⟨hsame, hleft⟩ - hstep
  obtain ⟨hsize, hsame', hbroken⟩ := brokenOff_of_retry (hsame.maxFiles ▸ hpos) hstep
  refine ⟨hsame.trans hsame', ?_⟩
  rw [hsame.path, hsame.maxFiles] at hbroken
  rw [hsame.size] at hsize
  dsimp only at hleft ⊢
  generalize slots w.path d₁ = between at hleft hbroken
  generalize slots w.path d₂ = after at hbroken ⊢
  cases fault with
  | flush | remove =>
    obtain rfl : after = between := hbroken
    exact hleft
  | rename k =>
    obtain ⟨hlt, hsome, rfl⟩ := hbroken
    have hbelow : ∀ i ≤ k, between i = slots w.path d i := by
      cases hleft with
      | same => exact fun _ _ => rfl
      | below _ _ hbelow => exact hbelow
    refine .below k _ (fun i hi => (raised_of_le hi).trans (hbelow i hi)) fun i hi hlt' => ?_
    by_contra hi'
    rw [hbelow k le_rfl] at hsome
    exact hsafe ⟨hsize, k, rfl, hlt, hsome, i, hi, hlt', Option.isSome_iff_ne_none.mpr hi'⟩
  | reopen =>
    obtain ⟨hsome, hnone, hmoved⟩ := hbroken
    cases hleft with
    | same => exact .moved after hnone hmoved
    | moved _ hgone =>
      -- The rotation gets that far only once.
      rw [hgone] at hsome
      cases hsome
  | createDir | openLog | metadata | write | newline => exact hbroken.elim

theorem keepsHistory_of_leftBehind
    (h : LeftBehind w.maxFiles (slots w.path d) fault (slots w.path d')) : KeepsHistory w d d' := by
  intro i hi file hfile
  generalize slots w.path d' = after at h ⊢
  cases h with
  | same => exact ⟨i, hi.le, id, hfile⟩
  | below k _ hbelow hnone =>
    rcases Nat.lt_or_ge k i with hk | hk
    · rw [hnone i hk hi] at hfile
      cases hfile
    · exact ⟨i, hi.le, id, (hbelow i hk).trans hfile⟩
  | moved _ _ hmoved => exact ⟨i + 1, hi, fun _ => i.succ_pos, (hmoved i hi).trans hfile⟩

/-- There always is another retry, as a line can be too long for any file. -/
theorem exists_retry {k : ℕ} (hlt : k < w.maxFiles) (hsome : k = 0 ∨ (slots w.path d k).isSome)
    (hsize : 0 < w.size) : ∃ action s, (retries (.rename k)).step (w, d) action = some s := by
  have hmust : w.mustRotate (List.replicate w.maxSize 0) = true := by
    rw [mustRotate, List.length_replicate, Bool.and_eq_true, decide_eq_true_eq, decide_eq_true_eq]
    omega
  exact ⟨(Io.onlyRename k, List.replicate w.maxSize 0), _,
    if_pos ⟨hmust, rotate_onlyRename hlt hsome⟩⟩

/-- With each retry a file above the one that cannot be renamed moves up by one, until it is gone. -/
theorem exists_retries {k i : ℕ} {file : FileId String} (hlt : k < w.maxFiles)
    (hsome : k = 0 ∨ (slots w.path d k).isSome) (hsize : 0 < w.size) (hi : k < i)
    (honly : ∀ j, slots w.path d j = some file → j = i) (n : ℕ) : ∃ attempts s,
      (retries (.rename k)).run (w, d) attempts = some s ∧ SameLog w s.1 ∧
        (∀ j ≤ k, slots w.path s.2 j = slots w.path d j) ∧
        ∀ j ≤ w.maxFiles, slots w.path s.2 j = some file → j = i + n := by
  induction n with
  | zero => exact ⟨[], (w, d), rfl, ⟨rfl, rfl, rfl, rfl⟩, fun _ _ => rfl, fun j _ => honly j⟩
  | succ n ih =>
    obtain ⟨attempts, ⟨w₁, d₁⟩, hrun, hsame, hbelow, hat⟩ := ih
    dsimp only at hsame hbelow hat
    have hlt₁ : k < w₁.maxFiles := hsame.maxFiles ▸ hlt
    have hsome₁ : k = 0 ∨ (slots w₁.path d₁ k).isSome := by
      rw [hsame.path, hbelow k le_rfl]
      exact hsome
    obtain ⟨action, ⟨w₂, d₂⟩, hstep⟩ := exists_retry hlt₁ hsome₁ (hsame.size ▸ hsize)
    obtain ⟨-, hsame', -, -, hraised⟩ := brokenOff_of_retry (Nat.zero_lt_of_lt hlt₁) hstep
    rw [hsame.path, hsame.maxFiles] at hraised
    refine ⟨attempts ++ [action], (w₂, d₂), ?_, hsame.trans hsame', fun j hj => ?_,
      fun j hj hfile => ?_⟩
    · rw [TransitionSystem.run_append, hrun, Option.bind_some, TransitionSystem.run_cons, hstep]
      rfl
    · rw [hraised, raised_of_le hj, hbelow j hj]
    · rw [hraised, raised] at hfile
      split_ifs at hfile with habove hnext
      · have hprev := hat (j - 1) (by omega) hfile
        omega
      · have hsame := hat j hj hfile
        omega

/-- **When a failed rotation keeps history.** Whatever files are there, retries that all fail at one
operation keep every file that one rotation keeps, unless that is the rename of a file with others
above it, which are lost after enough retries. -/
theorem keeps_history_iff (w : FileWriter) (files : String → Option (List UInt8)) (fault : LogOp)
    (hpos : 0 < w.maxFiles) :
    (∀ attempts s, (retries fault).run (w, .ofFiles files) attempts = some s →
        KeepsHistory w (.ofFiles files) s.2) ↔ ¬ ShiftsOff w (.ofFiles files) fault := by
  constructor
  · rintro hkeeps ⟨hsize, k, rfl, hlt, hsome, i, hi, hlt', hfile⟩
    obtain ⟨file, hfile⟩ := Option.isSome_iff_exists.mp hfile
    have honly : ∀ j, slots w.path (.ofFiles files) j = some file → j = i := by
      intro j hj
      obtain ⟨_, -, rfl⟩ := Option.map_eq_some_iff.mp hfile
      obtain ⟨_, -, heq⟩ := Option.map_eq_some_iff.mp hj
      exact logPath_injective w.path (FileId.found.inj heq)
    obtain ⟨attempts, s, hrun, -, -, hat⟩ :=
      exists_retries hlt hsome hsize hi honly (w.maxFiles + 1)
    obtain ⟨j, hj, -, hfile'⟩ := hkeeps attempts s hrun i hlt' file hfile
    have habove := hat j hj hfile'
    omega
  · intro hsafe attempts s hrun
    have hsteps := TransitionSystem.steps_of_run_of_forall (fun _ _ _ _ => trivial) hrun
    exact keepsHistory_of_leftBehind (leftBehind_of_steps hpos hsafe hsteps).2

/-- A writer with a full file, which was deleted from outside, and which keeps two others. -/
def exampleLog : FileWriter where
  path := "web.log"
  file := .found "web.log"
  buffer := []
  size := 4
  maxSize := 4
  maxFiles := 2
  unflushed := 0

/-- While the oldest file cannot be removed, nothing is lost. -/
theorem keeps_history_remove :
    let files : String → Option (List UInt8) := fun path =>
      if path = "web.log.1" ∨ path = "web.log.2" then some [97, 10] else none
    let io : Io := { Io.quiet with fails := fun op => op = .remove }
    ∃ s, (retries .remove).run (exampleLog, .ofFiles files) [(io, [98]), (io, [98])] = some s ∧
      KeepsHistory exampleLog (.ofFiles files) s.2 := by
  intro files io
  have hrun : ((retries .remove).run (exampleLog, .ofFiles files)
      [(io, [98]), (io, [98])]).isSome := by decide
  obtain ⟨s, hs⟩ := Option.isSome_iff_exists.mp hrun
  have hsafe : ¬ ShiftsOff exampleLog (.ofFiles files) .remove := by
    rintro ⟨-, k, hk, -⟩
    cases hk
  exact ⟨s, hs, (keeps_history_iff exampleLog files .remove (by decide)).mpr hsafe _ s hs⟩

/-- Without a current file, two lines are enough to lose the one file that there is. -/
theorem history_lost_deleted :
    let files : String → Option (List UInt8) := fun path =>
      if path = "web.log.1" then some [97, 10] else none
    ∃ s, (retries (.rename 0)).run (exampleLog, .ofFiles files)
        [(.quiet, [98]), (.quiet, [98])] = some s ∧
      ¬ KeepsHistory exampleLog (.ofFiles files) s.2 := by
  intro files
  obtain ⟨s, hrun, hgone⟩ : ∃ s : FileWriter × LogDir,
      (retries (.rename 0)).run (exampleLog, .ofFiles files) [(.quiet, [98]), (.quiet, [98])] =
        some s ∧ ((List.range 3).all fun j => (slots "web.log" s.2 j).isNone) = true :=
    Option.map_eq_some_iff.mp (by decide)
  refine ⟨s, hrun, fun hkeeps => ?_⟩
  obtain ⟨j, hj, -, hfile⟩ := hkeeps 1 (by decide) (.found "web.log.1") (by decide)
  have hnone : slots exampleLog.path s.2 j = none :=
    Option.isNone_iff_eq_none.mp
      (List.all_eq_true.mp hgone j (List.mem_range.mpr (Nat.lt_succ_of_le hj)))
  rw [hnone] at hfile
  cases hfile

end FileWriter

end Servicrab
