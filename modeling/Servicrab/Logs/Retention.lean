import Servicrab.Library.TransitionSystem
import Servicrab.Logs.Writer
import Mathlib.Data.List.Induction
import Mathlib.Logic.Function.Basic

/-!
# What rotation keeps

`rotate` deletes `<path>.<max_files>`, moves every other `<path>.<n>` to `<path>.<n + 1>`, the
highest first, and renames the current file to `<path>.1`. The log folder is the writer with the
rotated files under their numbers; a step of it is a step of the writer, which moves the rotated
files when it renames the current one.

Whatever the folder held at the start, the files it holds later are the last of those it held and
of those the writer filled, in order, and the writer filled each with whole lines.

## Main definitions

* `LogFolder`, `shiftRotated`, `logFolder`.
* `LogFolder.Retention`: what a run has kept.

## Main results

* `generations_shiftRotated`: what `rotate` does to the generations.
* `LogFolder.retention`: every run keeps that.
* `LogFolder.exists_run`: every sequence of lines can be written.
-/

namespace Servicrab

/-! ### The chain of rotated files -/

section Rotated

variable (rotated : ℕ → Option (List UInt8))

/-- Move `<path>.<n>` to `<path>.<n + 1>`, if it exists. -/
def renameRotated (n : ℕ) : ℕ → Option (List UInt8) :=
  if (rotated n).isSome then Function.update (Function.update rotated (n + 1) (rotated n)) n none
  else rotated

/-- The loop of `rotate`, from `<path>.<n>` down to `<path>.1`. -/
def renameAll (rotated : ℕ → Option (List UInt8)) : ℕ → ℕ → Option (List UInt8)
  | 0 => rotated
  | n + 1 => renameAll (renameRotated rotated (n + 1)) n

/-- What `rotate` does to the rotated files. The oldest file falls off the end. -/
def shiftRotated (maxFiles : ℕ) (current : Option (List UInt8)) : ℕ → Option (List UInt8) :=
  Function.update (renameAll (Function.update rotated maxFiles none) (maxFiles - 1)) 1 current

/-- The rotated files that exist, from `<path>.<n>` down to `<path>.1`. -/
def generations (rotated : ℕ → Option (List UInt8)) : ℕ → List (List UInt8)
  | 0 => []
  | n + 1 => (rotated (n + 1)).toList ++ generations rotated n

variable {rotated} {rotated' : ℕ → Option (List UInt8)}

/-- With room above the highest of them, the loop moves every file by one. -/
theorem renameAll_apply {n : ℕ} (hfree : rotated (n + 1) = none) (i : ℕ) :
    renameAll rotated n i =
      if i = 0 ∨ n + 1 < i then rotated i else if i = 1 then none else rotated (i - 1) := by
  induction n generalizing rotated with
  | zero =>
    rcases Nat.lt_trichotomy i 1 with h | rfl | h
    · simp [renameAll, Nat.lt_one_iff.mp h]
    · simp [renameAll, hfree]
    · simp [renameAll, h]
  | succ n ih =>
    have hmoved (j : ℕ) : renameRotated rotated (n + 1) j =
        if j = n + 1 then none else if j = n + 2 then rotated (n + 1) else rotated j := by
      by_cases hsome : (rotated (n + 1)).isSome
      · rw [renameRotated, if_pos hsome]
        simp only [Function.update_apply]
      · have hnone : rotated (n + 1) = none := Option.not_isSome_iff_eq_none.mp hsome
        rw [renameRotated, if_neg hsome]
        split_ifs with hlow hhigh
        · rw [hlow, hnone]
        · rw [hhigh, hfree, hnone]
        · rfl
    have hfree' : renameRotated rotated (n + 1) (n + 1) = none := by simp [hmoved]
    rw [renameAll, ih hfree', hmoved, hmoved]
    grind

/-- The files above the first are those that were one below. -/
theorem shiftRotated_succ {maxFiles n : ℕ} {current : Option (List UInt8)} (hn : 0 < n)
    (hlt : n < maxFiles) : shiftRotated rotated maxFiles current (n + 1) = rotated n := by
  have hfree : Function.update rotated maxFiles none (maxFiles - 1 + 1) = none := by
    rw [Nat.sub_add_cancel (by omega)]
    simp
  have hne : n + 1 ≠ 1 := by omega
  have hle : ¬ (n + 1 = 0 ∨ maxFiles - 1 + 1 < n + 1) := by omega
  rw [shiftRotated, Function.update_of_ne hne, renameAll_apply hfree, if_neg hle, if_neg hne,
    Nat.add_sub_cancel, Function.update_of_ne (by omega)]

theorem shiftRotated_one {maxFiles : ℕ} {current : Option (List UInt8)} :
    shiftRotated rotated maxFiles current 1 = current := by simp [shiftRotated]

/-- Files that have all moved by one have made room for one more. -/
theorem generations_of_succ {file : List UInt8} (hone : rotated' 1 = some file) {n : ℕ}
    (hsucc : ∀ i, 0 < i → i ≤ n → rotated' (i + 1) = rotated i) :
    generations rotated' (n + 1) = generations rotated n ++ [file] := by
  induction n with
  | zero => simp [generations, hone]
  | succ n ih =>
    have hlow : generations rotated' (n + 1) = generations rotated n ++ [file] :=
      ih fun i hi hle => hsucc i hi (by omega)
    rw [generations, hlow, hsucc (n + 1) (by omega) (Nat.le_refl _), generations, List.append_assoc]

/-- Rotation drops the oldest generation, and the current file becomes the newest. -/
theorem generations_shiftRotated {maxFiles : ℕ} (hmaxFiles : 0 < maxFiles) (file : List UInt8) :
    (rotated maxFiles).toList ++ generations (shiftRotated rotated maxFiles (some file)) maxFiles =
      generations rotated maxFiles ++ [file] := by
  obtain ⟨n, rfl⟩ : ∃ n, maxFiles = n + 1 := ⟨maxFiles - 1, by omega⟩
  have hshift : generations (shiftRotated rotated (n + 1) (some file)) (n + 1) =
      generations rotated n ++ [file] :=
    generations_of_succ shiftRotated_one fun i hi hle => shiftRotated_succ hi (by omega)
  rw [hshift, generations, List.append_assoc]

/-- As many generations exist as there are without a gap from the first on. -/
theorem le_length_generations {k : ℕ} (h : ∀ i, 0 < i → i ≤ k → (rotated i).isSome) {n : ℕ} :
    min k n ≤ (generations rotated n).length := by
  induction n with
  | zero => simp
  | succ n ih =>
    rw [generations, List.length_append]
    rcases Nat.lt_or_ge n k with hlt | hge
    · obtain ⟨file, hfile⟩ := Option.isSome_iff_exists.mp (h (n + 1) (by omega) hlt)
      rw [hfile, Option.toList_some, List.length_singleton]
      omega
    · omega

end Rotated

/-! ### The folder -/

/-- The log files of a service under their names, and their writer. -/
structure LogFolder where
  /-- The writer and the file at the path. -/
  disk : LogDisk
  /-- The file `<path>.<n>`, if there is one. -/
  rotated : ℕ → Option (List UInt8)

namespace LogFolder

variable (f : LogFolder)

/-- A step of the writer. -/
def step (action : WriteAction) : Option LogFolder :=
  (f.disk.write action).map fun disk => {
    disk
    rotated :=
      if action = .rename ∧ f.disk.writer.maxFiles ≠ 0 then
        shiftRotated f.rotated f.disk.writer.maxFiles f.disk.current
      else f.rotated }

/-- A folder before a writer is opened on it. -/
def initial (maxSize maxFiles : ℕ) (rotated : ℕ → Option (List UInt8))
    (current : Option (List UInt8)) : LogFolder where
  disk := {
    writer := { maxSize, maxFiles, buffer := [], size := 0, unflushed := 0, phase := .closed }
    past := []
    current }
  rotated := rotated

/-- The current file, with what is buffered for it. -/
def written : List UInt8 := f.disk.current.getD [] ++ f.disk.writer.buffer

/-- The files of the folder, oldest first. -/
def retained : List (List UInt8) :=
  generations f.rotated f.disk.writer.maxFiles ++ [f.written]

end LogFolder

/-- Writers at work on their folders. -/
def logFolder : TransitionSystem LogFolder WriteAction where
  init f := ∃ maxSize maxFiles rotated current,
    f = LogFolder.initial maxSize maxFiles rotated current
  step := LogFolder.step

/-- The line that a step hands over. -/
def WriteAction.handed : WriteAction → List (List UInt8)
  | .writeLine line => [line]
  | _ => []

/-- The line that waits for `rotate`. -/
def WritePhase.pending : WritePhase → List (List UInt8)
  | .rotating line | .renamed line => [line]
  | _ => []

/-- Whether the writer holds the file at the path. -/
def WritePhase.holdsFile : WritePhase → Bool
  | .closed | .renamed _ => false
  | _ => true

/-- What lines are in a file. -/
def linesText (lines : List (List UInt8)) : List UInt8 := lines.flatMap (· ++ [newline])

/-- The files that were filled, the first of which held something before. -/
def filledFiles (start : List UInt8) : List (List (List UInt8)) → List (List UInt8)
  | [] => []
  | lines :: groups => (start ++ linesText lines) :: groups.map linesText

/-- The lines fit into a file of the size, or are a single longer one. -/
def FitsFile (maxSize : ℕ) (lines : List (List UInt8)) : Prop :=
  (linesText lines).length ≤ maxSize ∨ ∃ line, lines = [line]

namespace LogFolder

/-- What the folder keeps of what it held at the start and of the lines that were handed over
since. The writer put the lines into files in groups. -/
structure Retention (start f : LogFolder) (handed : List (List UInt8))
    (groups : List (List (List UInt8))) : Prop where
  /-- Every line is in one group, in order; the one that waits for `rotate` is in none yet. -/
  lines : groups.flatten ++ f.disk.writer.phase.pending = handed
  /-- The files are the last of those there were. -/
  files : f.retained <:+ generations start.rotated start.disk.writer.maxFiles ++
    filledFiles (start.disk.current.getD []) groups
  /-- The last files the writer filled are all there. -/
  kept : min groups.length (start.disk.writer.maxFiles + 1) ≤ f.retained.length
  /-- What they hold is the last of what there was. -/
  content : f.retained.flatten <:+ start.retained.flatten ++ linesText groups.flatten
  /-- What the writer put into a file fits. -/
  fits : ∀ lines ∈ groups, FitsFile start.disk.writer.maxSize lines
  /-- The writer knows how large its file is. -/
  size : f.disk.writer.phase.holdsFile → f.disk.writer.size = f.written.length

/-! ### What a step does -/

variable {f f' : LogFolder} {action : WriteAction}

/-- The step leaves the files as they are, and hands over at most a line that is to wait. -/
structure Keeps (f : LogFolder) (action : WriteAction) (f' : LogFolder) : Prop where
  rotated : f'.rotated = f.rotated
  written : f'.written = f.written
  pending : f'.disk.writer.phase.pending = f.disk.writer.phase.pending ++ action.handed
  renamed : ∀ line, f'.disk.writer.phase = .renamed line → f.disk.writer.phase = .renamed line
  size : f'.disk.writer.phase.holdsFile → f.disk.writer.phase.holdsFile ∧
    f'.disk.writer.size = f.disk.writer.size ∨ f'.disk.writer.size = f'.written.length

/-- The step appends a line to the current file. -/
structure Appends (f : LogFolder) (action : WriteAction) (f' : LogFolder) (line : List UInt8) :
    Prop where
  rotated : f'.rotated = f.rotated
  written : f'.written = f.written ++ linesText [line]
  pending : f.disk.writer.phase.pending ++ action.handed = [line]
  pending_nil : f'.disk.writer.phase.pending = []
  renamed : ∀ line, f'.disk.writer.phase ≠ .renamed line
  size : f.disk.writer.phase.holdsFile ∧ f.disk.writer.mustRotate line = false ∧
      f'.disk.writer.size = f.disk.writer.size + (line.length + 1) ∨
    f.disk.writer.phase = .renamed line ∧ f'.disk.writer.size = line.length + 1

/-- The step moves the files on. -/
structure Shifts (f : LogFolder) (action : WriteAction) (f' : LogFolder) : Prop where
  rotated : f'.rotated = shiftRotated f.rotated f.disk.writer.maxFiles (some f.written)
  written : f'.written = []
  pending : f'.disk.writer.phase.pending = f.disk.writer.phase.pending ++ action.handed
  holdsFile : f'.disk.writer.phase.holdsFile = false

/-- The limits of the writer stay as they are, and without a file it buffers nothing. -/
structure Sound (f f' : LogFolder) : Prop where
  maxSize : f'.disk.writer.maxSize = f.disk.writer.maxSize
  maxFiles : f'.disk.writer.maxFiles = f.disk.writer.maxFiles
  buffer : f'.disk.writer.phase = .closed → f'.disk.writer.buffer = []

theorem phase_append (w : LogWriter) (line : List UInt8) :
    (w.append line).phase = .flushing ∨ (w.append line).phase = .ready := by
  rw [LogWriter.append]
  split_ifs
  · exact Or.inl rfl
  · exact Or.inr rfl

theorem pending_append (w : LogWriter) (line : List UInt8) :
    (w.append line).phase.pending = [] := by
  rcases phase_append w line with h | h <;> rw [h] <;> rfl

theorem phase_append_ne_renamed (w : LogWriter) (line line' : List UInt8) :
    (w.append line).phase ≠ .renamed line' := by
  rcases phase_append w line with h | h <;> simp [h]

theorem buffer_append (w : LogWriter) (line : List UInt8) :
    (w.append line).buffer = w.buffer ++ linesText [line] := by
  rw [LogWriter.append]
  split_ifs <;> simp [linesText]

theorem size_append (w : LogWriter) (line : List UInt8) :
    (w.append line).size = w.size + (line.length + 1) := by
  rw [LogWriter.append]
  split_ifs <;> rfl

theorem sound_append {w : LogWriter} {line : List UInt8} (hdisk : f'.disk.writer = w.append line)
    (hmaxSize : w.maxSize = f.disk.writer.maxSize)
    (hmaxFiles : w.maxFiles = f.disk.writer.maxFiles) : f.Sound f' where
  maxSize := by
    rw [hdisk, LogWriter.append, ← hmaxSize]
    split_ifs <;> rfl
  maxFiles := by rw [hdisk, LogDisk.maxFiles_append, hmaxFiles]
  buffer hclosed := by
    rw [hdisk] at hclosed
    rcases phase_append w line with h | h <;> cases h.symm.trans hclosed

/-- As long as a history is kept, a step does one of these. -/
theorem step_cases (hmaxFiles : 0 < f.disk.writer.maxFiles)
    (hbuffer : f.disk.writer.phase = .closed → f.disk.writer.buffer = [])
    (h : f.step action = some f') :
    f.Sound f' ∧
      (f.Keeps action f' ∨ (∃ line, f.Appends action f' line) ∨ f.Shifts action f') := by
  obtain ⟨disk, hdisk, rfl⟩ := Option.map_eq_some_iff.mp h
  cases action with
  | open' =>
    obtain ⟨hphase, hsome⟩ := Option.ite_none_right_eq_some.mp hdisk
    obtain rfl := Option.some.inj hsome
    refine ⟨⟨rfl, rfl, by simp⟩, Or.inl ⟨rfl, ?_, ?_, by simp, ?_⟩⟩
    · simp [written, hbuffer hphase]
    · simp [hphase, WritePhase.pending, WriteAction.handed]
    · exact fun _ => Or.inr (by simp [written])
  | writeLine line =>
    obtain ⟨hphase, hsome⟩ := Option.ite_none_right_eq_some.mp hdisk
    split_ifs at hsome with hrotate
    · obtain rfl := Option.some.inj hsome
      refine ⟨⟨rfl, rfl, by simp⟩, Or.inl ⟨rfl, rfl, ?_, by simp, ?_⟩⟩
      · simp [hphase, WritePhase.pending, WriteAction.handed]
      · exact fun _ => Or.inl ⟨by simp [hphase, WritePhase.holdsFile], rfl⟩
    · obtain rfl := Option.some.inj hsome
      refine ⟨sound_append rfl rfl rfl, Or.inr (Or.inl ⟨line, rfl, ?_, ?_, pending_append _ _,
        phase_append_ne_renamed _ _, Or.inl ⟨?_, ?_, size_append _ _⟩⟩)⟩
      · simp [written, buffer_append]
      · simp [hphase, WritePhase.pending, WriteAction.handed]
      · simp [hphase, WritePhase.holdsFile]
      · exact Bool.not_eq_true _ ▸ hrotate
  | spill count =>
    simp only [LogDisk.write] at hdisk
    split at hdisk
    · rename_i file hcurrent
      obtain rfl := Option.some.inj hdisk
      refine ⟨⟨rfl, rfl, fun hclosed => ?_⟩, Or.inl ⟨rfl, ?_, ?_, fun _ => id, fun hfile => ?_⟩⟩
      · simp [hbuffer hclosed]
      · simp [written, hcurrent]
      · simp [WriteAction.handed]
      · exact Or.inl ⟨hfile, rfl⟩
    · cases hdisk
  | rename =>
    simp only [LogDisk.write] at hdisk
    split at hdisk
    · rename_i line file hphase hcurrent
      split_ifs at hdisk with hempty hzero
      · omega
      · obtain rfl := Option.some.inj hdisk
        refine ⟨⟨rfl, rfl, by simp⟩, Or.inr (Or.inr ⟨?_, ?_, ?_, rfl⟩)⟩
        · simp [written, hcurrent, hempty, hzero]
        · simp [written, hempty]
        · simp [hphase, WritePhase.pending, WriteAction.handed]
    · cases hdisk
  | create =>
    simp only [LogDisk.write] at hdisk
    split at hdisk
    · rename_i line hphase
      obtain rfl := Option.some.inj hdisk
      refine ⟨sound_append rfl rfl rfl, Or.inr (Or.inl ⟨line, rfl, ?_, ?_, pending_append _ _,
        phase_append_ne_renamed _ _, Or.inr ⟨hphase, ?_⟩⟩)⟩
      · simp [written, buffer_append]
      · simp [hphase, WritePhase.pending, WriteAction.handed]
      · simp [size_append]
    · cases hdisk
  | flush =>
    obtain ⟨hphase, hsome⟩ := Option.ite_none_right_eq_some.mp hdisk
    obtain rfl := Option.some.inj hsome
    refine ⟨⟨rfl, rfl, by simp⟩, Or.inl ⟨rfl, rfl, ?_, by simp, fun _ => Or.inl ⟨?_, rfl⟩⟩⟩
    · simp [hphase, WritePhase.pending, WriteAction.handed]
    · simp [hphase, WritePhase.holdsFile]
  | flushed =>
    obtain ⟨⟨hphase, -⟩, hsome⟩ := Option.ite_none_right_eq_some.mp hdisk
    obtain rfl := Option.some.inj hsome
    refine ⟨⟨rfl, rfl, by simp⟩, Or.inl ⟨rfl, rfl, ?_, by simp, fun _ => Or.inl ⟨?_, rfl⟩⟩⟩
    · simp [hphase, WritePhase.pending, WriteAction.handed]
    · simp [hphase, WritePhase.holdsFile]
  | close =>
    obtain ⟨⟨hphase, hempty⟩, hsome⟩ := Option.ite_none_right_eq_some.mp hdisk
    obtain rfl := Option.some.inj hsome
    refine ⟨⟨rfl, rfl, fun _ => hempty⟩,
      Or.inl ⟨rfl, rfl, ?_, by simp, by simp [WritePhase.holdsFile]⟩⟩
    simp [hphase, WritePhase.pending, WriteAction.handed]

/-! ### The lines in their files -/

variable {start : LogFolder} {handed : List (List UInt8)} {groups : List (List (List UInt8))}
  {last : List (List UInt8)}

theorem linesText_append (lines lines' : List (List UInt8)) :
    linesText (lines ++ lines') = linesText lines ++ linesText lines' := by simp [linesText]

theorem linesText_flatten (groups : List (List (List UInt8))) :
    linesText groups.flatten = (groups.map linesText).flatten := by
  induction groups with
  | nil => rfl
  | cons lines groups ih => rw [List.flatten_cons, linesText_append, ih]; rfl

theorem linesText_eq_nil {lines : List (List UInt8)} : linesText lines = [] ↔ lines = [] := by
  cases lines <;> simp [linesText]

theorem flatten_filledFiles {before : List UInt8} (h : groups ≠ []) :
    (filledFiles before groups).flatten = before ++ linesText groups.flatten := by
  cases groups with
  | nil => exact absurd rfl h
  | cons lines groups => simp [filledFiles, linesText_append, linesText_flatten]

theorem filledFiles_concat (before : List UInt8) (groups : List (List (List UInt8)))
    (last : List (List UInt8)) : filledFiles before (groups ++ [last]) =
      filledFiles before groups ++ [(if groups = [] then before else []) ++ linesText last] := by
  cases groups <;> simp [filledFiles]

/-- The groups of lines that were put into the files before the current one, and the group in it. -/
structure Filing (start f : LogFolder) (handed : List (List UInt8))
    (groups : List (List (List UInt8))) (last : List (List UInt8)) : Prop where
  sound : start.Sound f
  lines : groups.flatten ++ last ++ f.disk.writer.phase.pending = handed
  older : generations f.rotated start.disk.writer.maxFiles <:+
    generations start.rotated start.disk.writer.maxFiles ++
      filledFiles (start.disk.current.getD []) groups
  current : f.written =
    (if groups = [] then start.disk.current.getD [] else []) ++ linesText last
  present : ∀ i, 0 < i → i ≤ min groups.length start.disk.writer.maxFiles → (f.rotated i).isSome
  fits : ∀ lines ∈ groups ++ [last], FitsFile start.disk.writer.maxSize lines
  renamed : ∀ line, f.disk.writer.phase = .renamed line → groups ≠ [] ∧ last = []
  size : f.disk.writer.phase.holdsFile → f.disk.writer.size = f.written.length

theorem fitsFile_nil (maxSize : ℕ) : FitsFile maxSize [] := Or.inl (Nat.zero_le _)

theorem filing_initial (maxSize maxFiles : ℕ) (rotated : ℕ → Option (List UInt8))
    (current : Option (List UInt8)) :
    Filing (initial maxSize maxFiles rotated current) (initial maxSize maxFiles rotated current)
      [] [] [] where
  sound := ⟨rfl, rfl, fun _ => rfl⟩
  lines := rfl
  older := by simp [filledFiles]
  current := by simp [written, initial, linesText]
  present i hi hle := by simp at hle; omega
  fits := by simp [fitsFile_nil]
  renamed := nofun
  size := nofun

namespace Filing

theorem sound_step (h : Filing start f handed groups last) (hsound : f.Sound f') :
    start.Sound f' where
  maxSize := hsound.maxSize.trans h.sound.maxSize
  maxFiles := hsound.maxFiles.trans h.sound.maxFiles
  buffer := hsound.buffer

theorem keeps (h : Filing start f handed groups last) (hsound : f.Sound f')
    (hkeeps : f.Keeps action f') :
    Filing start f' (handed ++ action.handed) groups last where
  sound := h.sound_step hsound
  lines := by rw [hkeeps.pending, ← h.lines, ← List.append_assoc]
  older := hkeeps.rotated ▸ h.older
  current := hkeeps.written.trans h.current
  present := hkeeps.rotated ▸ h.present
  fits := h.fits
  renamed line hline := h.renamed line (hkeeps.renamed line hline)
  size hfile := by
    rcases hkeeps.size hfile with ⟨hheld, hsize⟩ | hsize
    · rw [hsize, hkeeps.written, h.size hheld]
    · exact hsize

/-- A line goes to a fresh file when it would not fit. -/
theorem fits_append {line : List UInt8} (h : Filing start f handed groups last)
    (hheld : f.disk.writer.phase.holdsFile) (hrotate : f.disk.writer.mustRotate line = false) :
    FitsFile start.disk.writer.maxSize (last ++ [line]) := by
  have hsize : f.disk.writer.size = _ := h.size hheld
  rw [h.current, List.length_append] at hsize
  rcases Nat.eq_zero_or_pos f.disk.writer.size with hzero | hpos
  · have hnil : linesText last = [] := List.eq_nil_of_length_eq_zero (by omega)
    rw [linesText_eq_nil.mp hnil]
    exact Or.inr ⟨line, rfl⟩
  · have hle : f.disk.writer.size + (line.length + 1) ≤ start.disk.writer.maxSize := by
      rw [← h.sound.maxSize]
      simpa [LogWriter.mustRotate, hpos] using hrotate
    left
    rw [linesText_append, List.length_append]
    simp only [linesText, List.flatMap_singleton, List.length_append, List.length_singleton] at hsize ⊢
    omega

theorem appends {line : List UInt8} (h : Filing start f handed groups last)
    (hsound : f.Sound f') (happends : f.Appends action f' line) :
    Filing start f' (handed ++ action.handed) groups (last ++ [line]) where
  sound := h.sound_step hsound
  lines := by
    rw [happends.pending_nil, ← h.lines, List.append_assoc _ _ action.handed, happends.pending]
    simp
  older := happends.rotated ▸ h.older
  current := by rw [happends.written, h.current, linesText_append, List.append_assoc]
  present := happends.rotated ▸ h.present
  fits lines hlines := by
    rcases List.mem_append.mp hlines with hold | hnew
    · exact h.fits lines (List.mem_append_left _ hold)
    · obtain rfl := List.mem_singleton.mp hnew
      rcases happends.size with ⟨hheld, hrotate, -⟩ | ⟨hrenamed, -⟩
      · exact h.fits_append hheld hrotate
      · obtain ⟨-, rfl⟩ := h.renamed line hrenamed
        exact Or.inr ⟨line, rfl⟩
  renamed line' hline' := absurd hline' (happends.renamed line')
  size _ := by
    rw [happends.written, List.length_append]
    have hlength : (linesText [line]).length = line.length + 1 := by simp [linesText]
    rcases happends.size with ⟨hheld, -, hsize⟩ | ⟨hrenamed, hsize⟩
    · rw [hsize, h.size hheld, hlength]
    · obtain ⟨hne, rfl⟩ := h.renamed line hrenamed
      rw [hsize, h.current, if_neg hne, hlength]
      simp [linesText]

theorem shifts (h : Filing start f handed groups last) (hmaxFiles : 0 < start.disk.writer.maxFiles)
    (hsound : f.Sound f') (hshifts : f.Shifts action f') :
    Filing start f' (handed ++ action.handed) (groups ++ [last]) [] where
  sound := h.sound_step hsound
  lines := by
    rw [hshifts.pending, ← h.lines]
    simp
  older := by
    have hshift : (f.rotated start.disk.writer.maxFiles).toList ++
        generations (shiftRotated f.rotated start.disk.writer.maxFiles (some f.written))
          start.disk.writer.maxFiles =
        generations f.rotated start.disk.writer.maxFiles ++ [f.written] :=
      generations_shiftRotated hmaxFiles f.written
    rw [hshifts.rotated, h.sound.maxFiles, filledFiles_concat, ← List.append_assoc, ← h.current]
    refine List.IsSuffix.trans ⟨_, hshift⟩ ?_
    exact List.suffix_append_self_iff.mpr h.older
  current := by simp [hshifts.written, linesText]
  present i hi hle := by
    rw [List.length_append, List.length_singleton] at hle
    rw [hshifts.rotated, h.sound.maxFiles]
    obtain ⟨n, rfl⟩ : ∃ n, i = n + 1 := ⟨i - 1, by omega⟩
    rcases Nat.eq_zero_or_pos n with rfl | hn
    · rw [shiftRotated_one]; rfl
    · rw [shiftRotated_succ hn (by omega)]
      exact h.present n hn (by omega)
  fits lines hlines := by
    rcases List.mem_append.mp hlines with hold | hnew
    · exact h.fits lines hold
    · exact List.mem_singleton.mp hnew ▸ fitsFile_nil _
  renamed _ _ := ⟨by simp, rfl⟩
  size hfile := by simp [hshifts.holdsFile] at hfile

/-- Every step files the lines. -/
theorem step (h : Filing start f handed groups last) (hmaxFiles : 0 < start.disk.writer.maxFiles)
    (hstep : f.step action = some f') :
    ∃ groups last, Filing start f' (handed ++ action.handed) groups last := by
  obtain ⟨hsound, hkeeps | ⟨line, happends⟩ | hshifts⟩ :=
    step_cases (h.sound.maxFiles ▸ hmaxFiles) h.sound.buffer hstep
  · exact ⟨_, _, h.keeps hsound hkeeps⟩
  · exact ⟨_, _, h.appends hsound happends⟩
  · exact ⟨_, _, h.shifts hmaxFiles hsound hshifts⟩

/-- So does every run. -/
theorem run {actions : List WriteAction} (hmaxFiles : 0 < start.disk.writer.maxFiles)
    (h : Filing start f handed groups last) (hrun : logFolder.run f actions = some f') :
    ∃ groups last, Filing start f' (handed ++ actions.flatMap WriteAction.handed) groups last := by
  induction actions generalizing f handed groups last with
  | nil =>
    obtain rfl : f = f' := Option.some.inj hrun
    exact ⟨groups, last, by simpa using h⟩
  | cons action actions ih =>
    obtain ⟨f₁, hstep, hrest⟩ := Option.bind_eq_some_iff.mp hrun
    obtain ⟨groups', last', h'⟩ := h.step hmaxFiles hstep
    simpa using ih h' hrest

/-- What is kept of what was filed. -/
theorem retains (h : Filing start f handed groups last) (hstart : start.disk.writer.buffer = []) :
    Retention start f handed (groups ++ [last]) := by
  have hfiles : f.retained <:+ generations start.rotated start.disk.writer.maxFiles ++
      filledFiles (start.disk.current.getD []) (groups ++ [last]) := by
    rw [retained, h.sound.maxFiles, filledFiles_concat, ← h.current, ← List.append_assoc]
    exact List.suffix_append_self_iff.mpr h.older
  refine ⟨by simpa using h.lines, hfiles, ?_, ?_, h.fits, h.size⟩
  · have hlength := le_length_generations h.present (n := start.disk.writer.maxFiles)
    rw [retained, h.sound.maxFiles, List.length_append, List.length_append, List.length_singleton,
      List.length_singleton]
    omega
  · obtain ⟨dropped, hdropped⟩ := hfiles
    refine ⟨dropped.flatten, ?_⟩
    rw [← List.flatten_append, hdropped, List.flatten_append, flatten_filledFiles (by simp)]
    simp [retained, written, hstart]

end Filing

/-- **What rotation keeps.** Whatever files there are at the start, a writer that keeps a history
puts every line it is handed into one file, in order, and starts no file it would not fit into
unless it is longer than any file may be. The files that are there are always the last ones, and
the writer knows how large its own is. -/
theorem retention (maxSize : ℕ) {maxFiles : ℕ} (hmaxFiles : 0 < maxFiles)
    (rotated : ℕ → Option (List UInt8)) (current : Option (List UInt8))
    {actions : List WriteAction} {f : LogFolder}
    (h : logFolder.run (initial maxSize maxFiles rotated current) actions = some f) :
    ∃ groups, Retention (initial maxSize maxFiles rotated current) f
      (actions.flatMap WriteAction.handed) groups := by
  obtain ⟨groups, last, hfiling⟩ :=
    (filing_initial maxSize maxFiles rotated current).run hmaxFiles h
  exact ⟨groups ++ [last], hfiling.retains rfl⟩

/-- Room for one line of three bytes and one rotated file: of three lines, the first falls off. -/
theorem retention_three_lines : ∃ f, f.retained = [[100, 10], [101, 102, 10]] ∧
    ∃ groups, Retention (initial 4 1 (fun _ => none) none) f [[97, 98, 99], [100], [101, 102]]
      groups := by
  let actions : List WriteAction := [.open', .writeLine [97, 98, 99], .writeLine [100], .spill 4,
    .rename, .create, .writeLine [101, 102], .spill 2, .rename, .create]
  obtain ⟨f, hrun, hretained⟩ : ∃ f,
      logFolder.run (initial 4 1 (fun _ => none) none) actions = some f ∧
        f.retained = [[100, 10], [101, 102, 10]] :=
    Option.map_eq_some_iff.mp (by decide)
  exact ⟨f, hretained, retention 4 (by decide) (fun _ => none) none hrun⟩

/-! ### Every sequence of lines can be written -/

/-- A run from the one folder to the other hands over the lines. -/
def Hands (f : LogFolder) (lines : List (List UInt8)) (f' : LogFolder) : Prop :=
  ∃ actions, logFolder.run f actions = some f' ∧ actions.flatMap WriteAction.handed = lines

theorem Hands.trans {lines lines' : List (List UInt8)} {f₁ : LogFolder} (h : f.Hands lines f₁)
    (h' : f₁.Hands lines' f') : f.Hands (lines ++ lines') f' := by
  obtain ⟨actions, hrun, rfl⟩ := h
  obtain ⟨actions', hrun', rfl⟩ := h'
  exact ⟨actions ++ actions', by rw [logFolder.run_append, hrun]; exact hrun', List.flatMap_append⟩

theorem Hands.of_step (h : f.step action = some f') : f.Hands action.handed f' :=
  ⟨[action], by rw [TransitionSystem.run_cons]; exact Option.bind_eq_some_iff.mpr ⟨f', h, rfl⟩,
    List.flatMap_singleton ..⟩

/-- The writer waits for the next line. -/
def Ready (f : LogFolder) : Prop := f.disk.writer.phase = .ready ∧ f.disk.current.isSome

/-- A flush returns. -/
theorem exists_ready (hphase : f.disk.writer.phase = .flushing ∨ f.disk.writer.phase = .ready)
    (hcurrent : f.disk.current.isSome) : ∃ f', f.Hands [] f' ∧ f'.Ready := by
  rcases hphase with hphase | hphase
  · obtain ⟨file, hfile⟩ := Option.isSome_iff_exists.mp hcurrent
    obtain ⟨f₁, hspill, hphase₁, hbuffer₁, hcurrent₁⟩ : ∃ f₁,
        f.step (.spill f.disk.writer.buffer.length) = some f₁ ∧ f₁.disk.writer.phase = .flushing ∧
          f₁.disk.writer.buffer = [] ∧ f₁.disk.current.isSome := by
      simp [step, LogDisk.write, hfile, hphase]
    obtain ⟨f₂, hflushed, hready⟩ : ∃ f₂, f₁.step .flushed = some f₂ ∧ f₂.Ready := by
      simp [step, LogDisk.write, hphase₁, hbuffer₁, Ready, hcurrent₁]
    exact ⟨f₂, (Hands.of_step hspill).trans (.of_step hflushed), hready⟩
  · exact ⟨f, ⟨[], rfl, rfl⟩, hphase, hcurrent⟩

/-- `rotate` returns, and the line is handed to the buffer. -/
theorem exists_rotated {line : List UInt8} (hphase : f.disk.writer.phase = .rotating line)
    (hcurrent : f.disk.current.isSome) : ∃ f', f.Hands [] f' ∧
      (f'.disk.writer.phase = .flushing ∨ f'.disk.writer.phase = .ready) ∧
        f'.disk.current.isSome := by
  obtain ⟨file, hfile⟩ := Option.isSome_iff_exists.mp hcurrent
  obtain ⟨f₁, hspill, hphase₁, hbuffer₁, hcurrent₁⟩ : ∃ f₁,
      f.step (.spill f.disk.writer.buffer.length) = some f₁ ∧
        f₁.disk.writer.phase = .rotating line ∧ f₁.disk.writer.buffer = [] ∧
          f₁.disk.current.isSome := by
    simp [step, LogDisk.write, hfile, hphase]
  obtain ⟨file₁, hfile₁⟩ := Option.isSome_iff_exists.mp hcurrent₁
  by_cases hzero : f₁.disk.writer.maxFiles = 0
  · obtain ⟨f₂, hrename, hphase₂, hcurrent₂⟩ : ∃ f₂, f₁.step .rename = some f₂ ∧
        f₂.disk.writer.phase = (LogWriter.append { f₁.disk.writer with size := 0 } line).phase ∧
          f₂.disk.current.isSome := by
      simp [step, LogDisk.write, hphase₁, hbuffer₁, hfile₁, hzero]
    exact ⟨f₂, (Hands.of_step hspill).trans (.of_step hrename), hphase₂ ▸ phase_append _ _,
      hcurrent₂⟩
  · obtain ⟨f₂, hrename, hphase₂⟩ : ∃ f₂, f₁.step .rename = some f₂ ∧
        f₂.disk.writer.phase = .renamed line := by
      simp [step, LogDisk.write, hphase₁, hbuffer₁, hfile₁, hzero]
    obtain ⟨f₃, hcreate, hphase₃, hcurrent₃⟩ : ∃ f₃, f₂.step .create = some f₃ ∧
        f₃.disk.writer.phase = (LogWriter.append { f₂.disk.writer with size := 0 } line).phase ∧
          f₃.disk.current.isSome := by
      simp [step, LogDisk.write, hphase₂]
    exact ⟨f₃, ((Hands.of_step hspill).trans (.of_step hrename)).trans (.of_step hcreate),
      hphase₃ ▸ phase_append _ _, hcurrent₃⟩

/-- A call of `write_line` returns. -/
theorem exists_write_line (h : f.Ready) (line : List UInt8) :
    ∃ f', f.Hands [line] f' ∧ f'.Ready := by
  obtain ⟨hphase, hcurrent⟩ := h
  rcases hrotate : f.disk.writer.mustRotate line with _ | _
  · obtain ⟨f₁, hwrite, heq⟩ : ∃ f₁, f.step (.writeLine line) = some f₁ ∧
        f₁.disk = { f.disk with writer := f.disk.writer.append line } := by
      simp [step, LogDisk.write, hphase, hrotate]
    obtain ⟨f', hsettle, hready⟩ : ∃ f', f₁.Hands [] f' ∧ f'.Ready :=
      exists_ready (heq ▸ phase_append _ _) (heq ▸ hcurrent)
    exact ⟨f', (Hands.of_step hwrite).trans hsettle, hready⟩
  · obtain ⟨f₁, hwrite, hphase₁, hcurrent₁⟩ : ∃ f₁, f.step (.writeLine line) = some f₁ ∧
        f₁.disk.writer.phase = .rotating line ∧ f₁.disk.current.isSome := by
      simp [step, LogDisk.write, hphase, hrotate, hcurrent]
    obtain ⟨f₂, hrotated, hphase₂, hcurrent₂⟩ := exists_rotated hphase₁ hcurrent₁
    obtain ⟨f', hsettle, hready⟩ := exists_ready hphase₂ hcurrent₂
    exact ⟨f', ((Hands.of_step hwrite).trans hrotated).trans hsettle, hready⟩

/-- Every sequence of lines can be written. -/
theorem exists_run (maxSize maxFiles : ℕ) (rotated : ℕ → Option (List UInt8))
    (current : Option (List UInt8)) (lines : List (List UInt8)) :
    ∃ f, (initial maxSize maxFiles rotated current).Hands lines f ∧ f.Ready := by
  induction lines using List.reverseRecOn with
  | nil =>
    obtain ⟨f, hopen, hready⟩ : ∃ f, (initial maxSize maxFiles rotated current).step .open' = some f ∧
        f.Ready := by
      simp [step, LogDisk.write, initial, Ready]
    exact ⟨f, .of_step hopen, hready⟩
  | append_singleton lines line ih =>
    obtain ⟨f, hhands, hready⟩ := ih
    obtain ⟨f', hline, hready'⟩ := exists_write_line hready line
    exact ⟨f', hhands.trans hline, hready'⟩

end LogFolder

end Servicrab
