import Servicrab.Logs.Excess
import Servicrab.Logs.Rotation
import Servicrab.Logs.Router

/-!
# Writers on a shared directory refine folders

As long as its file operations succeed, a writer on a shared directory does what a log folder says
that it does: a call of `write_line` is a run of the folder that hands over the line, and a call of
`flush` is one after which nothing is buffered. So what rotation keeps in a folder, it keeps in the
directory.

The folder has the files by their numbers, and the directory by their names. They stay in step since
no two numbers stand for one file: what is appended to the current file is appended to no other.

## Main definitions

* `LogFolder.Shows`: a folder has what a directory has at a path.
* `FileWriter.Serves`: a writer between two calls, and the folder.

## Main results

* `FileWriter.Serves.exists_writeLine`, `FileWriter.Serves.exists_flush`.
* `FileWriter.exists_openLog`.
-/

namespace Servicrab

/-- The file operations succeed. -/
def Io.Succeeds (io : Io) : Prop := ∀ op, io.fails op = false

theorem Io.succeeds_quiet : Io.quiet.Succeeds := fun _ => rfl

/-- What a directory has at a path, is in a folder. -/
structure LogFolder.Shows (path : String) (d : LogDir) (f : LogFolder) : Prop where
  current : f.disk.current = (slots path d 0).map d.content
  rotated : ∀ n, 0 < n → n ≤ f.disk.writer.maxFiles → f.rotated n = (slots path d n).map d.content
  distinct : ∀ m n, m ≤ f.disk.writer.maxFiles → n ≤ f.disk.writer.maxFiles →
    ∀ file, slots path d m = some file → slots path d n = some file → m = n

/-- Files get other names, or lose theirs. -/
structure MovesNames (d d' : LogDir) : Prop where
  content : d'.content = d.content
  created : d'.created = d.created
  named : ∀ name file, d'.entries name = some file → ∃ name', d.entries name' = some file

section Names

variable {d d' d'' : LogDir}

theorem MovesNames.refl (d : LogDir) : MovesNames d d := ⟨rfl, rfl, fun name _ h => ⟨name, h⟩⟩

theorem MovesNames.trans (h : MovesNames d d') (h' : MovesNames d' d'') : MovesNames d d'' where
  content := h'.content.trans h.content
  created := h'.created.trans h.created
  named name file hfile := by
    obtain ⟨name', hfile'⟩ := h'.named name file hfile
    exact h.named name' file hfile'

theorem MovesNames.sound (h : MovesNames d d') (hsound : d.Sound) : d'.Sound := by
  intro name file hfile n hn
  obtain ⟨name', hfile'⟩ := h.named name file hfile
  exact h.created ▸ hsound name' file hfile' n hn

theorem movesNames_remove (d : LogDir) (name : String) : MovesNames d (d.remove name) := by
  refine ⟨rfl, rfl, fun other file hfile => ?_⟩
  simp only [FileStore.remove, Function.update_apply] at hfile
  split_ifs at hfile
  exact ⟨other, hfile⟩

theorem movesNames_rename (d : LogDir) (source target : String) :
    MovesNames d (d.rename source target) := by
  refine ⟨rfl, rfl, fun other file hfile => ?_⟩
  simp only [FileStore.rename, Function.update_apply] at hfile
  split_ifs at hfile
  · exact ⟨source, hfile⟩
  · exact ⟨other, hfile⟩

end Names

namespace FileWriter

variable {io : Io} {w : FileWriter} {d : LogDir}

theorem movesNames_removeOldest (io : Io) (w : FileWriter) (d : LogDir) :
    MovesNames d (w.removeOldest io d).2.2 := by
  rw [removeOldest]
  split_ifs
  · exact .refl d
  · exact movesNames_remove d _
  · exact .refl d

theorem movesNames_moveRotated (io : Io) (w : FileWriter) (n : ℕ) : ∀ d : LogDir,
    MovesNames d (w.moveRotated io n d).2.2 := by
  induction n with
  | zero => exact fun d => .refl d
  | succ n ih =>
    intro d
    rw [moveRotated]
    split_ifs
    · exact .refl d
    · exact (movesNames_rename d _ _).trans (ih _)
    · exact ih d

theorem movesNames_moveCurrent (io : Io) (w : FileWriter) (d : LogDir) :
    MovesNames d (w.moveCurrent io d).2.2 := by
  rw [moveCurrent]
  split_ifs
  · exact .refl d
  · exact movesNames_rename d _ _

/-- Every file moves up by one, and the one that falls off the end is gone. -/
theorem exists_moveFiles_eq (hio : io.Succeeds) (hpos : 0 < w.maxFiles)
    (hcurrent : (slots w.path d 0).isSome) : ∃ d',
      w.moveFiles io d = (.ok (), w.startOn (d'.openedFile w.path), d'.openName w.path) ∧
        MovesNames d d' ∧ slots w.path d' 0 = none ∧
          ∀ i < w.maxFiles, slots w.path d' (i + 1) = slots w.path d i := by
  have htop : w.maxFiles - 1 + 1 = w.maxFiles := Nat.sub_add_cancel hpos
  obtain ⟨d₁, hremove, hd₁⟩ : ∃ d₁, w.removeOldest io d = (.ok (), w, d₁) ∧
      slots w.path d₁ = Function.update (slots w.path d) w.maxFiles none := by
    rcases removeOldest_cases io w d hpos with ⟨-, hfails⟩ | hremoved
    · exact absurd hfails (by simp [hio .remove])
    · exact hremoved
  obtain ⟨d₂, hmove, hd₂⟩ : ∃ d₂, w.moveRotated io (w.maxFiles - 1) d₁ = (.ok (), w, d₂) ∧
      slots w.path d₂ = raised 0 w.maxFiles (slots w.path d) := by
    have hmoved := moved_moveRotated io w (w.maxFiles - 1) d₁
      (by rw [htop, hd₁, Function.update_self])
    generalize w.moveRotated io (w.maxFiles - 1) d₁ = attempt at hmoved ⊢
    cases hmoved with
    | all d₂ hd₂ => exact ⟨d₂, rfl, by rw [hd₂, htop, hd₁, raised_update_none hpos]⟩
    | above k d₂ hd₂ hall hpos hle hsome hfails => exact absurd hfails (by simp [hio (.rename k)])
  have hzero : slots w.path d₂ 0 = slots w.path d 0 := by rw [hd₂, raised_of_le le_rfl]
  obtain ⟨d₃, hrename, hd₃⟩ : ∃ d₃, w.moveCurrent io d₂ = (.ok (), w, d₃) ∧ slots w.path d₃ =
      Function.update (Function.update (slots w.path d₂) 1 (slots w.path d₂ 0)) 0 none := by
    rcases moveCurrent_cases io w d₂ with herror | ⟨-, -, hrenamed⟩
    · have hsome : (d₂.entries w.path).isSome := by
        rw [← hzero] at hcurrent
        exact hcurrent
      rw [moveCurrent, if_neg (by simp [hio (.rename 0), Option.isSome_iff_ne_none.mp hsome])] at herror
      cases herror
    · exact hrenamed
  refine ⟨d₃, ?_, ?_, by rw [hd₃, Function.update_self], fun i hi => ?_⟩
  · simp only [moveFiles, hremove, hmove, hrename, LogAttempt.andThen]
    rw [reopen, if_neg (by simp [hio .reopen])]
  · have hfirst := movesNames_removeOldest io w d
    have hsecond := movesNames_moveRotated io w (w.maxFiles - 1) d₁
    have hthird := movesNames_moveCurrent io w d₂
    rw [hremove] at hfirst
    rw [hmove] at hsecond
    rw [hrename] at hthird
    exact (hfirst.trans hsecond).trans hthird
  · rw [hd₃, Function.update_of_ne i.succ_ne_zero]
    by_cases hi' : i = 0
    · rw [hi', Function.update_self, hzero]
    · rw [Function.update_of_ne (by omega), hd₂, raised_succ (Nat.pos_of_ne_zero hi') hi]

end FileWriter

/-! ### What a folder shows -/

namespace LogFolder

variable {path : String} {d d' : LogDir} {f f' : LogFolder} {file : FileId String}

theorem slots_zero (path : String) (d : LogDir) : slots path d 0 = d.entries path := rfl

/-- Nothing that a folder shows has changed. -/
theorem Shows.congr (h : Shows path d f) (hmaxFiles : f'.disk.writer.maxFiles = f.disk.writer.maxFiles)
    (hrotated : f'.rotated = f.rotated) (hcurrent : f'.disk.current = f.disk.current) :
    Shows path d f' where
  current := hcurrent.trans h.current
  rotated n hn hle := by rw [hrotated, h.rotated n hn (hmaxFiles ▸ hle)]
  distinct m n hm hn := h.distinct m n (hmaxFiles ▸ hm) (hmaxFiles ▸ hn)

theorem Hands.maxFiles {lines : List (List UInt8)} (h : f.Hands lines f') :
    f'.disk.writer.maxFiles = f.disk.writer.maxFiles := by
  obtain ⟨actions, hrun, -⟩ := h
  exact (rotated_above_run hrun).1

/-- Nothing has changed in the directory of what a folder shows. -/
theorem Shows.frame (h : Shows path d f) (hslots : slots path d' = slots path d)
    (hcontent : ∀ n file, slots path d n = some file → d'.content file = d.content file) :
    Shows path d' f where
  current := by
    rw [h.current, hslots]
    exact Option.map_congr fun file hfile => (hcontent 0 file hfile).symm
  rotated n hn hle := by
    rw [h.rotated n hn hle, hslots]
    exact Option.map_congr fun file hfile => (hcontent n file hfile).symm
  distinct := hslots ▸ h.distinct

/-- Some of the buffer is written through to the open file. -/
theorem Shows.exists_spill (h : Shows path d f) (hfile : slots path d 0 = some file) (count : ℕ) :
    ∃ f', f.Hands [] f' ∧
      f'.disk.writer = { f.disk.writer with buffer := f.disk.writer.buffer.drop count } ∧
      Shows path (d.append file (f.disk.writer.buffer.take count)) f' := by
  have hcurrent : f.disk.current = some (d.content file) := by rw [h.current, hfile]; rfl
  have hspill : f.step (.spill count) = some {
      disk := { f.disk with
        writer := { f.disk.writer with buffer := f.disk.writer.buffer.drop count }
        current := some (d.content file ++ f.disk.writer.buffer.take count) }
      rotated := f.rotated } := by
    simp [step, LogDisk.write, hcurrent]
  refine ⟨_, .of_step hspill, rfl, ?_⟩
  have hslots : slots path (d.append file (f.disk.writer.buffer.take count)) = slots path d :=
    slots_congr rfl
  refine ⟨?_, fun n hn hle => ?_, fun m n hm hn => ?_⟩
  · rw [hslots, hfile]
    simp [FileStore.append]
  · rw [hslots]
    refine (h.rotated n hn hle).trans ?_
    cases hother : slots path d n with
    | none => rfl
    | some other =>
      -- The open file has no other number.
      have hne : other ≠ file := by
        rintro rfl
        exact absurd (h.distinct 0 n (Nat.zero_le _) hle other hfile hother) hn.ne
      simp [FileStore.append, Function.update_of_ne hne]
  · rw [hslots]
    exact h.distinct m n hm hn

/-- A file is opened at the path, and created if there is none. -/
theorem Shows.openName (h : Shows path d f) (hsound : d.Sound)
    (hmaxFiles : f'.disk.writer.maxFiles = f.disk.writer.maxFiles)
    (hrotated : f'.rotated = f.rotated)
    (hcurrent : f'.disk.current = some (f.disk.current.getD [])) :
    Shows path (d.openName path) f' ∧
      slots path (d.openName path) 0 = some (d.openedFile path) := by
  cases hfile : d.entries path with
  | some file =>
    have hopen : d.openName path = d := by rw [FileStore.openName, hfile]
    have hcurrent' : f.disk.current = some (d.content file) := by
      rw [h.current, slots_zero, hfile, Option.map_some]
    rw [hopen, FileStore.openedFile, slots_zero, hfile]
    refine ⟨h.congr hmaxFiles hrotated ?_, rfl⟩
    rw [hcurrent, hcurrent', Option.getD_some]
  | none =>
    have hnew : ∀ n, slots path d n ≠ some (.created d.created) := fun n hn =>
      absurd (hsound _ _ hn _ rfl) (lt_irrefl _)
    have hslots : slots path (d.openName path) =
        Function.update (slots path d) 0 (some (.created d.created)) := by
      funext n
      have hpath : logPath path n = path ↔ n = 0 := (logPath_injective path).eq_iff (b := 0)
      rw [FileStore.openName, hfile]
      simp only [slots, Function.update_apply, hpath]
    have hcontent : ∀ file, file ≠ .created d.created →
        (d.openName path).content file = d.content file := by
      intro file hne
      rw [FileStore.openName, hfile]
      exact Function.update_of_ne hne _ _
    have hempty : (d.openName path).content (.created d.created) = [] := by
      rw [FileStore.openName, hfile]
      exact Function.update_self _ _ _
    rw [FileStore.openedFile, hfile, hslots]
    refine ⟨⟨?_, fun n hn hle => ?_, fun m n hm hn file hm' hn' => ?_⟩, Function.update_self _ _ _⟩
    · rw [hslots, Function.update_self, Option.map_some, hempty, hcurrent, h.current, slots_zero,
        hfile, Option.map_none, Option.getD_none]
    · rw [hslots, Function.update_of_ne hn.ne', hrotated, h.rotated n hn (hmaxFiles ▸ hle)]
      cases hother : slots path d n with
      | none => rfl
      | some other =>
        rw [Option.map_some, Option.map_some, hcontent other fun heq => hnew n (heq ▸ hother)]
    · rw [hmaxFiles] at hm hn
      rw [hslots, Function.update_apply] at hm' hn'
      split_ifs at hm' hn' with hzero hzero' hzero'
      · rw [hzero, hzero']
      · exact absurd (hn'.trans hm'.symm) (hnew n)
      · exact absurd (hm'.trans hn'.symm) (hnew m)
      · exact h.distinct m n hm hn file hm' hn'

/-- Every file has moved up by one. -/
theorem Shows.shift (h : Shows path d f) (hmoves : MovesNames d d') (hzero : slots path d' 0 = none)
    (hslots : ∀ i < f.disk.writer.maxFiles, slots path d' (i + 1) = slots path d i)
    (hmaxFiles : f'.disk.writer.maxFiles = f.disk.writer.maxFiles)
    (hrotated : f'.rotated = shiftRotated f.rotated f.disk.writer.maxFiles f.disk.current)
    (hcurrent : f'.disk.current = none) : Shows path d' f' where
  current := by rw [hcurrent, hzero, Option.map_none]
  rotated n hn hle := by
    obtain ⟨i, rfl⟩ := Nat.exists_eq_succ_of_ne_zero hn.ne'
    rw [hmaxFiles] at hle
    rw [hrotated, hslots i hle, hmoves.content]
    rcases Nat.eq_zero_or_pos i with rfl | hi
    · rw [shiftRotated_one, h.current]
    · rw [shiftRotated_succ hi hle, h.rotated i hi (Nat.le_of_succ_le hle)]
  distinct m n hm hn file hfile hfile' := by
    rw [hmaxFiles] at hm hn
    cases m with
    | zero => rw [hzero] at hfile; cases hfile
    | succ m =>
      cases n with
      | zero => rw [hzero] at hfile'; cases hfile'
      | succ n =>
        rw [hslots m hm] at hfile
        rw [hslots n hn] at hfile'
        rw [h.distinct m n (Nat.le_of_succ_le hm) (Nat.le_of_succ_le hn) file hfile hfile']

/-! #### Steps of a folder -/

theorem exists_opened (hphase : f.disk.writer.phase = .closed) : ∃ f', f.Hands [] f' ∧
    f'.disk.writer = { f.disk.writer with
      buffer := [], size := (f.disk.current.getD []).length, unflushed := 0, phase := .ready } ∧
    f'.disk.current = some (f.disk.current.getD []) ∧ f'.rotated = f.rotated := by
  have hstep : f.step .open' = some { f with disk := { f.disk with
      writer := { f.disk.writer with
        buffer := [], size := (f.disk.current.getD []).length, unflushed := 0, phase := .ready }
      current := some (f.disk.current.getD []) } } := by
    simp [step, LogDisk.write, hphase]
  exact ⟨_, .of_step hstep, rfl, rfl, rfl⟩

theorem exists_flush (hphase : f.disk.writer.phase = .ready) : ∃ f', f.Hands [] f' ∧
    f'.disk.writer = { f.disk.writer with unflushed := 0, phase := .flushing } ∧
      f'.disk.current = f.disk.current ∧ f'.rotated = f.rotated := by
  have hstep : f.step .flush = some { f with disk := { f.disk with
      writer := { f.disk.writer with unflushed := 0, phase := .flushing } } } := by
    simp [step, LogDisk.write, hphase]
  exact ⟨_, .of_step hstep, rfl, rfl, rfl⟩

theorem exists_flushed (hphase : f.disk.writer.phase = .flushing)
    (hbuffer : f.disk.writer.buffer = []) : ∃ f', f.Hands [] f' ∧
      f'.disk.writer = { f.disk.writer with phase := .ready } ∧
        f'.disk.current = f.disk.current ∧ f'.rotated = f.rotated := by
  have hstep : f.step .flushed = some { f with disk := { f.disk with
      writer := { f.disk.writer with phase := .ready } } } := by
    simp [step, LogDisk.write, hphase, hbuffer]
  exact ⟨_, .of_step hstep, rfl, rfl, rfl⟩

theorem exists_append {line : List UInt8} (hphase : f.disk.writer.phase = .ready)
    (hrotate : f.disk.writer.mustRotate line = false) : ∃ f', f.Hands [line] f' ∧
      f'.disk.writer = f.disk.writer.append line ∧
        f'.disk.current = f.disk.current ∧ f'.rotated = f.rotated := by
  have hstep : f.step (.writeLine line) = some { f with disk := { f.disk with
      writer := f.disk.writer.append line } } := by
    simp [step, LogDisk.write, hphase, hrotate]
  exact ⟨_, .of_step hstep, rfl, rfl, rfl⟩

theorem exists_rotating {line : List UInt8} (hphase : f.disk.writer.phase = .ready)
    (hrotate : f.disk.writer.mustRotate line) : ∃ f', f.Hands [line] f' ∧
      f'.disk.writer = { f.disk.writer with unflushed := 0, phase := .rotating line } ∧
        f'.disk.current = f.disk.current ∧ f'.rotated = f.rotated := by
  have hstep : f.step (.writeLine line) = some { f with disk := { f.disk with
      writer := { f.disk.writer with unflushed := 0, phase := .rotating line } } } := by
    simp [step, LogDisk.write, hphase, hrotate]
  exact ⟨_, .of_step hstep, rfl, rfl, rfl⟩

theorem exists_renamed {line : List UInt8} (hphase : f.disk.writer.phase = .rotating line)
    (hcurrent : f.disk.current.isSome) (hbuffer : f.disk.writer.buffer = [])
    (hpos : 0 < f.disk.writer.maxFiles) : ∃ f', f.Hands [] f' ∧
      f'.disk.writer = { f.disk.writer with phase := .renamed line } ∧ f'.disk.current = none ∧
        f'.rotated = shiftRotated f.rotated f.disk.writer.maxFiles f.disk.current := by
  obtain ⟨file, hfile⟩ := Option.isSome_iff_exists.mp hcurrent
  have hstep : f.step .rename = some {
      disk := {
        writer := { f.disk.writer with phase := .renamed line }
        past := f.disk.past ++ [file]
        current := none }
      rotated := shiftRotated f.rotated f.disk.writer.maxFiles f.disk.current } := by
    simp [step, LogDisk.write, hphase, hfile, hbuffer, hpos.ne']
  exact ⟨_, .of_step hstep, rfl, rfl, rfl⟩

theorem exists_created {line : List UInt8} (hphase : f.disk.writer.phase = .renamed line) : ∃ f',
    f.Hands [] f' ∧ f'.disk.writer = LogWriter.append { f.disk.writer with size := 0 } line ∧
      f'.disk.current = some (f.disk.current.getD []) ∧ f'.rotated = f.rotated := by
  have hstep : f.step .create = some { f with disk := { f.disk with
      writer := LogWriter.append { f.disk.writer with size := 0 } line
      current := some (f.disk.current.getD []) } } := by
    simp [step, LogDisk.write, hphase]
  exact ⟨_, .of_step hstep, rfl, rfl, rfl⟩

end LogFolder

/-! ### Calls of a writer -/

theorem LogWriter.append_of_le {w : LogWriter} (h : flushEveryLines ≤ w.unflushed + 1)
    (line : List UInt8) : w.append line = { w with
      buffer := w.buffer ++ line ++ [newline]
      size := w.size + (line.length + 1)
      unflushed := 0
      phase := .flushing } := if_pos h

theorem LogWriter.append_of_lt {w : LogWriter} (h : ¬flushEveryLines ≤ w.unflushed + 1)
    (line : List UInt8) : w.append line = { w with
      buffer := w.buffer ++ line ++ [newline]
      size := w.size + (line.length + 1)
      unflushed := w.unflushed + 1
      phase := .ready } := if_neg h

namespace FileWriter

/-- The writer, as the one of a folder. -/
def shown (w : FileWriter) (phase : WritePhase) : LogWriter where
  maxSize := w.maxSize
  maxFiles := w.maxFiles
  buffer := w.buffer
  size := w.size
  unflushed := w.unflushed
  phase := phase

/-- A writer has the file at its path open, and the folder shows it. -/
structure Serves (w : FileWriter) (d : LogDir) (f : LogFolder) : Prop where
  writer : f.disk.writer = w.shown .ready
  file : slots w.path d 0 = some w.file
  shows' : f.Shows w.path d

variable {io : Io} {w : FileWriter} {d : LogDir} {f : LogFolder} {line : List UInt8}

theorem flush_eq (hio : io.Succeeds) :
    w.flush io d = (.ok (), { w with unflushed := 0, buffer := [] }, d.append w.file w.buffer) := by
  rw [flush, if_neg (by simp [hio .flush])]

theorem writeAll_eq (hio : io.Succeeds) (op : LogOp) (data : List UInt8) :
    w.writeAll io d op data = (.ok (), { w with buffer := (w.buffer ++ data).drop (io.written op) },
      d.append w.file ((w.buffer ++ data).take (io.written op))) := by
  rw [writeAll, if_neg (by simp [hio op])]

/-- What is buffered in the folder reaches the file. -/
theorem exists_spill_all (h : f.Shows w.path d) (hfile : slots w.path d 0 = some w.file)
    (hbuffer : f.disk.writer.buffer = w.buffer) : ∃ f', f.Hands [] f' ∧
      f'.disk.writer = { f.disk.writer with buffer := [] } ∧
        f'.Shows w.path (d.append w.file w.buffer) := by
  obtain ⟨f', hspill, hwriter, hshows⟩ := h.exists_spill hfile w.buffer.length
  rw [hbuffer, List.take_length] at hshows
  rw [hbuffer, List.drop_length] at hwriter
  exact ⟨f', hspill, hwriter, hshows⟩

/-- A flush returns when nothing is buffered. -/
theorem exists_flushed (h : f.Shows w.path d) (hfile : slots w.path d 0 = some w.file)
    (hwriter : f.disk.writer = { w.shown .flushing with unflushed := 0 }) : ∃ f', f.Hands [] f' ∧
      Serves { w with unflushed := 0, buffer := [] } (d.append w.file w.buffer) f' := by
  obtain ⟨f₁, hspill, hwriter₁, hshows₁⟩ := exists_spill_all h hfile (by rw [hwriter]; rfl)
  rw [hwriter] at hwriter₁
  obtain ⟨f₂, hflushed, hwriter₂, hcurrent, hrotated⟩ :=
    LogFolder.exists_flushed (by rw [hwriter₁]; rfl) (by rw [hwriter₁])
  rw [hwriter₁] at hwriter₂
  refine ⟨f₂, hspill.trans hflushed, hwriter₂, hfile, hshows₁.congr ?_ hrotated hcurrent⟩
  rw [hwriter₂, hwriter₁]

/-- **A flush** leaves nothing buffered. -/
theorem Serves.exists_flush (h : w.Serves d f) (hio : io.Succeeds) : (w.flush io d).1 = .ok () ∧
    (w.flush io d).2.1.buffer = [] ∧
      ∃ f', f.Hands [] f' ∧ (w.flush io d).2.1.Serves (w.flush io d).2.2 f' := by
  obtain ⟨f₁, hflush, hwriter, hcurrent, hrotated⟩ :=
    LogFolder.exists_flush (by rw [h.writer]; rfl)
  rw [h.writer] at hwriter
  have hshows : f₁.Shows w.path d :=
    h.shows'.congr (by rw [hwriter, h.writer]) hrotated hcurrent
  obtain ⟨f', hhands, hserves⟩ := exists_flushed hshows h.file hwriter
  rw [flush_eq hio]
  exact ⟨rfl, rfl, f', hflush.trans hhands, hserves⟩

/-- A rotation has got every file out of the way of the line. -/
theorem Serves.exists_rotate (h : w.Serves d f) (hsound : d.Sound) (hio : io.Succeeds)
    (hpos : 0 < w.maxFiles) (hrotate : w.mustRotate line) : ∃ w' d' f',
      w.rotate io d = (.ok (), w', d') ∧ f.Hands [line] f' ∧
        f'.disk.writer = (w'.shown .ready).append line ∧
          slots w'.path d' 0 = some w'.file ∧ f'.Shows w'.path d' := by
  obtain ⟨f₁, hrotating, hwriter₁, hcurrent₁, hrotated₁⟩ : ∃ f₁, f.Hands [line] f₁ ∧
      f₁.disk.writer = { w.shown (.rotating line) with unflushed := 0 } ∧
        f₁.disk.current = f.disk.current ∧ f₁.rotated = f.rotated := by
    have hrotating := @LogFolder.exists_rotating f line
    rw [h.writer] at hrotating
    exact hrotating rfl hrotate
  have hshows₁ : f₁.Shows w.path d :=
    h.shows'.congr (by rw [hwriter₁, h.writer]; rfl) hrotated₁ hcurrent₁
  obtain ⟨f₂, hspill, hwriter₂, hshows₂⟩ := exists_spill_all hshows₁ h.file (by rw [hwriter₁]; rfl)
  rw [hwriter₁] at hwriter₂
  let w₁ : FileWriter := { w with unflushed := 0, buffer := [] }
  have hcurrent₂ : slots w₁.path (d.append w.file w.buffer) 0 = some w.file := h.file
  obtain ⟨d', hmove, hmoves, hzero, hslots⟩ := exists_moveFiles_eq hio
    (show 0 < w₁.maxFiles from hpos) (Option.isSome_iff_exists.mpr ⟨w.file, hcurrent₂⟩)
  have hmaxFiles : f₂.disk.writer.maxFiles = w.maxFiles := by rw [hwriter₂]; rfl
  obtain ⟨f₃, hrename, hwriter₃, hnone, hrotated₃⟩ : ∃ f₃, f₂.Hands [] f₃ ∧
      f₃.disk.writer = w₁.shown (.renamed line) ∧ f₃.disk.current = none ∧
        f₃.rotated = shiftRotated f₂.rotated f₂.disk.writer.maxFiles f₂.disk.current := by
    have hrename := @LogFolder.exists_renamed f₂ line
    rw [hwriter₂] at hrename ⊢
    refine hrename rfl ?_ rfl hpos
    rw [hshows₂.current, Option.isSome_map]
    exact Option.isSome_iff_exists.mpr ⟨w.file, hcurrent₂⟩
  have hshows₃ : f₃.Shows w.path d' :=
    hshows₂.shift hmoves hzero (hmaxFiles ▸ hslots) (by rw [hwriter₃, hwriter₂]; rfl) hrotated₃ hnone
  obtain ⟨f₄, hcreate, hwriter₄, hcurrent₄, hrotated₄⟩ := @LogFolder.exists_created f₃
    line (by rw [hwriter₃]; rfl)
  rw [hwriter₃] at hwriter₄
  have hmaxFiles₄ : f₄.disk.writer.maxFiles = f₃.disk.writer.maxFiles := by
    rw [hwriter₄, LogDisk.maxFiles_append, hwriter₃]
  obtain ⟨hshows₄, hfile₄⟩ :=
    hshows₃.openName (hmoves.sound hsound) hmaxFiles₄ hrotated₄ hcurrent₄
  refine ⟨w₁.startOn (d'.openedFile w.path), d'.openName w.path, f₄, ?_,
    ((hrotating.trans hspill).trans hrename).trans hcreate, hwriter₄, hfile₄, hshows₄⟩
  rw [rotate, flush_eq hio, LogAttempt.andThen, if_neg hpos.ne', hmove]

/-- What the two parts of a line come to that are written one after the other. -/
theorem exists_written (h : f.Shows w.path d) (hfile : slots w.path d 0 = some w.file)
    (hwriter : f.disk.writer = (w.shown .ready).append line) (count count' : ℕ) :
    ∃ f', f.Hands [] f' ∧
      f'.disk.writer = { (w.shown .ready).append line with
        buffer := ((w.buffer ++ line).drop count ++ [newline]).drop count' } ∧
      f'.Shows w.path ((d.append w.file ((w.buffer ++ line).take count)).append w.file
        (((w.buffer ++ line).drop count ++ [newline]).take count')) := by
  have hbuffer : f.disk.writer.buffer = w.buffer ++ line ++ [newline] := by
    rw [hwriter, LogWriter.append]
    split_ifs <;> rfl
  -- The line feed is not there yet when the first part is written.
  have hle : min count (w.buffer ++ line).length ≤ (w.buffer ++ line).length := min_le_right _ _
  obtain ⟨f₁, hspill₁, hwriter₁, hshows₁⟩ := h.exists_spill hfile (min count (w.buffer ++ line).length)
  rw [hbuffer, List.drop_append_of_le_length hle, ← List.drop_eq_drop_min] at hwriter₁
  rw [hbuffer, List.take_append_of_le_length hle, ← List.take_eq_take_min] at hshows₁
  have hfile₁ : slots w.path (d.append w.file ((w.buffer ++ line).take count)) 0 = some w.file := hfile
  obtain ⟨f₂, hspill₂, hwriter₂, hshows₂⟩ := hshows₁.exists_spill hfile₁ count'
  rw [hwriter₁] at hwriter₂ hshows₂
  exact ⟨f₂, hspill₁.trans hspill₂, by rw [hwriter₂, hwriter], hshows₂⟩

/-- **A write hands the line over.** -/
theorem Serves.exists_writeLine (h : w.Serves d f) (hsound : d.Sound) (hio : io.Succeeds)
    (hpos : 0 < w.maxFiles) : (w.writeLine io d line).1 = .ok () ∧
      ∃ f', f.Hands [line] f' ∧ (w.writeLine io d line).2.1.Serves (w.writeLine io d line).2.2 f' := by
  -- The line has been handed over once the file is there that it goes to.
  obtain ⟨w₁, d₁, f₁, hstart, hhands, hwriter₁, hfile₁, hshows₁⟩ : ∃ w₁ d₁ f₁,
      (if w.mustRotate line then w.rotate io d else (.ok (), w, d)) = (.ok (), w₁, d₁) ∧
        f.Hands [line] f₁ ∧ f₁.disk.writer = (w₁.shown .ready).append line ∧
          slots w₁.path d₁ 0 = some w₁.file ∧ f₁.Shows w₁.path d₁ := by
    split_ifs with hrotate
    · exact h.exists_rotate hsound hio hpos hrotate
    · have happend := @LogFolder.exists_append f line
      rw [h.writer] at happend
      obtain ⟨f₁, hhands, hwriter₁, hcurrent₁, hrotated₁⟩ := happend rfl (Bool.not_eq_true _ ▸ hrotate)
      refine ⟨w, d, f₁, rfl, hhands, hwriter₁, h.file, h.shows'.congr ?_ hrotated₁ hcurrent₁⟩
      rw [hwriter₁, LogDisk.maxFiles_append, h.writer]
  obtain ⟨f₂, hspill, hwriter₂, hshows₂⟩ :=
    exists_written hshows₁ hfile₁ hwriter₁ (io.written .write) (io.written .newline)
  rw [writeLine, hstart, LogAttempt.andThen, writeAll_eq hio, LogAttempt.andThen, writeAll_eq hio,
    LogAttempt.andThen]
  dsimp only
  split_ifs with hflush
  · rw [LogWriter.append_of_le hflush] at hwriter₂
    let w₂ : FileWriter := { w₁ with
      buffer := ((w₁.buffer ++ line).drop (io.written .write) ++ [newline]).drop (io.written .newline)
      size := w₁.size + (line.length + 1)
      unflushed := w₁.unflushed + 1 }
    obtain ⟨f', hflushed, hserves⟩ := @exists_flushed w₂ _ f₂ hshows₂ hfile₁ hwriter₂
    rw [flush_eq hio]
    have hall : f.Hands [line] f' := (hhands.trans hspill).trans hflushed
    exact ⟨rfl, f', hall, hserves⟩
  · rw [LogWriter.append_of_lt hflush] at hwriter₂
    exact ⟨rfl, f₂, hhands.trans hspill, hwriter₂, hfile₁, hshows₂⟩

/-- A log file is opened. -/
theorem exists_openLog {settings : LogSettings} {service : ServiceName} (hio : io.Succeeds)
    (hsound : d.Sound) (h : f.Shows (settings.fileFor service) d)
    (hphase : f.disk.writer.phase = .closed) (hmaxSize : f.disk.writer.maxSize = settings.maxSize)
    (hmaxFiles : f.disk.writer.maxFiles = settings.maxFiles) : ∃ w f',
      openLog io d settings service = (.ok w, d.openName (settings.fileFor service)) ∧
        f.Hands [] f' ∧ w.Serves (d.openName (settings.fileFor service)) f' := by
  obtain ⟨f', hopen, hwriter, hcurrent, hrotated⟩ := LogFolder.exists_opened hphase
  obtain ⟨hshows, hfile⟩ := h.openName hsound (by rw [hwriter]) hrotated hcurrent
  -- The writer finds out how large the file is that it has opened.
  have hcontent : f.disk.current.getD [] = (d.openName (settings.fileFor service)).content
      (d.openedFile (settings.fileFor service)) := by
    have hsame := hshows.current
    rw [hfile, hcurrent] at hsame
    exact Option.some.inj hsame
  refine ⟨{
    path := settings.fileFor service
    file := d.openedFile (settings.fileFor service)
    buffer := []
    size := (f.disk.current.getD []).length
    maxSize := settings.maxSize
    maxFiles := settings.maxFiles
    unflushed := 0 }, f', ?_, hopen, ⟨?_, hfile, hshows⟩⟩
  · rw [hcontent, openLog, if_neg (by simp [hio .createDir]), if_neg (by simp [hio .openLog])]
    dsimp only
    rw [if_neg (by simp [hio .metadata])]
  · rw [hwriter, ← hmaxSize, ← hmaxFiles]
    rfl

end FileWriter

/-! ### A router serves a folder for each service -/

/-- What is found in a directory of the files of a service. -/
def LogFolder.found (settings : LogSettings) (files : String → Option (List UInt8))
    (service : ServiceName) : LogFolder :=
  .initial settings.maxSize settings.maxFiles
    (fun n => files (logPath (settings.fileFor service) n)) (files (settings.fileFor service))

/-- The lines of a service that are recorded. -/
def RouterOp.recorded (service : ServiceName) : RouterOp → List (List UInt8)
  | .record _ other line => if other = service then [line] else []
  | .flush _ _ => []

/-- The file operations of an operation succeed. -/
def RouterOp.Succeeds : RouterOp → Prop
  | .record io _ _ => io.Succeeds
  | .flush io _ => io.Succeeds

namespace RouterState

/-- The folder shows the files of a service, and its writer if it has been opened. -/
structure Serves (s : RouterState) (service : ServiceName) (f : LogFolder) : Prop where
  maxFiles : f.disk.writer.maxFiles = s.router.settings.maxFiles
  opened : ∀ w, s.router.writers[service]? = some w → w.Serves s.dir f
  closed : s.router.writers[service]? = none →
    f.disk.writer = (LogFolder.found s.router.settings (fun _ => none) service).disk.writer ∧
      f.Shows (s.router.settings.fileFor service) s.dir

variable {s s' : RouterState} {service : ServiceName} {f f' : LogFolder}

/-- What is done for another service is not shown. -/
theorem Serves.of_sameLogs (h : s.Serves service f) (hapart : s.Apart)
    (hservice : NameRules 48 service.raw) (hsettings : s'.router.settings = s.router.settings)
    (hsame : SameLogs service s s') : s'.Serves service f := by
  have hpath : ∀ n, logPath (s.router.settings.fileFor service) n ∈
      s.router.settings.logFiles service := LogSettings.logPath_mem_logFiles hservice
  have hslots : slots (s.router.settings.fileFor service) s'.dir =
      slots (s.router.settings.fileFor service) s.dir := funext fun n => hsame.entries _ (hpath n)
  have hcontent : ∀ n file, slots (s.router.settings.fileFor service) s.dir n = some file →
      s'.dir.content file = s.dir.content file := fun n file hfile =>
    hsame.content file (.inl ⟨_, hpath n, hfile⟩)
  refine ⟨hsettings ▸ h.maxFiles, fun w hw => ?_, fun hnone => ?_⟩
  · rw [hsame.writer] at hw
    obtain ⟨hw', -⟩ := hapart.writer service w hw
    rw [← hw'] at hslots hcontent
    have hserves := h.opened w hw
    exact ⟨hserves.writer, (congrFun hslots 0).trans hserves.file,
      hserves.shows'.frame hslots hcontent⟩
  · rw [hsame.writer] at hnone
    rw [hsettings]
    exact ⟨(h.closed hnone).1, (h.closed hnone).2.frame hslots hcontent⟩

/-- The writer of the service is put back after a call. -/
theorem serves_putBack {w : FileWriter} {d : LogDir} {router : LogRouter}
    (hmaxFiles : f.disk.writer.maxFiles = router.settings.maxFiles) (h : w.Serves d f)
    (hwriter : router.writers[service]? = some w) : Serves { router, dir := d } service f := by
  refine ⟨hmaxFiles, fun w' hw' => ?_, fun hnone => ?_⟩
  · obtain rfl := Option.some.inj (hwriter.symm.trans hw')
    exact h
  · rw [hwriter] at hnone
    cases hnone

theorem Serves.flush (h : s.Serves service f) {io : Io} (hio : io.Succeeds) :
    ∃ f', f.Hands [] f' ∧ (s.step (.flush io service)).Serves service f' := by
  rw [step, LogRouter.flushWriter]
  cases hw : s.router.writers[service]? with
  | none => exact ⟨f, ⟨[], rfl, rfl⟩, h⟩
  | some w =>
    obtain ⟨-, -, f', hhands, hserves⟩ := (h.opened w hw).exists_flush hio
    refine ⟨f', hhands, serves_putBack (hhands.maxFiles.trans h.maxFiles) hserves ?_⟩
    exact (TreeMap.getElem?_insert _ _ _).trans (if_pos rfl)

theorem Serves.record (h : s.Serves service f) (hapart : s.Apart)
    (hpos : 0 < s.router.settings.maxFiles) (hexcluded : service ∉ s.router.excluded) {io : Io}
    (hio : io.Succeeds) (line : List UInt8) :
    ∃ f', f.Hands [line] f' ∧ (s.step (.record io service line)).Serves service f' := by
  obtain ⟨w, d, f₁, hwriter, hsound, hhands, hserves⟩ : ∃ w d f₁,
      s.router.writerFor io s.dir service = (.ok w, d) ∧ d.Sound ∧ f.Hands [] f₁ ∧ w.Serves d f₁ := by
    rw [LogRouter.writerFor]
    cases hw : s.router.writers[service]? with
    | some w => exact ⟨w, s.dir, f, rfl, hapart.sound, ⟨[], rfl, rfl⟩, h.opened w hw⟩
    | none =>
      obtain ⟨hclosed, hshows⟩ := h.closed hw
      obtain ⟨w, f₁, hopen, hhands, hserves⟩ := FileWriter.exists_openLog hio hapart.sound hshows
        (by rw [hclosed]; rfl) (by rw [hclosed]; rfl) (by rw [hclosed]; rfl)
      exact ⟨w, _, f₁, hopen, hapart.sound.openName _, hhands, hserves⟩
  have hmaxFiles : w.maxFiles = s.router.settings.maxFiles := by
    have hwriter' := congrArg LogWriter.maxFiles hserves.writer
    exact hwriter'.symm.trans (hhands.maxFiles.trans h.maxFiles)
  obtain ⟨hok, f', hline, hserves'⟩ := hserves.exists_writeLine hsound hio (hmaxFiles ▸ hpos)
  refine ⟨f', hhands.trans hline, ?_⟩
  rw [step, LogRouter.record, if_neg hexcluded, hwriter]
  dsimp only
  rw [LogRouter.writeFailure, hok]
  exact serves_putBack ((hhands.trans hline).maxFiles.trans h.maxFiles) hserves'
    ((TreeMap.getElem?_insert _ _ _).trans (if_pos rfl))

@[simp] theorem excluded_step (s : RouterState) (op : RouterOp) :
    (s.step op).router.excluded = s.router.excluded := by
  have hreport : ∀ (router : LogRouter) (message : String),
      (router.report message).2.excluded = router.excluded := by
    intro router message
    rw [LogRouter.report]
    split_ifs <;> rfl
  cases op with
  | record io service line =>
    rw [step, LogRouter.record]
    split_ifs
    · rfl
    rcases s.router.writerFor io s.dir service with ⟨_ | w, d⟩
    · exact hreport _ _
    · dsimp only
      split
      · exact hreport _ _
      · rfl
  | flush io service =>
    rw [step, LogRouter.flushWriter]
    cases s.router.writers[service]? <;> rfl

/-- A router of some settings at work: no file is of two services, and all services that have a
writer have accepted names. -/
structure Works (settings : LogSettings) (excluded : Finset ServiceName) (s : RouterState) :
    Prop where
  apart : s.Apart
  settings : s.router.settings = settings
  excluded : s.router.excluded = excluded
  named : ∀ (service : ServiceName) w, s.router.writers[service]? = some w →
    NameRules 48 service.raw

section Works

variable {settings : LogSettings} {excluded : Finset ServiceName}

theorem Works.step {op : RouterOp} (h : s.Works settings excluded)
    (hname : NameRules 48 op.service.raw) : (s.step op).Works settings excluded := by
  have hact := h.apart.actsFor_step op hname
  refine ⟨h.apart.step_actsFor hact hname, hact.settings.trans h.settings,
    (excluded_step s op).trans h.excluded, fun service w hw => ?_⟩
  by_cases heq : service = op.service
  · exact heq ▸ hname
  · rw [hact.others service heq] at hw
    exact h.named service w hw

/-- An operation hands over its line if it is for the service, and nothing if it is for another. -/
theorem Serves.step (h : s.Serves service f) (hworks : s.Works settings excluded)
    (hpos : 0 < settings.maxFiles) (hservice : NameRules 48 service.raw)
    (hexcluded : service ∉ excluded) {op : RouterOp} (hname : NameRules 48 op.service.raw)
    (hop : op.Succeeds) : ∃ f', f.Hands (op.recorded service) f' ∧ (s.step op).Serves service f' := by
  obtain ⟨hapart, rfl, rfl, -⟩ := hworks
  by_cases heq : op.service = service
  · subst heq
    cases op with
    | record io service line =>
      have hline : RouterOp.recorded service (.record io service line) = [line] := if_pos rfl
      obtain ⟨f', hhands, hserves⟩ := h.record hapart hpos hexcluded hop line
      exact ⟨f', hline.symm ▸ hhands, hserves⟩
    | flush io service => exact h.flush hop
  · have hact := hapart.actsFor_step op hname
    have hnothing : op.recorded service = [] := by
      cases op with
      | record io other line => exact if_neg heq
      | flush io other => rfl
    rw [hnothing]
    exact ⟨f, ⟨[], rfl, rfl⟩, h.of_sameLogs hapart hservice hact.settings
      (hapart.sameLogs hact hname hservice (Ne.symm heq))⟩

/-- So do several operations. -/
theorem Serves.run {ops : List RouterOp} (h : s.Serves service f)
    (hworks : s.Works settings excluded) (hpos : 0 < settings.maxFiles)
    (hservice : NameRules 48 service.raw) (hexcluded : service ∉ excluded)
    (hnames : ∀ op ∈ ops, NameRules 48 op.service.raw) (hops : ∀ op ∈ ops, op.Succeeds) :
    (s.run ops).Works settings excluded ∧
      ∃ f', f.Hands (ops.flatMap (RouterOp.recorded service)) f' ∧ (s.run ops).Serves service f' := by
  induction ops generalizing s f with
  | nil => exact ⟨hworks, f, ⟨[], rfl, rfl⟩, h⟩
  | cons op ops ih =>
    have hname := hnames op List.mem_cons_self
    obtain ⟨f₁, hhands, hserves⟩ := h.step hworks hpos hservice hexcluded hname
      (hops op List.mem_cons_self)
    obtain ⟨hworks', f', hrest, hserves'⟩ := ih hserves (hworks.step hname)
      (fun op hop => hnames op (List.mem_cons_of_mem _ hop))
      fun op hop => hops op (List.mem_cons_of_mem _ hop)
    exact ⟨hworks', f', hhands.trans hrest, hserves'⟩

end Works

theorem works_initial (settings : LogSettings) (excluded : Finset ServiceName)
    (files : String → Option (List UInt8)) :
    (initial settings excluded files).Works settings excluded where
  apart := apart_initial settings excluded files
  settings := rfl
  excluded := rfl
  named service w hw := by simp [initial, LogRouter.new] at hw

theorem serves_initial (settings : LogSettings) (excluded : Finset ServiceName)
    (files : String → Option (List UInt8)) (service : ServiceName) :
    (initial settings excluded files).Serves service (.found settings files service) := by
  have hcontent : ∀ path, files path =
      ((FileStore.ofFiles files).entries path).map (FileStore.ofFiles files).content := by
    intro path
    cases hfile : files path <;> simp [FileStore.ofFiles, hfile]
  refine ⟨rfl, fun w hw => ?_, fun _ => ⟨rfl, hcontent _, fun n _ _ => hcontent _, ?_⟩⟩
  · simp [initial, LogRouter.new] at hw
  · intro m n _ _ file hm hn
    obtain ⟨_, -, rfl⟩ := Option.map_eq_some_iff.mp hm
    obtain ⟨_, -, heq⟩ := Option.map_eq_some_iff.mp hn
    exact logPath_injective _ (FileId.found.inj heq).symm

/-! ### Flushes -/

/-- Nothing of a service is buffered. -/
def Flushed (s : RouterState) (service : ServiceName) : Prop :=
  ∀ w, s.router.writers[service]? = some w → w.buffer = []

variable {other : ServiceName} {io : ServiceName → Io}

theorem flushed_flush (hio : (io other).Succeeds) (h : other = service ∨ s.Flushed service) :
    (s.step (.flush (io other) other)).Flushed service := by
  intro w hw
  rw [step, LogRouter.flushWriter] at hw
  cases hother : s.router.writers[other]? with
  | none =>
    rw [hother] at hw
    rcases h with rfl | h
    · exact absurd (hother.symm.trans hw) (by simp)
    · exact h w hw
  | some v =>
    rw [hother] at hw
    have hbuffer : (v.flush (io other) s.dir).2.1.buffer = [] := by rw [FileWriter.flush_eq hio]
    dsimp only [LogRouter.putBack] at hw
    rw [TreeMap.getElem?_insert] at hw
    split_ifs at hw with heq
    · exact Option.some.inj hw ▸ hbuffer
    · exact (h.resolve_left (Ne.symm heq)) w hw

/-- The turns of a flush flush the services that have one. -/
theorem flushed_run (hio : ∀ service, (io service).Succeeds) {services : List ServiceName}
    (h : service ∈ services ∨ s.Flushed service) :
    (s.run (services.map fun service => .flush (io service) service)).Flushed service := by
  induction services generalizing s with
  | nil => exact h.resolve_left List.not_mem_nil
  | cons first services ih =>
    refine ih ?_
    rcases h with h | h
    · rcases List.mem_cons.mp h with rfl | h
      · exact .inr (flushed_flush (hio service) (.inl rfl))
      · exact .inl h
    · exact .inr (flushed_flush (hio first) (.inr h))

/-- A whole flush. -/
def flushAll (s : RouterState) (io : ServiceName → Io) : RouterState where
  router := (s.router.flush s.dir io).2.1
  dir := (s.router.flush s.dir io).2.2

/-- A state that is the same but for what was reported. -/
structure SameFiles (s s' : RouterState) : Prop where
  settings : s'.router.settings = s.router.settings
  writers : s'.router.writers = s.router.writers
  excluded : s'.router.excluded = s.router.excluded
  dir : s'.dir = s.dir

theorem sameFiles_flushAll (s : RouterState) (io : ServiceName → Io) :
    (s.run (s.router.writers.keys.map fun service => .flush (io service) service)).SameFiles
      (s.flushAll io) := by
  obtain ⟨failure, hturns⟩ := foldl_flushWriter io s.router.writers.keys s none
  rw [flushAll, LogRouter.flush, hturns]
  cases failure with
  | none => exact ⟨rfl, rfl, rfl, rfl⟩
  | some message =>
    refine ⟨LogRouter.settings_report _ _, LogRouter.writers_report _ _, ?_, rfl⟩
    dsimp only
    rw [LogRouter.report]
    split_ifs <;> rfl

theorem SameFiles.apart (h : s.SameFiles s') (hapart : s.Apart) : s'.Apart := by
  obtain ⟨⟨settings, writers, excluded, reported⟩, dir⟩ := s
  obtain ⟨⟨settings', writers', excluded', reported'⟩, dir'⟩ := s'
  obtain ⟨rfl, rfl, rfl, rfl⟩ := h
  exact ⟨hapart.sound, hapart.writer, hapart.disjoint⟩

theorem SameFiles.serves (h : s.SameFiles s') (hserves : s.Serves service f) :
    s'.Serves service f := by
  obtain ⟨⟨settings, writers, excluded, reported⟩, dir⟩ := s
  obtain ⟨⟨settings', writers', excluded', reported'⟩, dir'⟩ := s'
  obtain ⟨rfl, rfl, rfl, rfl⟩ := h
  exact ⟨hserves.maxFiles, hserves.opened, hserves.closed⟩

theorem SameFiles.works {settings : LogSettings} {excluded : Finset ServiceName}
    (h : s.SameFiles s') (hworks : s.Works settings excluded) : s'.Works settings excluded where
  apart := h.apart hworks.apart
  settings := h.settings.trans hworks.settings
  excluded := h.excluded.trans hworks.excluded
  named service w hw := hworks.named service w (h.writers ▸ hw)

/-- **A whole flush** hands nothing over, and leaves nothing buffered. -/
theorem Serves.flushAll {settings : LogSettings} {excluded : Finset ServiceName}
    (h : s.Serves service f) (hworks : s.Works settings excluded) (hpos : 0 < settings.maxFiles)
    (hservice : NameRules 48 service.raw) (hexcluded : service ∉ excluded)
    (hio : ∀ service, (io service).Succeeds) : (s.flushAll io).Works settings excluded ∧
      (s.flushAll io).Flushed service ∧
        ∃ f', f.Hands [] f' ∧ (s.flushAll io).Serves service f' := by
  have hsame := s.sameFiles_flushAll io
  have hnames : ∀ op ∈ s.router.writers.keys.map fun service => RouterOp.flush (io service) service,
      NameRules 48 op.service.raw ∧ op.Succeeds ∧ op.recorded service = [] := by
    intro op hop
    obtain ⟨other, hother, rfl⟩ := List.mem_map.mp hop
    obtain ⟨w, hw⟩ := TreeMap.mem_keys_iff_exists.mp hother
    exact ⟨hworks.named other w hw, hio other, rfl⟩
  have hnothing : (s.router.writers.keys.map fun service =>
      RouterOp.flush (io service) service).flatMap (RouterOp.recorded service) = [] :=
    List.flatMap_eq_nil_iff.mpr fun op hop => (hnames op hop).2.2
  obtain ⟨hworks', f', hhands, hserves⟩ := h.run hworks hpos hservice hexcluded
    (fun op hop => (hnames op hop).1) fun op hop => (hnames op hop).2.1
  rw [hnothing] at hhands
  refine ⟨hsame.works hworks', fun w hw => ?_, f', hhands, hsame.serves hserves⟩
  refine flushed_run hio ?_ w (hsame.writers ▸ hw)
  by_cases hkey : service ∈ s.router.writers.keys
  · exact .inl hkey
  · refine .inr fun w hw => absurd ?_ hkey
    exact TreeMap.mem_keys_iff_exists.mpr ⟨w, hw⟩

/-! ### What a service's files hold -/

/-- What the writer of a service has not written through. -/
def buffered (s : RouterState) (service : ServiceName) : List UInt8 :=
  (s.router.writers[service]?.map FileWriter.buffer).getD []

theorem buffered_of_flushed (h : s.Flushed service) : s.buffered service = [] := by
  rw [buffered]
  cases hw : s.router.writers[service]? with
  | none => rfl
  | some w => exact h w hw

/-- The files of a service, oldest first, the current one with what is buffered for it. -/
def stored (s : RouterState) (service : ServiceName) : List (List UInt8) :=
  let path := s.router.settings.fileFor service
  generations (fun n => (slots path s.dir n).map s.dir.content) s.router.settings.maxFiles ++
    [((slots path s.dir 0).map s.dir.content).getD [] ++ s.buffered service]

theorem generations_congr {rotated rotated' : ℕ → Option (List UInt8)} {n : ℕ}
    (h : ∀ i, 0 < i → i ≤ n → rotated i = rotated' i) :
    generations rotated n = generations rotated' n := by
  induction n with
  | zero => rfl
  | succ n ih =>
    rw [generations, generations, h (n + 1) n.succ_pos le_rfl,
      ih fun i hi hle => h i hi (hle.trans n.le_succ)]

/-- A folder holds what the files hold that it shows. -/
theorem Serves.retained_eq (h : s.Serves service f) (hapart : s.Apart) :
    f.retained = s.stored service ∧ f.disk.writer.phase.pending = [] := by
  obtain ⟨hshows, hbuffer, hpending⟩ : f.Shows (s.router.settings.fileFor service) s.dir ∧
      f.disk.writer.buffer = s.buffered service ∧ f.disk.writer.phase.pending = [] := by
    cases hw : s.router.writers[service]? with
    | none =>
      obtain ⟨hclosed, hshows⟩ := h.closed hw
      exact ⟨hshows, by rw [hclosed, buffered, hw]; rfl, by rw [hclosed]; rfl⟩
    | some w =>
      have hserves := h.opened w hw
      exact ⟨(hapart.writer service w hw).1 ▸ hserves.shows',
        by rw [hserves.writer, buffered, hw]; rfl, by rw [hserves.writer]; rfl⟩
  refine ⟨?_, hpending⟩
  rw [LogFolder.retained, LogFolder.written, hshows.current, hbuffer, h.maxFiles]
  exact congrArg (· ++ _) (generations_congr fun n hn hle =>
    hshows.rotated n hn (h.maxFiles ▸ hle))

/-- What has been handed over is kept. -/
theorem Serves.exists_retention {files : String → Option (List UInt8)}
    {handed : List (List UInt8)} (h : s.Serves service f) (hapart : s.Apart)
    (hpos : 0 < s.router.settings.maxFiles)
    (hhands : (LogFolder.found s.router.settings files service).Hands handed f) :
    ∃ groups : List (List (List UInt8)), groups.flatten = handed ∧
      s.stored service <:+ generations (LogFolder.found s.router.settings files service).rotated
          s.router.settings.maxFiles ++
        filledFiles ((files (s.router.settings.fileFor service)).getD []) groups ∧
      min groups.length (s.router.settings.maxFiles + 1) ≤ (s.stored service).length ∧
      ∀ lines ∈ groups, FitsFile s.router.settings.maxSize lines := by
  obtain ⟨actions, hrun, rfl⟩ := hhands
  obtain ⟨groups, last, hfiling⟩ := (LogFolder.filing_initial s.router.settings.maxSize
    s.router.settings.maxFiles _ _).run hpos hrun
  have hretention := hfiling.retains rfl
  obtain ⟨hretained, hpending⟩ := h.retained_eq hapart
  refine ⟨groups ++ [last], ?_, hretained ▸ hretention.files, hretained ▸ hretention.kept,
    hretention.fits⟩
  have hlines := hretention.lines
  rwa [hpending, List.append_nil] at hlines

end RouterState

end Servicrab
