import Servicrab.Library.FileStore
import Servicrab.Logs.Paths
import Servicrab.Logs.Writer

/-!
# Log writers on a shared directory

`LogWriter` with the file that it has open, in a directory with the files of other services, and with
file operations that fail (`logs.rs`). An open file stays what it is when its name is taken away, so
that a writer whose rotation was broken off appends to a file that is called something else by then.
What a call leaves behind when one of its operations fails is what it has done up to there.

## Main definitions

* `LogOp`, `Io`: the file operations of a writer, and how they end in a call.
* `FileWriter`, `FileWriter.rotate`, `FileWriter.writeLine`.
* `FileWriter.Stays`: a call uses the writer's own names and files only.

## Main results

* `FileWriter.Confined.stays_writeLine`, `FileWriter.frame_openLog`.
-/

namespace Servicrab

/-- The file operations of a writer. -/
inductive LogOp
  | createDir
  | openLog
  | metadata
  /-- The line is written. -/
  | write
  /-- The line feed after it is written. -/
  | newline
  | flush
  /-- `<path>.<max_files>` is removed. -/
  | remove
  /-- `<path>.<n>` is renamed, which is the current file for `0`. -/
  | rename (n : ℕ)
  /-- A fresh file is opened after a rotation. -/
  | reopen
  deriving DecidableEq

/-- How the file operations end in a call. -/
structure Io where
  /-- Whether the operation fails. -/
  fails : LogOp → Bool
  /-- How many bytes reach the file in a write that need not write everything through, or that
  fails. -/
  written : LogOp → ℕ
  /-- What the error says. -/
  problem : LogOp → String

/-- All goes well, and nothing is written through before a flush. -/
def Io.quiet : Io where
  fails _ := false
  written _ := 0
  problem _ := ""

/-- The log directory. -/
abbrev LogDir := FileStore String UInt8

/-- A rotating, append-only log file for one service. -/
structure FileWriter where
  path : String
  /-- The file that is open. -/
  file : FileId String
  /-- What the `BufWriter` has not written through. -/
  buffer : List UInt8
  size : ℕ
  maxSize : ℕ
  maxFiles : ℕ
  /-- Lines written since the last flush. -/
  unflushed : ℕ

/-- What a call of a writer comes to: whether it failed, and at which operation, and what it leaves
behind. -/
abbrev LogAttempt := Except LogOp Unit × FileWriter × LogDir

/-- The operator `?`: go on unless the call has failed. -/
def LogAttempt.andThen (attempt : LogAttempt) (next : FileWriter → LogDir → LogAttempt) :
    LogAttempt :=
  match attempt with
  | (.ok (), w, d) => next w d
  | failed => failed

namespace FileWriter

variable (io : Io) (w : FileWriter) (d : LogDir)

/-- `write_all`: the data goes to the buffer, and some of the buffer may reach the file. -/
def writeAll (op : LogOp) (data : List UInt8) : LogAttempt :=
  let pending := w.buffer ++ data
  let count := io.written op
  if io.fails op then
    (.error op, { w with buffer := w.buffer.drop count }, d.append w.file (pending.take count))
  else (.ok (), { w with buffer := pending.drop count }, d.append w.file (pending.take count))

/-- Push everything buffered out to the file. -/
def flush : LogAttempt :=
  let w := { w with unflushed := 0 }
  let count := io.written .flush
  if io.fails .flush then
    (.error .flush, { w with buffer := w.buffer.drop count },
      d.append w.file (w.buffer.take count))
  else (.ok (), { w with buffer := [] }, d.append w.file w.buffer)

/-- The writer goes on with another file, which is empty. -/
def startOn (file : FileId String) : FileWriter := { w with file := file, buffer := [], size := 0 }

/-- The oldest file falls off the end. -/
def removeOldest : LogAttempt :=
  if (d.entries (rotatedPath w.path w.maxFiles)).isSome then
    if io.fails .remove then (.error .remove, w, d)
    else (.ok (), w, d.remove (rotatedPath w.path w.maxFiles))
  else (.ok (), w, d)

/-- The loop of `rotate`, from `<path>.<n>` down to `<path>.1`. -/
def moveRotated : ℕ → LogDir → LogAttempt
  | 0, d => (.ok (), w, d)
  | n + 1, d =>
    if (d.entries (rotatedPath w.path (n + 1))).isSome then
      if io.fails (.rename (n + 1)) then (.error (.rename (n + 1)), w, d)
      else moveRotated n (d.rename (rotatedPath w.path (n + 1)) (rotatedPath w.path (n + 2)))
    else moveRotated n d

/-- The current file is renamed to `<path>.1`, if it is still there. -/
def moveCurrent : LogAttempt :=
  if io.fails (.rename 0) ∨ (d.entries w.path).isNone then (.error (.rename 0), w, d)
  else (.ok (), w, d.rename w.path (rotatedPath w.path 1))

/-- A fresh file is opened at the path. -/
def reopen : LogAttempt :=
  if io.fails .reopen then (.error .reopen, w, d)
  else (.ok (), w.startOn (d.openedFile w.path), d.openName w.path)

/-- The file at the path is truncated, and opened anew. -/
def reopenEmpty : LogAttempt :=
  if io.fails .reopen then (.error .reopen, w, d)
  else (.ok (), w.startOn (d.openedFile w.path),
    (d.openName w.path).truncate (d.openedFile w.path))

/-- Every file moves up by one, and a fresh one is started. -/
def moveFiles : LogAttempt :=
  (w.removeOldest io d).andThen fun w d =>
    (w.moveRotated io (w.maxFiles - 1) d).andThen fun w d =>
      (w.moveCurrent io d).andThen fun w d => w.reopen io d

/-- Rotate the current file out of the way and start a fresh one. -/
def rotate : LogAttempt :=
  (w.flush io d).andThen fun w d =>
    -- No history is kept: start over from an empty file.
    if w.maxFiles = 0 then w.reopenEmpty io d else w.moveFiles io d

/-- Whether the line is to go to a fresh file. -/
def mustRotate (line : List UInt8) : Bool :=
  0 < w.size && w.maxSize < w.size + (line.length + 1)

/-- Append one line, rotating first when the line would not fit. -/
def writeLine (line : List UInt8) : LogAttempt :=
  let start : LogAttempt := if w.mustRotate line then w.rotate io d else (.ok (), w, d)
  start.andThen fun w d =>
    (w.writeAll io d .write line).andThen fun w d =>
      (w.writeAll io d .newline [newline]).andThen fun w d =>
        let w := { w with size := w.size + (line.length + 1), unflushed := w.unflushed + 1 }
        if flushEveryLines ≤ w.unflushed then w.flush io d else (.ok (), w, d)

/-- Open (or create) the log file for `service`. -/
def openLog (settings : LogSettings) (service : ServiceName) : Except LogOp FileWriter × LogDir :=
  if io.fails .createDir then (.error .createDir, d)
  else if io.fails .openLog then (.error .openLog, d)
  else
    let path := settings.fileFor service
    let file := d.openedFile path
    let d := d.openName path
    let size := if io.fails .metadata then 0 else (d.content file).length
    (.ok { path, file, buffer := [], size, maxSize := settings.maxSize
           maxFiles := settings.maxFiles, unflushed := 0 }, d)

/-! ### A writer stays with its names and files -/

/-- The writer's names are among some names, and stand for some of the files, as is the one that is
open. -/
structure Confined (names : Set String) (files : Set (FileId String)) (w : FileWriter) (d : LogDir) :
    Prop where
  within : d.Within names files
  file : w.file ∈ files
  path : ∀ n, logPath w.path n ∈ names
  sound : d.Sound
  known : d.Known w.file

/-- A call leaves all other names and files as they are. -/
structure Stays (names : Set String) (files : Set (FileId String)) (w : FileWriter) (d : LogDir)
    (attempt : LogAttempt) : Prop where
  frame : FileStore.Frame names files d attempt.2.2
  confined : attempt.2.1.Confined names files attempt.2.2
  path_eq : attempt.2.1.path = w.path

variable {io w d} {names : Set String} {files : Set (FileId String)} {attempt : LogAttempt}

theorem Stays.andThen {next : FileWriter → LogDir → LogAttempt} (h : Stays names files w d attempt)
    (hnext : ∀ w d, w.Confined names files d → Stays names files w d (next w d)) :
    Stays names files w d (attempt.andThen next) := by
  obtain ⟨result, w', d'⟩ := attempt
  cases result with
  | error op => exact h
  | ok =>
    have hrest := hnext w' d' h.confined
    exact ⟨h.frame.trans hrest.frame, hrest.confined, hrest.path_eq.trans h.path_eq⟩

theorem Confined.stays_id (h : w.Confined names files d) (result : Except LogOp Unit) :
    Stays names files w d (result, w, d) :=
  ⟨.refl d, h, rfl⟩

/-- Appending to the open file is among the calls that stay, whatever becomes of the buffer. -/
theorem Confined.stays_append (h : w.Confined names files d) {w' : FileWriter}
    (hpath : w'.path = w.path) (hfile : w'.file = w.file) (result : Except LogOp Unit)
    (data : List UInt8) : Stays names files w d (result, w', d.append w.file data) where
  frame := FileStore.frame_append h.file
  confined := {
    within := h.within.congr rfl rfl
    file := hfile ▸ h.file
    path := hpath ▸ h.path
    sound := h.sound
    known := hfile ▸ h.known }
  path_eq := hpath

theorem Confined.current (h : w.Confined names files d) : w.path ∈ names := h.path 0

theorem Confined.rotated (h : w.Confined names files d) (n : ℕ) :
    rotatedPath w.path (n + 1) ∈ names := h.path (n + 1)

theorem Confined.stays_writeAll (h : w.Confined names files d) (op : LogOp) (data : List UInt8) :
    Stays names files w d (w.writeAll io d op data) := by
  simp only [writeAll]
  split_ifs
  · exact h.stays_append (by rfl) (by rfl) _ _
  · exact h.stays_append (by rfl) (by rfl) _ _

theorem Confined.stays_flush (h : w.Confined names files d) :
    Stays names files w d (w.flush io d) := by
  simp only [flush]
  split_ifs
  · exact h.stays_append (by rfl) (by rfl) _ _
  · exact h.stays_append (by rfl) (by rfl) _ _

theorem Confined.stays_rename (h : w.Confined names files d) {source target : String}
    (hsource : source ∈ names) (htarget : target ∈ names) (result : Except LogOp Unit) :
    Stays names files w d (result, w, d.rename source target) := by
  obtain ⟨hframe, hwithin⟩ := FileStore.frame_rename h.within hsource htarget
  exact ⟨hframe, ⟨hwithin, h.file, h.path, h.sound.rename source target, h.known⟩, rfl⟩

theorem Confined.stays_removeOldest (h : w.Confined names files d) (hpos : w.maxFiles ≠ 0) :
    Stays names files w d (w.removeOldest io d) := by
  rw [removeOldest]
  split_ifs
  · exact h.stays_id _
  · have hname : rotatedPath w.path w.maxFiles ∈ names := by
      obtain ⟨n, hn⟩ := Nat.exists_eq_succ_of_ne_zero hpos
      exact hn ▸ h.rotated n
    obtain ⟨hframe, hwithin⟩ := FileStore.frame_remove h.within hname
    exact ⟨hframe, ⟨hwithin, h.file, h.path, h.sound.remove _, h.known⟩, rfl⟩
  · exact h.stays_id _

theorem Confined.stays_moveRotated (n : ℕ) : ∀ {d : LogDir}, w.Confined names files d →
    Stays names files w d (w.moveRotated io n d) := by
  induction n with
  | zero => exact fun h => h.stays_id _
  | succ n ih =>
    intro d h
    rw [moveRotated]
    split_ifs
    · exact h.stays_id _
    · have hstep := h.stays_rename (h.rotated n) (h.rotated (n + 1)) (.ok ())
      have hrest := ih hstep.confined
      exact ⟨hstep.frame.trans hrest.frame, hrest.confined, hrest.path_eq⟩
    · exact ih h

theorem Confined.stays_moveCurrent (h : w.Confined names files d) :
    Stays names files w d (w.moveCurrent io d) := by
  rw [moveCurrent]
  split_ifs
  · exact h.stays_id _
  · exact h.stays_rename h.current (h.rotated 0) _

theorem Confined.stays_reopen (h : w.Confined names files d) :
    Stays names files w d (w.reopen io d) := by
  rw [reopen]
  split_ifs
  · exact h.stays_id _
  · obtain ⟨hframe, hwithin, hfile⟩ := FileStore.frame_openName h.within h.current
    exact ⟨hframe, ⟨hwithin, hfile, h.path, h.sound.openName w.path,
      FileStore.known_openedFile h.sound w.path⟩, rfl⟩

theorem Confined.stays_reopenEmpty (h : w.Confined names files d) :
    Stays names files w d (w.reopenEmpty io d) := by
  rw [reopenEmpty]
  split_ifs
  · exact h.stays_id _
  · obtain ⟨hframe, hwithin, hfile⟩ := FileStore.frame_openName h.within h.current
    exact ⟨hframe.trans (FileStore.frame_truncate hfile), ⟨hwithin.congr rfl rfl, hfile, h.path,
      h.sound.openName w.path, FileStore.known_openedFile h.sound w.path⟩, rfl⟩

theorem Confined.stays_moveFiles (h : w.Confined names files d) (hpos : w.maxFiles ≠ 0) :
    Stays names files w d (w.moveFiles io d) := by
  refine (h.stays_removeOldest hpos).andThen fun w d h => ?_
  refine (h.stays_moveRotated _).andThen fun w d h => ?_
  exact h.stays_moveCurrent.andThen fun w d h => h.stays_reopen

/-- **A rotation stays** with the writer's names and files, wherever it is broken off. -/
theorem Confined.stays_rotate (h : w.Confined names files d) :
    Stays names files w d (w.rotate io d) := by
  refine h.stays_flush.andThen fun w d h => ?_
  split_ifs with hzero
  · exact h.stays_reopenEmpty
  · exact h.stays_moveFiles hzero

/-- **A write stays** with the writer's names and files. -/
theorem Confined.stays_writeLine (h : w.Confined names files d) (io : Io) (line : List UInt8) :
    Stays names files w d (w.writeLine io d line) := by
  have hstart : Stays names files w d
      (if w.mustRotate line then w.rotate io d else (.ok (), w, d)) := by
    split_ifs
    · exact h.stays_rotate
    · exact h.stays_id _
  refine hstart.andThen fun w d h => ?_
  refine (h.stays_writeAll _ _).andThen fun w d h => ?_
  refine (h.stays_writeAll _ _).andThen fun w d h => ?_
  have hcounted : Confined names files
      { w with size := w.size + (line.length + 1), unflushed := w.unflushed + 1 } d :=
    ⟨h.within, h.file, h.path, h.sound, h.known⟩
  dsimp only
  split_ifs
  · exact ⟨hcounted.stays_flush.frame, hcounted.stays_flush.confined, hcounted.stays_flush.path_eq⟩
  · exact ⟨.refl d, hcounted, rfl⟩

/-- Opening a log file uses its names only. -/
theorem frame_openLog {settings : LogSettings} {service : ServiceName}
    (hwithin : d.Within names files) (hsound : d.Sound)
    (hpath : ∀ n, logPath (settings.fileFor service) n ∈ names) :
    FileStore.Frame names files d (openLog io d settings service).2 ∧
      (openLog io d settings service).2.Within names files ∧
      (openLog io d settings service).2.Sound ∧
      ∀ w, (openLog io d settings service).1 = .ok w → w.path = settings.fileFor service ∧
        w.Confined names files (openLog io d settings service).2 := by
  by_cases hdir : io.fails .createDir
  · rw [openLog, if_pos hdir]
    exact ⟨.refl d, hwithin, hsound, fun _ h => by cases h⟩
  by_cases hopen : io.fails .openLog
  · rw [openLog, if_neg hdir, if_pos hopen]
    exact ⟨.refl d, hwithin, hsound, fun _ h => by cases h⟩
  · rw [openLog, if_neg hdir, if_neg hopen]
    have hname : settings.fileFor service ∈ names := hpath 0
    obtain ⟨hframe, hwithin', hfile⟩ := FileStore.frame_openName hwithin hname
    have hsound' := hsound.openName (settings.fileFor service)
    refine ⟨hframe, hwithin', hsound', fun w hw => ?_⟩
    obtain rfl := Except.ok.inj hw
    exact ⟨rfl, hwithin', hfile, hpath, hsound', FileStore.known_openedFile hsound _⟩

end FileWriter

end Servicrab
