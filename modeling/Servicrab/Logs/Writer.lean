import Mathlib.Data.List.Basic

/-!
# The rotating log writer

`LogWriter` appends lines to one file and, when a line would not fit, renames the file away and
starts a fresh one. Lines go through a buffer, which may be written through to the file at any time
and in any portions; `flush` waits until it is empty. Each call of the file system is a step of its
own. File operations succeed.

The files renamed away are kept in a list, oldest first. Which of them `max_files` leaves on the
disk, and under which names, is said by the log folder over the writer.

## Main definitions

* `LogWriter`, `LogDisk`, `WriteAction`, `LogDisk.write`.

## Main results

* `LogDisk.written_of_write`: what a step does to the files.
-/

namespace Servicrab

/-- Flush at least this often while a flood keeps the queue from draining. -/
def flushEveryLines : ℕ := 256

def newline : UInt8 := 10

/-- Where the writer is in `write_line` or `flush`. -/
inductive WritePhase
  /-- There is no writer. -/
  | closed
  | ready
  /-- `rotate` flushes the file before it is renamed away. -/
  | rotating (line : List UInt8)
  /-- `rotate` has renamed the file away and is to create a fresh one. -/
  | renamed (line : List UInt8)
  | flushing
  deriving DecidableEq

/-- A rotating, append-only log file for one service. -/
structure LogWriter where
  maxSize : ℕ
  maxFiles : ℕ
  /-- What the `BufWriter` has not written through. -/
  buffer : List UInt8
  size : ℕ
  /-- Lines written since the last flush, so a flood still reaches the disk. -/
  unflushed : ℕ
  phase : WritePhase
  deriving DecidableEq

/-- The log files of a service, and their writer. -/
structure LogDisk where
  writer : LogWriter
  /-- The files renamed away, oldest first. -/
  past : List (List UInt8)
  /-- The file at the path, if there is one. -/
  current : Option (List UInt8)
  deriving DecidableEq

/-- A step of the writer. -/
inductive WriteAction
  /-- `LogWriter::open`. -/
  | open'
  /-- `write_line` is called. -/
  | writeLine (line : List UInt8)
  /-- A portion of the buffer is written through. -/
  | spill (count : ℕ)
  /-- `rotate` gets the current file out of the way. -/
  | rename
  /-- `rotate` starts a fresh file. -/
  | create
  /-- `flush` is called. -/
  | flush
  /-- `flush` returns. -/
  | flushed
  /-- The writer is dropped, after its `flush`. -/
  | close
  deriving DecidableEq

namespace LogWriter

variable (w : LogWriter)

/-- Whether the line is to go to a fresh file. -/
def mustRotate (line : List UInt8) : Bool :=
  0 < w.size && w.maxSize < w.size + (line.length + 1)

/-- Hand the line to the buffer, and flush after every so many of them. -/
def append (line : List UInt8) : LogWriter :=
  let w := { w with
    buffer := w.buffer ++ line ++ [newline]
    size := w.size + (line.length + 1) }
  if flushEveryLines ≤ w.unflushed + 1 then { w with unflushed := 0, phase := .flushing }
  else { w with unflushed := w.unflushed + 1, phase := .ready }

end LogWriter

namespace LogDisk

variable (d : LogDisk)

/-- A step of the writer. -/
def write : WriteAction → Option LogDisk
  | .open' =>
    if d.writer.phase = .closed then
      some { d with
        writer := { d.writer with
          buffer := []
          size := (d.current.getD []).length
          unflushed := 0
          phase := .ready }
        current := some (d.current.getD []) }
    else none
  | .writeLine line =>
    if d.writer.phase = .ready then
      if d.writer.mustRotate line then
        some { d with writer := { d.writer with unflushed := 0, phase := .rotating line } }
      else some { d with writer := d.writer.append line }
    else none
  | .spill count =>
    match d.current with
    | some file => some { d with
        writer := { d.writer with buffer := d.writer.buffer.drop count }
        current := some (file ++ d.writer.buffer.take count) }
    | none => none
  | .rename =>
    match d.writer.phase, d.current with
    | .rotating line, some file =>
      if d.writer.buffer = [] then
        if d.writer.maxFiles = 0 then
          -- No history is kept: the file is truncated in place.
          some { d with
            writer := { d.writer with size := 0 }.append line
            current := some [] }
        else
          some { d with
            writer := { d.writer with phase := .renamed line }
            past := d.past ++ [file]
            current := none }
      else none
    | _, _ => none
  | .create =>
    match d.writer.phase with
    | .renamed line =>
      some { d with
        writer := { d.writer with size := 0 }.append line
        current := some (d.current.getD []) }
    | _ => none
  | .flush =>
    if d.writer.phase = .ready then
      some { d with writer := { d.writer with unflushed := 0, phase := .flushing } }
    else none
  | .flushed =>
    if d.writer.phase = .flushing ∧ d.writer.buffer = [] then
      some { d with writer := { d.writer with phase := .ready } }
    else none
  | .close =>
    if d.writer.phase = .ready ∧ d.writer.buffer = [] then
      some { d with writer := { d.writer with phase := .closed } }
    else none

/-- Every file there was, oldest first. -/
def files : List (List UInt8) := d.past ++ d.current.toList

/-- What is in a file, by its position among all of them. -/
def content (i : ℕ) : List UInt8 := (d.files[i]?).getD []

variable {d} {d' : LogDisk} {action : WriteAction}

@[simp] theorem content_past_length (d : LogDisk) : d.content d.past.length = d.current.getD [] := by
  rcases hcurrent : d.current with _ | file <;> simp [content, files, hcurrent]

theorem content_of_lt {i : ℕ} (h : i < d.past.length) : d.content i = d.past[i] := by
  simp [content, files, List.getElem?_append_left h, List.getElem?_eq_getElem h]

theorem content_of_gt {i : ℕ} (h : d.past.length < i) : d.content i = [] := by
  have hlength : d.files.length ≤ i := by
    rcases hcurrent : d.current with _ | file <;> simp [files, hcurrent] <;> omega
  rw [content, List.getElem?_eq_none hlength, Option.getD_none]

/-- Files with the same past, and more in the current one. -/
theorem content_append {l : List UInt8} (hpast : d'.past = d.past)
    (hcurrent : d'.current.getD [] = d.current.getD [] ++ l) (i : ℕ) :
    d'.content i = d.content i ++ if i = d.past.length then l else [] := by
  rcases Nat.lt_trichotomy i d.past.length with h | rfl | h
  · rw [content_of_lt h, content_of_lt (hpast ▸ h), if_neg (Nat.ne_of_lt h), List.append_nil]
    simp [hpast]
  · rw [if_pos rfl, content_past_length, ← hcurrent, ← content_past_length, hpast]
  · rw [content_of_gt h, content_of_gt (hpast ▸ h), if_neg (Nat.ne_of_gt h), List.append_nil]

theorem content_renamed {file : List UInt8} (hpast : d'.past = d.past ++ [file])
    (hnone : d'.current = none) (hcurrent : d.current = some file) (i : ℕ) :
    d'.content i = d.content i := by
  simp [content, files, hpast, hnone, hcurrent]

/-- What a step of the writer does to the files: more may have arrived in the current one, and it
may have been renamed away. -/
structure Written (d : LogDisk) (action : WriteAction) (d' : LogDisk) : Prop where
  maxFiles : d'.writer.maxFiles = d.writer.maxFiles
  content : ∃ l, ∀ i, d'.content i = d.content i ++ if i = d.past.length then l else []
  renamed : action = .rename → ∀ i, d'.content i = d.content i
  past_length : d'.past.length = d.past.length + if action = .rename then 1 else 0

theorem maxFiles_append (w : LogWriter) (line : List UInt8) :
    (w.append line).maxFiles = w.maxFiles := by
  simp only [LogWriter.append]
  split_ifs <;> rfl

theorem Written.of_eq (hmaxFiles : d'.writer.maxFiles = d.writer.maxFiles) (hpast : d'.past = d.past)
    (hcurrent : d'.current.getD [] = d.current.getD []) (hrename : action ≠ .rename) :
    d.Written action d' where
  maxFiles := hmaxFiles
  content := ⟨[], content_append hpast (by simp [hcurrent])⟩
  renamed h := absurd h hrename
  past_length := by simp [hpast, hrename]

/-- As long as a history is kept, a step of the writer does that to the files. -/
theorem written_of_write (hmaxFiles : 0 < d.writer.maxFiles) (h : d.write action = some d') :
    d.Written action d' := by
  cases action with
  | open' | flush | flushed | close =>
    simp only [write] at h
    split_ifs at h
    obtain rfl := Option.some.inj h
    exact .of_eq rfl rfl rfl (by simp)
  | writeLine line =>
    simp only [write] at h
    split_ifs at h
    · obtain rfl := Option.some.inj h
      exact .of_eq rfl rfl rfl (by simp)
    · obtain rfl := Option.some.inj h
      exact .of_eq (maxFiles_append _ _) rfl rfl (by simp)
  | spill count =>
    simp only [write] at h
    split at h
    · rename_i file hcurrent
      obtain rfl := Option.some.inj h
      refine ⟨rfl, ⟨d.writer.buffer.take count, ?_⟩, nofun, by simp⟩
      exact content_append rfl (by simp [hcurrent])
    · cases h
  | rename =>
    simp only [write] at h
    split at h
    · rename_i line file hphase hcurrent
      split_ifs at h with hbuffer hzero
      · omega
      · obtain rfl := Option.some.inj h
        refine ⟨rfl, ⟨[], fun i => ?_⟩, fun _ => content_renamed rfl rfl hcurrent, by simp⟩
        simpa using content_renamed rfl rfl hcurrent i
    · cases h
  | create =>
    simp only [write] at h
    split at h
    · obtain rfl := Option.some.inj h
      exact .of_eq (maxFiles_append _ _) rfl rfl (by simp)
    · cases h

end LogDisk

end Servicrab
