import Servicrab.Library.Lines
import Servicrab.Library.TransitionSystem
import Servicrab.Logs.Writer
import Mathlib.Order.Defs.LinearOrder
import Mathlib.Algebra.Order.Group.Nat

/-!
# Following a log file

`logs -f` keeps an offset into the file at the path and polls: it looks at the length of the file,
starts over when the file is shorter than the offset, does nothing when it is as long, and else opens
the file and prints the complete lines from the offset on. The writer may take its steps between
these, and rename the file away.

Which file the offset is in, and where following began, is kept for the record. The last lines of
the file, which are printed before following begins, are not.

## Main definitions

* `Follower`, `LogFollow`, `followSystem`.
* `LogFollow.expected`: the lines that are to be printed.
* `LogFollow.KeepsUp`: the follower has read a file by the time it is renamed away, and finds the
  fresh file shorter than its offset.

## Main results

* `LogFollow.followed_of_reachable`.
-/

namespace Servicrab

/-- Where `logs -f` is. -/
inductive FollowPhase
  | idle
  /-- The file has been found to be of another length than the offset. -/
  | sampled
  /-- `read_lines` has opened a file. -/
  | opened (file : ℕ)
  deriving DecidableEq

/-- One followed log file. -/
structure Follower where
  phase : FollowPhase
  /-- Whether `read_tail` has returned. -/
  started : Bool
  /-- Where reading stopped: the byte just past the last complete line that was printed. -/
  offset : ℕ
  /-- The lines printed by `follow`. -/
  printed : List String
  /-- The file that the offset is in. -/
  file : ℕ
  /-- The file and the offset where following began. -/
  start : ℕ × ℕ
  deriving DecidableEq

/-- The log files of a service, and a follower. -/
structure LogFollow where
  disk : LogDisk
  follower : Follower
  deriving DecidableEq

/-- A step of the writer or of the follower. -/
inductive FollowAction
  | writer (action : WriteAction)
  /-- `read_tail` finds no file. -/
  | missing
  /-- `file_len`, and what is decided on it. -/
  | sample
  /-- `read_lines` opens the file. -/
  | openFile
  /-- `read_lines` reads to the end of the file. -/
  | read
  deriving DecidableEq

/-- What one read of a log file yielded. -/
structure Chunk where
  lines : List String
  /-- The byte just past the last complete line. -/
  stop : ℕ
  /-- The unterminated remainder, if the file ended mid-line. -/
  unfinished : Option String

def Follower.new : Follower where
  phase := .idle
  started := false
  offset := 0
  printed := []
  file := 0
  start := (0, 0)

/-- Drop a character at the end of a text, if it is there. -/
def stripSuffix (text : List Char) (c : Char) : List Char :=
  if text.getLast? = some c then text.dropLast else text

-- `String::from_utf8_lossy`.
variable (lossy : List UInt8 → List Char)

/-- Turn one raw line into text, dropping the line ending. -/
def decode (raw : List UInt8) : String :=
  String.ofList (stripSuffix (stripSuffix (lossy raw) '\n') '\r')

/-- Read every complete line from an offset to the end of the file. -/
def readLines (content : List UInt8) (offset : ℕ) : Chunk :=
  let complete := Lines.complete newline (content.drop offset)
  let rest := Lines.rest newline (content.drop offset)
  { lines := complete.map (decode lossy)
    stop := offset + complete.flatten.length
    unfinished := if rest = [] then none else some (decode lossy rest) }

namespace LogFollow

variable (s : LogFollow)

/-- The position of the file at the path. -/
def path : ℕ := s.disk.past.length

/-- `file_len`: a missing file has none. -/
def fileLen : ℕ := (s.disk.current.getD []).length

/-- A shrinking file means the log was rotated: start over. -/
def sample : LogFollow :=
  let offset := if s.fileLen < s.follower.offset then 0 else s.follower.offset
  { s with
    follower := { s.follower with
      phase := if s.fileLen = offset then .idle else .sampled
      offset := offset
      -- The offset zero is where every file begins.
      file := if offset = 0 then s.path else s.follower.file } }

/-- `read_lines` opens the file. What cannot be opened is left for the next pass, but for the first
one, which fails. -/
def openFile : Option LogFollow :=
  match s.disk.current with
  | some _ => some { s with
      follower := { s.follower with
        phase := .opened s.path
        file := if s.follower.offset = 0 then s.path else s.follower.file } }
  | none =>
    if s.follower.started then some { s with follower := { s.follower with phase := .idle } }
    else none

/-- `read_lines` reads to the end, and the lines are printed. `read_tail` is the first to read: it
tells where following begins. -/
def read (file : ℕ) : LogFollow :=
  let chunk := readLines lossy (s.disk.content file) s.follower.offset
  { s with
    follower := { s.follower with
      phase := .idle
      started := true
      offset := chunk.stop
      printed := if s.follower.started then s.follower.printed ++ chunk.lines else []
      file := file
      start := if s.follower.started then s.follower.start else (file, chunk.stop) } }

/-- One step. -/
def step : FollowAction → Option LogFollow
  | .writer action => (s.disk.write action).map fun disk => { s with disk := disk }
  | .missing =>
    if s.follower.started = false ∧ s.follower.phase = .idle ∧ s.disk.current = none then
      some { s with
        follower := { s.follower with started := true, file := s.path, start := (s.path, 0) } }
    else none
  | .sample => if s.follower.started ∧ s.follower.phase = .idle then some s.sample else none
  | .openFile =>
    if s.follower.phase = if s.follower.started then .sampled else .idle then s.openFile else none
  | .read =>
    match s.follower.phase with
    | .opened file => some (s.read lossy file)
    | _ => none

/-- A poll, with nothing in between. -/
def poll : Option LogFollow :=
  if s.sample.follower.phase = .sampled then
    (s.sample.step lossy .openFile).bind fun t => t.step lossy .read
  else s.step lossy .sample

/-- What is in a file after the point where following began. -/
def newBytes (i : ℕ) : List UInt8 :=
  if i = s.follower.start.1 then (s.disk.content i).drop s.follower.start.2 else s.disk.content i

/-- The complete lines in a file after the point where following began. -/
def newLines (i : ℕ) : List (List UInt8) := Lines.complete newline (s.newBytes i)

/-- The complete lines in the files from the one where following began up to the given one. -/
def linesBefore (i : ℕ) : List (List UInt8) :=
  (List.range' s.follower.start.1 (i - s.follower.start.1)).flatMap s.newLines

/-- Every complete line that has reached the files after the point where following began. -/
def expected : List String := (s.linesBefore s.disk.files.length).map (decode lossy)

/-- What the follower has not read of the file that its offset is in. -/
def unread : List UInt8 := (s.disk.content s.follower.file).drop s.follower.offset

/-- The follower will notice if another file is at the path: it is shorter than the offset, unless
the follower is at the beginning anyway. -/
def Noticed : Prop :=
  s.follower.file = s.path ∨ s.fileLen < s.follower.offset ∨ s.follower.offset = 0

/-- When the file is renamed away, the follower has read its complete lines, or has it open. When it
looks at the length of the file, it notices if this is another file, and when it opens the file, it
is the one it has looked at. -/
def KeepsUp (s : LogFollow) (action : FollowAction) (_ : LogFollow) : Prop :=
  match action with
  | .writer .rename =>
    match s.follower.phase with
    | .opened file => file = s.path
    | _ => s.follower.started →
        s.follower.file = s.path ∧ Lines.complete newline s.unread = []
  | .sample => s.Noticed
  | .openFile => s.follower.started → s.follower.file = s.path ∨ s.follower.offset = 0
  | _ => True

end LogFollow

/-- The runs of a writer and a follower, from any file or none. -/
def followSystem : TransitionSystem LogFollow FollowAction where
  init s := s.disk.writer.phase = .closed ∧ 0 < s.disk.writer.maxFiles ∧ s.disk.past = [] ∧
    s.follower = .new
  step := LogFollow.step lossy

namespace LogFollow

variable {lossy} {s s' t : LogFollow} {action : FollowAction}

/-- The offset of the first byte of a file that the follower is to read. -/
def beginning (s : LogFollow) (i : ℕ) : ℕ :=
  if i = s.follower.start.1 then s.follower.start.2 else 0

theorem newBytes_eq (s : LogFollow) (i : ℕ) :
    s.newBytes i = (s.disk.content i).drop (s.beginning i) := by
  unfold newBytes beginning
  split_ifs <;> simp

theorem linesBefore_succ {i : ℕ} (h : s.follower.start.1 ≤ i) :
    s.linesBefore (i + 1) = s.linesBefore i ++ s.newLines i := by
  obtain ⟨k, rfl⟩ := Nat.exists_eq_add_of_le h
  have hk : s.follower.start.1 + k + 1 - s.follower.start.1 = k + 1 := by omega
  have hk' : s.follower.start.1 + k - s.follower.start.1 = k := by omega
  rw [linesBefore, linesBefore, hk, hk', List.range'_concat]
  simp

theorem linesBefore_prefix {i j : ℕ} (h : i ≤ j) (hi : s.follower.start.1 ≤ i) :
    s.linesBefore i <+: s.linesBefore j := by
  induction h with
  | refl => exact List.prefix_rfl
  | step hij ih =>
    rw [Nat.succ_eq_add_one, linesBefore_succ (hi.trans hij)]
    exact ih.trans (List.prefix_append _ _)

/-- Where the follower is: it has printed the lines of the earlier files, and some whole lines of the
file that its offset is in. -/
structure Reading (lossy : List UInt8 → List Char) (s : LogFollow) (done : List UInt8) : Prop where
  whole : Lines.rest newline done = []
  newBytes_eq : s.newBytes s.follower.file = done ++ s.unread
  offset_eq : s.follower.offset = s.beginning s.follower.file + done.length
  printed_eq : s.follower.printed =
    (s.linesBefore s.follower.file ++ Lines.complete newline done).map (decode lossy)

/-- The invariant of a follower that has begun. -/
structure Following (lossy : List UInt8 → List Char) (s : LogFollow) : Prop where
  start_le : s.follower.start.1 ≤ s.follower.file
  start_length : s.follower.start.2 ≤ (s.disk.content s.follower.start.1).length
  file_le : s.follower.file ≤ s.path
  path_le : s.path ≤ s.follower.file + 1
  opened : ∀ i, s.follower.phase = .opened i → i = s.follower.file
  behind : s.follower.file < s.path →
    (∃ i, s.follower.phase = .opened i) ∨ Lines.complete newline s.unread = []
  reading : ∃ done, Reading lossy s done

/-- The invariant. -/
structure Tracked (lossy : List UInt8 → List Char) (s : LogFollow) : Prop where
  maxFiles : 0 < s.disk.writer.maxFiles
  fresh : s.follower.started = false →
    s.follower.offset = 0 ∧ s.follower.printed = [] ∧ s.follower.phase ≠ .sampled ∧
      ∀ i, s.follower.phase = .opened i → i ≤ s.path ∧ s.path ≤ i + 1
  following : s.follower.started → s.Following lossy

/-- What was printed of the file, and what is to be printed of it. -/
theorem Reading.newLines_eq {done : List UInt8} (h : Reading lossy s done) :
    s.newLines s.follower.file =
      Lines.complete newline done ++ Lines.complete newline s.unread := by
  rw [newLines, h.newBytes_eq, Lines.complete_append h.whole]

/-- What was printed is what was to be printed, up to the point that the follower has reached. -/
theorem Following.isPrefix (h : s.Following lossy) : s.follower.printed <+: s.expected lossy := by
  obtain ⟨done, hreading⟩ := h.reading
  rw [hreading.printed_eq, expected]
  refine List.IsPrefix.map _ ?_
  rcases lt_or_ge s.follower.file s.disk.files.length with hlt | hge
  · have hsucc := linesBefore_prefix (s := s) hlt (Nat.le_succ_of_le h.start_le)
    rw [Nat.succ_eq_add_one, linesBefore_succ h.start_le, hreading.newLines_eq,
      ← List.append_assoc] at hsucc
    exact (List.prefix_append _ _).trans hsucc
  · -- There is no file yet, so that nothing was read of it.
    have hnone : s.disk.content s.follower.file = [] := by
      rw [LogDisk.content, List.getElem?_eq_none hge, Option.getD_none]
    have hdone : done = [] := by
      have heq := hreading.newBytes_eq
      rw [LogFollow.newBytes_eq, hnone, List.drop_nil] at heq
      exact (List.append_eq_nil_iff.mp heq.symm).1
    rw [hdone, Lines.complete_nil, List.append_nil]
    have hfile : s.follower.file = s.disk.files.length := by
      have hle := h.file_le
      have hlength : s.path ≤ s.disk.files.length := by simp [path, LogDisk.files]
      omega
    exact hfile ▸ List.prefix_rfl

/-! ### The steps of the writer -/

theorem beginning_le (hstart : s.follower.start.2 ≤ (s.disk.content s.follower.start.1).length)
    (i : ℕ) : s.beginning i ≤ (s.disk.content i).length := by
  unfold beginning
  split_ifs with h
  · rw [h]
    exact hstart
  · exact Nat.zero_le _

theorem Following.offset_le (h : s.Following lossy) :
    s.follower.offset ≤ (s.disk.content s.follower.file).length := by
  obtain ⟨done, hreading⟩ := h.reading
  have hbeginning := beginning_le h.start_length s.follower.file
  have hlength := congrArg List.length hreading.newBytes_eq
  rw [LogFollow.newBytes_eq, List.length_drop, List.length_append] at hlength
  have hoffset := hreading.offset_eq
  omega

/-- More arrives in the file at the path. -/
theorem newBytes_append {disk : LogDisk} {l : List UInt8}
    (hstart : s.follower.start.2 ≤ (s.disk.content s.follower.start.1).length)
    (hcontent : ∀ i, disk.content i = s.disk.content i ++ if i = s.path then l else []) (i : ℕ) :
    newBytes { s with disk := disk } i = s.newBytes i ++ if i = s.path then l else [] := by
  rw [newBytes_eq, newBytes_eq]
  show (disk.content i).drop (s.beginning i) = _
  rw [hcontent, List.drop_append_of_le_length (beginning_le hstart i)]

theorem Following.writer {action : WriteAction} {disk : LogDisk} (h : s.Following lossy)
    (hstarted : s.follower.started) (hguard : s.KeepsUp (.writer action) { s with disk := disk })
    (hwritten : s.disk.Written action disk) : Following lossy { s with disk := disk } := by
  obtain ⟨l, hcontent⟩ := hwritten.content
  have hpath : s.path ≤ disk.past.length := by
    rw [hwritten.past_length]
    exact Nat.le_add_right _ _
  -- A file is renamed away when the follower has read it, or has it open.
  have hrename (ha : action = .rename) : s.follower.file = s.path ∧
      ((∃ i, s.follower.phase = .opened i) ∨ Lines.complete newline s.unread = []) := by
    subst ha
    simp only [KeepsUp] at hguard
    split at hguard
    · rename_i file hphase
      exact ⟨(h.opened file hphase).symm.trans hguard, .inl ⟨file, hphase⟩⟩
    · obtain ⟨hfile, hunread⟩ := hguard hstarted
      exact ⟨hfile, .inr hunread⟩
  have hunread : unread { s with disk := disk } =
      s.unread ++ if s.follower.file = s.path then l else [] := by
    show (disk.content s.follower.file).drop s.follower.offset = _
    rw [hcontent, List.drop_append_of_le_length h.offset_le]
    rfl
  have hbefore : linesBefore { s with disk := disk } s.follower.file =
      s.linesBefore s.follower.file := by
    refine List.flatMap_congr fun i hi => ?_
    have hlt : i < s.path := by
      obtain ⟨hge, hlt⟩ := List.mem_range'_1.mp hi
      have hle := h.file_le
      have hstart := h.start_le
      show i < s.path
      simp only at hge hlt
      omega
    rw [newLines, newLines, newBytes_append h.start_length hcontent, if_neg hlt.ne,
      List.append_nil]
  refine ⟨h.start_le, ?_, h.file_le.trans hpath, ?_, h.opened, fun hlt => ?_, ?_⟩
  · show s.follower.start.2 ≤ (disk.content s.follower.start.1).length
    rw [hcontent, List.length_append]
    exact h.start_length.trans (Nat.le_add_right _ _)
  · show disk.past.length ≤ s.follower.file + 1
    rw [hwritten.past_length]
    split_ifs with ha
    · exact Nat.succ_le_succ (hrename ha).1.ge
    · exact h.path_le
  · by_cases ha : action = .rename
    · have hsame : unread { s with disk := disk } = s.unread := by
        show (disk.content s.follower.file).drop s.follower.offset = _
        rw [hwritten.renamed ha]
        rfl
      rw [hsame]
      exact (hrename ha).2
    · have hlt : s.follower.file < s.path := by
        have heq : disk.past.length = s.path := by rw [hwritten.past_length, if_neg ha]; rfl
        exact heq ▸ hlt
      rw [hunread, if_neg hlt.ne, List.append_nil]
      exact h.behind hlt
  · obtain ⟨done, hwhole, hnewBytes, hoffset, hprinted⟩ := h.reading
    refine ⟨done, hwhole, ?_, hoffset, ?_⟩
    · show newBytes { s with disk := disk } s.follower.file = _
      rw [newBytes_append h.start_length hcontent, hnewBytes, hunread, List.append_assoc]
    · show s.follower.printed = (linesBefore { s with disk := disk } s.follower.file ++ _).map _
      rw [hbefore]
      exact hprinted

/-- The writer adds to the file at the path, or renames it away. -/
theorem Tracked.writer {action : WriteAction} {disk : LogDisk} (h : s.Tracked lossy)
    (hguard : s.KeepsUp (.writer action) { s with disk := disk })
    (hwritten : s.disk.Written action disk) : Tracked lossy { s with disk := disk } := by
  have hpath : s.path ≤ disk.past.length := by
    rw [hwritten.past_length]
    exact Nat.le_add_right _ _
  refine ⟨hwritten.maxFiles ▸ h.maxFiles, fun hfresh => ?_, fun hstarted => ?_⟩
  · obtain ⟨hoffset, hprinted, hphase, hopened⟩ := h.fresh hfresh
    refine ⟨hoffset, hprinted, hphase, fun i hi => ?_⟩
    obtain ⟨hle, hge⟩ := hopened i hi
    refine ⟨hle.trans hpath, ?_⟩
    show disk.past.length ≤ i + 1
    rw [hwritten.past_length]
    split_ifs with hrename
    · subst hrename
      have hi : s.follower.phase = .opened i := hi
      simp only [KeepsUp, hi] at hguard
      rw [hguard]
      exact le_rfl
    · exact hge
  · exact (h.following hstarted).writer hstarted hguard hwritten

/-! ### The steps of the follower -/

/-- Another phase, while no lines of an earlier file are left. -/
theorem Following.goTo (h : s.Following lossy) {phase : FollowPhase}
    (hopened : ∀ i, phase = .opened i → i = s.follower.file)
    (hbehind : s.follower.file < s.path →
      (∃ i, phase = .opened i) ∨ Lines.complete newline s.unread = []) :
    Following lossy { s with follower := { s.follower with phase := phase } } := by
  obtain ⟨done, hwhole, hnewBytes, hoffset, hprinted⟩ := h.reading
  exact ⟨h.start_le, h.start_length, h.file_le, h.path_le, hopened, hbehind,
    ⟨done, hwhole, hnewBytes, hoffset, hprinted⟩⟩

/-- The follower goes on to the beginning of the file at the path, no line of the earlier one being
left. -/
theorem Following.turn (h : s.Following lossy) {phase : FollowPhase} (hlt : s.follower.file < s.path)
    (hunread : Lines.complete newline s.unread = [])
    (hopened : ∀ i, phase = .opened i → i = s.path) :
    Following lossy { s with
      follower := { s.follower with phase := phase, offset := 0, file := s.path } } := by
  obtain ⟨done, hreading⟩ := h.reading
  have hpath : s.path = s.follower.file + 1 := by
    have hle := h.path_le
    omega
  have hne : s.path ≠ s.follower.start.1 := by
    have hle := h.start_le
    omega
  refine ⟨h.start_le.trans hlt.le, h.start_length, le_rfl, Nat.le_succ _, hopened,
    fun hlt => absurd hlt (lt_irrefl _), ⟨[], rfl, ?_, ?_, ?_⟩⟩
  · show s.newBytes s.path = [] ++ (s.disk.content s.path).drop 0
    rw [newBytes, if_neg hne]
    rfl
  · show 0 = s.beginning s.path + 0
    rw [beginning, if_neg hne]
  · show s.follower.printed = (s.linesBefore s.path ++ []).map _
    rw [hreading.printed_eq, hpath, linesBefore_succ h.start_le, hreading.newLines_eq, hunread,
      List.append_nil, List.append_nil]

/-- A follower that is not in the middle of a read goes to another phase, and to the beginning of the
file at the path if its offset is zero. -/
theorem Following.refresh (h : s.Following lossy) {phase : FollowPhase}
    (hphase : ∀ i, s.follower.phase ≠ .opened i) (hzero : s.follower.offset = 0)
    (hopened : ∀ i, phase = .opened i → i = s.path) :
    Following lossy { s with
      follower := { s.follower with phase := phase, offset := 0, file := s.path } } := by
  rcases h.file_le.lt_or_eq with hlt | heq
  · refine h.turn hlt ?_ hopened
    exact (h.behind hlt).resolve_left fun ⟨i, hi⟩ => hphase i hi
  · rw [← heq] at hopened ⊢
    rw [← hzero]
    exact h.goTo hopened fun hlt => absurd hlt (heq ▸ lt_irrefl _)

/-- The follower looks at the length of the file, and will notice if this is another one. -/
theorem Following.sample (h : s.Following lossy) (hidle : s.follower.phase = .idle)
    (hnoticed : s.Noticed) : s.sample.Following lossy ∧ s.sample.follower.file = s.path := by
  have hphase : ∀ i, s.follower.phase ≠ .opened i := by simp [hidle]
  have hopened (len offset : ℕ) : ∀ i,
      (if len = offset then FollowPhase.idle else .sampled) = .opened i → i = s.path := by
    intro i
    split_ifs <;> simp
  by_cases hshort : s.fileLen < s.follower.offset
  · simp only [LogFollow.sample, if_pos hshort, if_true]
    refine ⟨?_, trivial⟩
    rcases h.file_le.lt_or_eq with hlt | heq
    · refine h.turn hlt ?_ (hopened _ _)
      exact (h.behind hlt).resolve_left fun ⟨i, hi⟩ => hphase i hi
    · -- The file that the offset is in is not shorter than the offset.
      have hle := h.offset_le
      rw [heq, path, LogDisk.content_past_length] at hle
      exact absurd hshort (not_lt.mpr hle)
  by_cases hzero : s.follower.offset = 0
  · simp only [LogFollow.sample, if_neg hshort, if_pos hzero]
    rw [hzero]
    exact ⟨h.refresh hphase hzero (hopened _ _), trivial⟩
  · simp only [LogFollow.sample, if_neg hshort, if_neg hzero]
    have hfile : s.follower.file = s.path := by
      rcases hnoticed with hfile | hlt | hzero'
      · exact hfile
      · exact absurd hlt hshort
      · exact absurd hzero' hzero
    refine ⟨h.goTo ?_ fun hlt => absurd hlt (hfile ▸ lt_irrefl _), hfile⟩
    exact hfile ▸ hopened _ _

/-- The follower reads the file that its offset is in, and leaves no complete line of it. -/
theorem Following.read (h : s.Following lossy) (hstarted : s.follower.started) :
    (s.read lossy s.follower.file).Following lossy ∧
      (s.read lossy s.follower.file).follower.printed =
        (s.linesBefore (s.follower.file + 1)).map (decode lossy) := by
  obtain ⟨done, hreading⟩ := h.reading
  have hsplit : (Lines.complete newline s.unread).flatten ++ Lines.rest newline s.unread =
      s.unread := Lines.flatten_complete_append_rest s.unread
  have hunread : unread (s.read lossy s.follower.file) = Lines.rest newline s.unread := by
    show (s.disk.content s.follower.file).drop
      (s.follower.offset + (Lines.complete newline s.unread).flatten.length) = _
    rw [← List.drop_drop]
    exact Lines.drop_length_complete s.unread
  have hcomplete : Lines.complete newline (unread (s.read lossy s.follower.file)) = [] := by
    rw [hunread, Lines.complete_rest]
  have hprinted : (s.read lossy s.follower.file).follower.printed =
      (s.linesBefore (s.follower.file + 1)).map (decode lossy) := by
    show (if s.follower.started then _ else _) = _
    rw [if_pos hstarted, hreading.printed_eq, linesBefore_succ h.start_le, hreading.newLines_eq,
      ← List.append_assoc]
    exact (List.map_append ..).symm
  have hstart : (s.read lossy s.follower.file).follower.start = s.follower.start := if_pos hstarted
  have hbeginning (i : ℕ) : (s.read lossy s.follower.file).beginning i = s.beginning i := by
    rw [beginning, hstart, beginning]
  have hnewBytes (i : ℕ) : (s.read lossy s.follower.file).newBytes i = s.newBytes i := by
    rw [newBytes_eq, newBytes_eq, hbeginning]
    rfl
  have hbefore (i : ℕ) : (s.read lossy s.follower.file).linesBefore i = s.linesBefore i := by
    rw [linesBefore, linesBefore, hstart]
    exact List.flatMap_congr fun j _ => congrArg (Lines.complete newline) (hnewBytes j)
  refine ⟨⟨?_, ?_, h.file_le, h.path_le, nofun, fun _ => .inr hcomplete,
    ⟨done ++ (Lines.complete newline s.unread).flatten, ?_, ?_, ?_, ?_⟩⟩, hprinted⟩
  · rw [hstart]
    exact h.start_le
  · rw [hstart]
    exact h.start_length
  · rw [Lines.rest_append hreading.whole, Lines.rest_flatten]
  · show (s.read lossy s.follower.file).newBytes s.follower.file = _
    rw [hnewBytes, hreading.newBytes_eq, hunread, List.append_assoc, hsplit]
  · show s.follower.offset + (Lines.complete newline s.unread).flatten.length = _ + _
    rw [hreading.offset_eq, List.length_append, ← Nat.add_assoc]
    show _ = (s.read lossy s.follower.file).beginning s.follower.file + _ + _
    rw [hbeginning]
  · rw [hprinted]
    show _ = ((s.read lossy s.follower.file).linesBefore s.follower.file ++ _).map _
    rw [hbefore, Lines.complete_append hreading.whole, Lines.complete_flatten, ← List.append_assoc,
      linesBefore_succ h.start_le, hreading.newLines_eq, List.append_assoc]

/-- The first read tells where following begins. -/
theorem following_start {i : ℕ} (hfresh : s.follower.started = false)
    (hoffset : s.follower.offset = 0) (hle : i ≤ s.path) (hge : s.path ≤ i + 1) :
    (s.read lossy i).Following lossy := by
  have hstop : (readLines lossy (s.disk.content i) s.follower.offset).stop =
      (Lines.complete newline (s.disk.content i)).flatten.length := by
    simp [readLines, hoffset]
  have hstart : (s.read lossy i).follower.start =
      (i, (Lines.complete newline (s.disk.content i)).flatten.length) := by
    rw [← hstop]
    exact if_neg (by simp [hfresh])
  have hunread : unread (s.read lossy i) = Lines.rest newline (s.disk.content i) := by
    show (s.disk.content i).drop (readLines lossy (s.disk.content i) s.follower.offset).stop = _
    rw [hstop, Lines.drop_length_complete]
  refine ⟨?_, ?_, hle, hge, nofun, fun _ => .inr ?_, ⟨[], rfl, ?_, ?_, ?_⟩⟩
  · rw [hstart]
    exact le_rfl
  · rw [hstart]
    show (Lines.complete newline (s.disk.content i)).flatten.length ≤ (s.disk.content i).length
    have hlength := congrArg List.length
      (Lines.flatten_complete_append_rest (s.disk.content i) : _ ++ Lines.rest newline _ = _)
    rw [List.length_append] at hlength
    omega
  · rw [hunread, Lines.complete_rest]
  · show (s.read lossy i).newBytes i = [] ++ unread (s.read lossy i)
    rw [newBytes_eq, beginning, hstart, if_pos rfl, ← hstop]
    rfl
  · show (readLines lossy (s.disk.content i) s.follower.offset).stop =
      (s.read lossy i).beginning i + 0
    rw [beginning, hstart, if_pos rfl, hstop]
    rfl
  · show (s.read lossy i).follower.printed = ((s.read lossy i).linesBefore i ++ []).map _
    rw [linesBefore, hstart, Nat.sub_self]
    exact if_neg (by simp [hfresh])

/-- The follower opens the file at the path, which is the one that its offset is in, unless this is
zero. -/
theorem Following.openFile (h : s.Following lossy) (hphase : s.follower.phase = .sampled)
    (hguard : s.follower.file = s.path ∨ s.follower.offset = 0) (hstarted : s.follower.started)
    (hopen : s.openFile = some s') : s'.Following lossy := by
  have hnot : ∀ i, s.follower.phase ≠ .opened i := by simp [hphase]
  unfold LogFollow.openFile at hopen
  split at hopen
  · obtain rfl := Option.some.inj hopen
    by_cases hzero : s.follower.offset = 0
    · simp only [if_pos hzero]
      rw [hzero]
      exact h.refresh hnot hzero (by simp)
    · simp only [if_neg hzero]
      have hfile := hguard.resolve_right hzero
      exact h.goTo (by simp [hfile]) fun _ => .inl ⟨_, rfl⟩
  · rw [if_pos hstarted] at hopen
    obtain rfl := Option.some.inj hopen
    refine h.goTo nofun fun hlt => .inr ?_
    exact (h.behind hlt).resolve_left fun ⟨i, hi⟩ => hnot i hi

/-- Opening the file leaves the disk alone, and what was started. -/
theorem openFile_frame (hopen : s.openFile = some s') :
    s'.disk = s.disk ∧ s'.follower.started = s.follower.started := by
  unfold LogFollow.openFile at hopen
  split at hopen
  · obtain rfl := Option.some.inj hopen
    exact ⟨rfl, rfl⟩
  · obtain ⟨-, hopen⟩ := Option.ite_none_right_eq_some.mp hopen
    obtain rfl := Option.some.inj hopen
    exact ⟨rfl, rfl⟩

/-- Following begins before there is a file. -/
theorem following_missing (hidle : s.follower.phase = .idle) (hoffset : s.follower.offset = 0)
    (hprinted : s.follower.printed = []) :
    Following lossy { s with
      follower := { s.follower with started := true, file := s.path, start := (s.path, 0) } } := by
  refine ⟨le_rfl, Nat.zero_le _, le_rfl, Nat.le_succ _, ?_, fun hlt => absurd hlt (lt_irrefl _),
    ⟨[], rfl, ?_, ?_, ?_⟩⟩
  · simp [hidle]
  · simp [newBytes, unread, hoffset]
  · simp [beginning, hoffset]
  · simp [linesBefore, hprinted]

theorem Tracked.step (h : s.Tracked lossy) (hguard : s.KeepsUp action s')
    (hstep : s.step lossy action = some s') : s'.Tracked lossy := by
  cases action with
  | writer action =>
    obtain ⟨disk, hdisk, rfl⟩ := Option.map_eq_some_iff.mp hstep
    exact h.writer hguard (LogDisk.written_of_write h.maxFiles hdisk)
  | missing =>
    obtain ⟨⟨hfresh, hidle, hnone⟩, hstep⟩ := Option.ite_none_right_eq_some.mp hstep
    obtain rfl := Option.some.inj hstep
    obtain ⟨hoffset, hprinted, -⟩ := h.fresh hfresh
    exact ⟨h.maxFiles, nofun, fun _ => following_missing hidle hoffset hprinted⟩
  | sample =>
    obtain ⟨⟨hstarted, hidle⟩, hstep⟩ := Option.ite_none_right_eq_some.mp hstep
    obtain rfl := Option.some.inj hstep
    refine ⟨h.maxFiles, fun hfresh => ?_, fun _ => ((h.following hstarted).sample hidle hguard).1⟩
    rw [show s.sample.follower.started = s.follower.started from rfl, hstarted] at hfresh
    cases hfresh
  | openFile =>
    obtain ⟨hphase, hstep⟩ := Option.ite_none_right_eq_some.mp hstep
    obtain ⟨hdisk, hkept⟩ := openFile_frame hstep
    rcases hstarted : s.follower.started
    · refine ⟨hdisk ▸ h.maxFiles, fun _ => ?_, fun hstarted' => ?_⟩
      · obtain ⟨hoffset, hprinted, -⟩ := h.fresh hstarted
        unfold LogFollow.openFile at hstep
        split at hstep
        · obtain rfl := Option.some.inj hstep
          refine ⟨hoffset, hprinted, nofun, fun i hi => ?_⟩
          obtain rfl : s.path = i := FollowPhase.opened.inj hi
          exact ⟨le_rfl, Nat.le_succ _⟩
        · simp [hstarted] at hstep
      · rw [hkept, hstarted] at hstarted'
        cases hstarted'
    · rw [hstarted, if_pos rfl] at hphase
      have hfollowing :=
        (h.following hstarted).openFile hphase (hguard hstarted) hstarted hstep
      refine ⟨hdisk ▸ h.maxFiles, fun hfresh => ?_, fun _ => hfollowing⟩
      rw [hkept, hstarted] at hfresh
      cases hfresh
  | read =>
    simp only [LogFollow.step] at hstep
    split at hstep
    · rename_i i hphase
      obtain rfl := Option.some.inj hstep
      refine ⟨h.maxFiles, nofun, fun _ => ?_⟩
      rcases hstarted : s.follower.started
      · obtain ⟨hoffset, -, -, hopened⟩ := h.fresh hstarted
        obtain ⟨hle, hge⟩ := hopened i hphase
        exact following_start hstarted hoffset hle hge
      · have hfollowing := h.following hstarted
        rw [hfollowing.opened i hphase]
        exact (hfollowing.read hstarted).1
    · cases hstep

theorem tracked_of_reachable (h : (followSystem lossy).Reachable KeepsUp s) : s.Tracked lossy := by
  refine h.invariant ?_ fun _ hT hguard hstep => hT.step hguard hstep
  rintro s₀ ⟨-, hmaxFiles, -, hfollower⟩
  exact ⟨hmaxFiles, fun _ => by simp [hfollower, Follower.new], fun hstarted => by
    simp [hfollower, Follower.new] at hstarted⟩

/-- The file at the path is the last one, if there is one. -/
theorem expected_eq (hstart : s.follower.start.1 ≤ s.path) :
    s.expected lossy = (s.linesBefore (s.path + 1)).map (decode lossy) := by
  rcases hcurrent : s.disk.current with _ | file
  · have hlength : s.disk.files.length = s.path := by simp [LogDisk.files, path, hcurrent]
    have hnone : s.newLines s.path = [] := by
      rw [newLines, newBytes_eq, path, LogDisk.content_past_length, hcurrent]
      simp
    rw [expected, hlength, linesBefore_succ hstart, hnone, List.append_nil]
  · have hlength : s.disk.files.length = s.path + 1 := by simp [LogDisk.files, path, hcurrent]
    rw [expected, hlength]

/-- A poll with nothing in between prints all there is. -/
theorem Following.poll (h : s.Following lossy) (hstarted : s.follower.started)
    (hidle : s.follower.phase = .idle) (hnoticed : s.Noticed) :
    ∃ t, s.poll lossy = some t ∧ t.follower.printed = s.expected lossy := by
  obtain ⟨hsample, hfile⟩ := h.sample hidle hnoticed
  have hexpected : s.expected lossy = (s.linesBefore (s.path + 1)).map (decode lossy) :=
    expected_eq (h.start_le.trans h.file_le)
  have hphase : s.sample.follower.phase =
      if s.fileLen = s.sample.follower.offset then .idle else .sampled := rfl
  by_cases hlength : s.fileLen = s.sample.follower.offset
  · -- The file is as long as the offset, and is the one that the offset is in.
    rw [if_pos hlength] at hphase
    have hunread : s.sample.unread = [] := by
      rw [unread, hfile]
      refine List.drop_eq_nil_of_le ?_
      rw [← hlength]
      show (s.disk.content s.disk.past.length).length ≤ _
      rw [LogDisk.content_past_length]
      exact le_rfl
    obtain ⟨done, hreading⟩ := hsample.reading
    have hnewLines := hreading.newLines_eq
    have hprinted := hreading.printed_eq
    rw [hunread, Lines.complete_nil, List.append_nil] at hnewLines
    rw [← hnewLines, ← linesBefore_succ hsample.start_le, hfile] at hprinted
    refine ⟨s.sample, ?_, hprinted.trans hexpected.symm⟩
    rw [LogFollow.poll, hphase]
    show s.step lossy .sample = some s.sample
    exact if_pos ⟨hstarted, hidle⟩
  · rw [if_neg hlength] at hphase
    have hopen : s.sample.openFile = some { s.sample with
        follower := { s.sample.follower with phase := .opened s.path, file := s.path } } := by
      rcases hcurrent : s.disk.current with _ | file
      · have hzero : s.fileLen = 0 := by simp [fileLen, hcurrent]
        refine absurd ?_ hlength
        rw [hzero]
        show 0 = if s.fileLen < s.follower.offset then 0 else s.follower.offset
        split_ifs <;> omega
      · have hcurrent' : s.sample.disk.current = some file := hcurrent
        have hpath : s.sample.path = s.path := rfl
        simp only [LogFollow.openFile, hcurrent', hfile, hpath, ite_self]
    obtain ⟨hread, hprinted⟩ :=
      (hsample.openFile hphase (.inl hfile) hstarted hopen).read hstarted
    refine ⟨_, ?_, hprinted.trans hexpected.symm⟩
    have hstep : s.sample.step lossy .openFile = s.sample.openFile :=
      if_pos (hphase.trans (if_pos hstarted).symm)
    rw [LogFollow.poll, if_pos hphase, hstep, hopen]
    rfl

/-- The lines printed are the first ones of those to be printed, and a poll prints them all. -/
structure Followed (lossy : List UInt8 → List Char) (s : LogFollow) : Prop where
  isPrefix : s.follower.printed <+: s.expected lossy
  poll : s.follower.phase = .idle → s.Noticed →
    ∃ t, s.poll lossy = some t ∧ t.follower.printed = s.expected lossy

/-- **Each line is printed once, whole and in order**, in every run in which the follower has read a
file by the time it is renamed away and notices that another one is in its place. -/
theorem followed_of_reachable (h : (followSystem lossy).Reachable KeepsUp s)
    (hstarted : s.follower.started) : s.Followed lossy := by
  have hfollowing := (tracked_of_reachable h).following hstarted
  exact ⟨hfollowing.isPrefix, hfollowing.poll hstarted⟩

/-- `String::from_utf8_lossy` on text that is ASCII. -/
def asciiText (raw : List UInt8) : List Char := raw.map fun byte => Char.ofNat byte.toNat

/-- A file of one line, and room for little more. -/
def shortLog : LogFollow where
  disk :=
    { writer := { maxSize := 3, maxFiles := 1, buffer := [], size := 0, unflushed := 0, phase := .closed }
      past := []
      current := some [120, newline] }
  follower := .new

theorem init_shortLog : (followSystem asciiText).init shortLog := ⟨rfl, by decide, rfl, rfl⟩

/-- The follower begins, and the next line goes to a fresh file. -/
def rotateOnce (line : List UInt8) : List FollowAction :=
  [.openFile, .read, .writer .open', .writer (.writeLine line), .writer .rename, .writer .create]

/-- The follower polls while little of the line has arrived. -/
def followShort : List FollowAction :=
  rotateOnce [121, 121] ++ [.writer (.spill 1), .sample, .writer (.spill 2), .openFile, .read]

/-- The follower polls when the whole line has arrived. -/
def followLong : List FollowAction :=
  rotateOnce [121, 121, 121, 121] ++ [.writer (.spill 5), .sample, .openFile, .read]

/-- The follower, when it is idle, has read the file; it looks at the file that its offset is in, or
at a shorter one. -/
def readInTime (s : LogFollow) (action : FollowAction) : Bool :=
  match action with
  | .writer .rename => s.follower.phase = .idle ∧ s.follower.file = s.path ∧ s.unread = []
  | .sample => s.follower.file = s.path ∨ s.fileLen < s.follower.offset
  | .openFile => s.follower.file = s.path
  | _ => true

theorem keepsUp_of_readInTime (h : readInTime s action) : s.KeepsUp action s' := by
  unfold KeepsUp
  split
  · obtain ⟨hidle, hfile, hunread⟩ := of_decide_eq_true h
    rw [hidle]
    exact fun _ => ⟨hfile, by rw [hunread, Lines.complete_nil]⟩
  · rcases of_decide_eq_true h with hfile | hlt
    · exact .inl hfile
    · exact .inr (.inl hlt)
  · exact fun _ => .inl (of_decide_eq_true h)
  · trivial

theorem followed_followShort :
    ∃ s, (followSystem asciiText).checkedRun readInTime shortLog followShort = some s ∧
      s.follower.printed = ["yy"] ∧ s.Followed asciiText := by
  have hrun : ((followSystem asciiText).checkedRun readInTime shortLog followShort).map (fun s =>
      decide (s.follower.started ∧ s.follower.printed = ["yy"])) = some true := by decide +kernel
  obtain ⟨s, hs, hfacts⟩ := Option.map_eq_some_iff.mp hrun
  obtain ⟨hstarted, hprinted⟩ := of_decide_eq_true hfacts
  have hguard : ∀ s a s', readInTime s a → (followSystem asciiText).step s a = some s' →
      KeepsUp s a s' := fun _ _ _ hcheck _ => keepsUp_of_readInTime hcheck
  exact ⟨s, hs, hprinted, followed_of_reachable
    ⟨_, init_shortLog, TransitionSystem.steps_of_checkedRun hguard hs⟩ hstarted⟩

/-- The fresh file has become longer than the old offset, and its line is printed from the middle. -/
theorem followLong_not_prefix :
    ¬ ∀ s₀ actions s, (followSystem asciiText).init s₀ →
      (followSystem asciiText).run s₀ actions = some s →
      actions.count (.writer .rename) ≤ 1 → s.follower.started →
      s.follower.printed <+: s.expected asciiText := by
  intro hall
  have hrun : ((followSystem asciiText).run shortLog followLong).map (fun s =>
      decide (s.follower.started ∧ s.follower.printed = ["yy"] ∧
        s.expected asciiText = ["yyyy"])) = some true := by decide +kernel
  obtain ⟨s, hs, hfacts⟩ := Option.map_eq_some_iff.mp hrun
  obtain ⟨hstarted, hprinted, hexpected⟩ := of_decide_eq_true hfacts
  have hprefix := hall shortLog followLong s init_shortLog hs (by decide) hstarted
  rw [hprinted, hexpected] at hprefix
  exact absurd hprefix (by decide)

end LogFollow

end Servicrab
