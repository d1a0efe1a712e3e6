import Servicrab.Logs.Follow
import Mathlib.Data.List.DropRight

/-!
# The command that shows the logs

`logs -f` reads the end of each log file, prints these lines as a block for each service, and then
follows the files in turn (`logs.rs`). A line that is still being written when the end is read is left
to the pass that finds it finished.

The writers of the services may take their steps between any two of these.

## Main definitions

* `readTail`, `Source`, `LogsCommand`, `logsCommand`.
* `LogFollow.linesBehind`: the lines before the point where following began.
* `LogsCommand.Handover`: what is shown of a service.

## Main results

* `LogsCommand.handover_of_reachable`.
-/

namespace Servicrab

-- `String::from_utf8_lossy`.
variable (lossy : List UInt8 → List Char)

/-- The last lines of a file, and where they end. -/
structure Tail where
  lines : List String
  stop : ℕ

/-- Read the last lines of a file, tolerating a missing file. Without `follow`, half a line is all there
will ever be to show of it. -/
def readTail (content : Option (List UInt8)) (count : ℕ) (follow : Bool) : Tail :=
  match content with
  | none => ⟨[], 0⟩
  | some content =>
    let chunk := readLines lossy content 0
    let lines := if follow then chunk.lines else chunk.lines ++ chunk.unfinished.toList
    { lines :=
        if count = 0 then []
        else if count < lines.length then lines.drop (lines.length - count)
        else lines
      stop := chunk.stop }

/-- What is kept are the last lines. -/
theorem lines_readTail (content : List UInt8) (count : ℕ) :
    (readTail lossy (some content) count true).lines =
      (readLines lossy content 0).lines.rtake count := by
  simp only [readTail, if_true, List.rtake]
  split_ifs with hzero hlt
  · simp [hzero]
  · rfl
  · rw [Nat.sub_eq_zero_of_le (Nat.le_of_not_lt hlt), List.drop_zero]

/-- One followed log file, with the lines that `read_tail` has returned. -/
structure Source where
  log : LogFollow
  lines : List String
  deriving DecidableEq

/-- Whether the action is one of the command, and not of a writer. -/
def FollowAction.isReader : FollowAction → Bool
  | .writer _ => false
  | _ => true

/-- A step of a writer or of the command on one file. -/
def Source.step (count : ℕ) (s : Source) (action : FollowAction) : Option Source :=
  (s.log.step lossy action).map fun log =>
    { log := log
      lines :=
        if log.follower.started && !s.log.follower.started then
          match action with
          | .read => (readTail lossy (some (s.log.disk.content log.follower.file)) count true).lines
          | _ => (readTail lossy none count true).lines
        else s.lines }

/-- The command that shows the logs. -/
structure LogsCommand where
  sources : List Source
  /-- The file that is read next. -/
  turn : ℕ
  /-- Whether the ends of the files are printed, so that they are followed. -/
  following : Bool
  /-- The lines printed, each with the file it is from. -/
  output : List (ℕ × String)
  deriving DecidableEq

/-- A step of the command or of its surroundings. -/
inductive LogsAction
  | source (i : ℕ) (action : FollowAction)
  /-- The last lines are printed, a block for each service. -/
  | print
  deriving DecidableEq

namespace LogsCommand

variable (count : ℕ) (s : LogsCommand)

/-- The last lines, a block for each file. -/
def blocks : List (ℕ × String) :=
  (s.sources.zipIdx).flatMap fun (source, i) => source.lines.map fun line => (i, line)

/-- The file that is read after a step on one. -/
def nextTurn (source : Source) : ℕ :=
  if s.following then
    if source.log.follower.phase = .idle then (s.turn + 1) % s.sources.length else s.turn
  else if source.log.follower.started then s.turn + 1
  else s.turn

/-- The lines that a step on a file prints. -/
def newOutput (i : ℕ) (before after : Source) : List (ℕ × String) :=
  (after.log.follower.printed.drop before.log.follower.printed.length).map fun line => (i, line)

/-- One step. -/
def step : LogsAction → Option LogsCommand
  | .source i action =>
    if action.isReader → i = s.turn then
      (s.sources[i]?).bind fun source => (source.step lossy count action).map fun source' =>
        { s with
          sources := s.sources.set i source'
          turn := if action.isReader then s.nextTurn source' else s.turn
          output := s.output ++ newOutput i source source' }
    else none
  | .print =>
    if !s.following && s.turn == s.sources.length then
      some { s with turn := 0, following := true, output := s.output ++ s.blocks }
    else none

/-- The command keeps up with every file. -/
def KeepsUp (s : LogsCommand) (action : LogsAction) (_ : LogsCommand) : Prop :=
  match action with
  | .source i action => ∀ source, s.sources[i]? = some source →
      ∀ log, source.log.step lossy action = some log → source.log.KeepsUp action log
  | .print => True

/-- What is shown of a file. -/
def shown (i : ℕ) : List String := (s.output.filter fun entry => entry.1 = i).map Prod.snd

end LogsCommand

/-- The runs of the command, on any files. -/
def logsCommand (count : ℕ) : TransitionSystem LogsCommand LogsAction where
  init s := (∀ source ∈ s.sources, (followSystem lossy).init source.log) ∧ s.turn = 0 ∧
    s.following = false ∧ s.output = []
  step := LogsCommand.step lossy count

/-! ### Before the point where following began -/

namespace LogFollow

variable {lossy} {s s' : LogFollow} {action : FollowAction}

/-- What was in the file where following began, up to that point. -/
def behind (s : LogFollow) : List UInt8 :=
  (s.disk.content s.follower.start.1).take s.follower.start.2

/-- The complete lines before the point where following began. -/
def linesBehind (s : LogFollow) : List (List UInt8) := Lines.complete newline s.behind

/-- The complete lines in all the files from the one where following began on. -/
def allLines (s : LogFollow) : List (List UInt8) :=
  (List.range' s.follower.start.1 (s.disk.files.length - s.follower.start.1)).flatMap fun i =>
    Lines.complete newline (s.disk.content i)

/-- Following began at the end of a line, so no line is torn there. -/
theorem allLines_eq (hwhole : Lines.rest newline s.behind = []) :
    s.allLines = s.linesBehind ++ s.linesBefore s.disk.files.length := by
  rcases Nat.lt_or_ge s.follower.start.1 s.disk.files.length with hlt | hge
  · obtain ⟨k, hk⟩ : ∃ k, s.disk.files.length - s.follower.start.1 = k + 1 :=
      ⟨s.disk.files.length - s.follower.start.1 - 1, by omega⟩
    have hfirst : Lines.complete newline (s.disk.content s.follower.start.1) =
        s.linesBehind ++ s.newLines s.follower.start.1 := by
      rw [linesBehind, newLines, newBytes, if_pos rfl, ← Lines.complete_append hwhole, behind,
        List.take_append_drop]
    have hlater : (List.range' (s.follower.start.1 + 1) k).flatMap (fun i =>
        Lines.complete newline (s.disk.content i)) =
        (List.range' (s.follower.start.1 + 1) k).flatMap s.newLines := by
      refine List.flatMap_congr fun i hi => ?_
      obtain ⟨hge, -⟩ := List.mem_range'_1.mp hi
      rw [newLines, newBytes, if_neg (by omega)]
    rw [allLines, linesBefore, hk, List.range'_succ, List.flatMap_cons, List.flatMap_cons, hfirst,
      hlater, List.append_assoc]
  · have hnone : s.behind = [] := by
      rw [behind, LogDisk.content, List.getElem?_eq_none hge, Option.getD_none, List.take_nil]
    have hzero : s.disk.files.length - s.follower.start.1 = 0 := by omega
    rw [allLines, linesBefore, linesBehind, hzero, hnone]
    rfl

/-- What is behind stays the same. -/
theorem behind_step (h : s.Tracked lossy) (hstarted : s.follower.started)
    (hstep : s.step lossy action = some s') :
    s'.behind = s.behind ∧ s'.follower.started ∧
      s.follower.printed <+: s'.follower.printed := by
  cases action with
  | writer action =>
    obtain ⟨disk, hdisk, rfl⟩ := Option.map_eq_some_iff.mp hstep
    obtain ⟨l, hcontent⟩ := (LogDisk.written_of_write h.maxFiles hdisk).content
    refine ⟨?_, hstarted, List.prefix_rfl⟩
    show (disk.content s.follower.start.1).take s.follower.start.2 = _
    rw [hcontent, List.take_append_of_le_length (h.following hstarted).start_length]
    rfl
  | missing =>
    obtain ⟨⟨hfresh, -⟩, -⟩ := Option.ite_none_right_eq_some.mp hstep
    rw [hstarted] at hfresh
    cases hfresh
  | sample =>
    obtain ⟨-, hstep⟩ := Option.ite_none_right_eq_some.mp hstep
    obtain rfl := Option.some.inj hstep
    exact ⟨rfl, hstarted, List.prefix_rfl⟩
  | openFile =>
    obtain ⟨-, hstep⟩ := Option.ite_none_right_eq_some.mp hstep
    unfold LogFollow.openFile at hstep
    split at hstep
    · obtain rfl := Option.some.inj hstep
      exact ⟨rfl, hstarted, List.prefix_rfl⟩
    · rw [if_pos hstarted] at hstep
      obtain rfl := Option.some.inj hstep
      exact ⟨rfl, hstarted, List.prefix_rfl⟩
  | read =>
    simp only [LogFollow.step] at hstep
    split at hstep
    · rename_i file _
      obtain rfl := Option.some.inj hstep
      have hstart : (s.read lossy file).follower.start = s.follower.start := if_pos hstarted
      refine ⟨?_, rfl, ?_⟩
      · rw [behind, hstart]
        rfl
      · show s.follower.printed <+: if s.follower.started then _ else _
        rw [if_pos hstarted]
        exact List.prefix_append _ _
    · cases hstep

/-- Following begins after the complete lines of a file, or before there is one. -/
theorem fresh_step (h : s.Tracked lossy) (hfresh : s.follower.started = false)
    (hstep : s.step lossy action = some s') :
    s'.follower.printed = [] ∧ (s'.follower.started →
      (action ≠ .read ∧ s'.behind = []) ∨ (action = .read ∧
        s'.behind = (Lines.complete newline (s.disk.content s'.follower.file)).flatten)) := by
  obtain ⟨hoffset, hprinted, -, -⟩ := h.fresh hfresh
  have hnot : ¬s.follower.started := by simp [hfresh]
  cases action with
  | writer action =>
    obtain ⟨disk, -, rfl⟩ := Option.map_eq_some_iff.mp hstep
    exact ⟨hprinted, fun hstarted => absurd hstarted hnot⟩
  | missing =>
    obtain ⟨-, hstep⟩ := Option.ite_none_right_eq_some.mp hstep
    obtain rfl := Option.some.inj hstep
    exact ⟨hprinted, fun _ => .inl ⟨nofun, List.take_zero⟩⟩
  | sample =>
    obtain ⟨⟨hstarted, -⟩, -⟩ := Option.ite_none_right_eq_some.mp hstep
    exact absurd hstarted hnot
  | openFile =>
    obtain ⟨-, hstep⟩ := Option.ite_none_right_eq_some.mp hstep
    unfold LogFollow.openFile at hstep
    split at hstep
    · obtain rfl := Option.some.inj hstep
      exact ⟨hprinted, fun hstarted => absurd hstarted hnot⟩
    · rw [if_neg hnot] at hstep
      cases hstep
  | read =>
    simp only [LogFollow.step] at hstep
    split at hstep
    · rename_i file _
      obtain rfl := Option.some.inj hstep
      refine ⟨if_neg hnot, fun _ => .inr ⟨rfl, ?_⟩⟩
      have hstop : (s.read lossy file).follower.start =
          (file, (Lines.complete newline (s.disk.content file)).flatten.length) := by
        have hstart : (s.read lossy file).follower.start =
            (file, (readLines lossy (s.disk.content file) s.follower.offset).stop) := if_neg hnot
        rw [hstart]
        simp [readLines, hoffset]
      rw [behind, hstop]
      have htake : ((Lines.complete newline (s.disk.content file)).flatten ++
          Lines.rest newline (s.disk.content file)).take
            (Lines.complete newline (s.disk.content file)).flatten.length =
          (Lines.complete newline (s.disk.content file)).flatten := List.take_left
      rwa [Lines.flatten_complete_append_rest] at htake
    · cases hstep

end LogFollow

/-! ### One file -/

namespace Source

variable {lossy} {count : ℕ} {s s' : Source} {action : FollowAction}

/-- What `read_tail` has returned are the last lines before the point where following began. -/
structure Told (lossy : List UInt8 → List Char) (count : ℕ) (s : Source) : Prop where
  whole : Lines.rest newline s.log.behind = []
  lines_eq : s.lines = (s.log.linesBehind.map (decode lossy)).rtake count

theorem told_of_started (h : s.log.Tracked lossy)
    (htold : s.log.follower.started → s.Told lossy count)
    (hstep : s.step lossy count action = some s') (hstarted : s'.log.follower.started) :
    s'.Told lossy count := by
  obtain ⟨log, hlog, rfl⟩ := Option.map_eq_some_iff.mp hstep
  rcases hfresh : s.log.follower.started
  · have hbegun : log.follower.started := hstarted
    rcases (LogFollow.fresh_step h hfresh hlog).2 hbegun with ⟨hread, hbehind⟩ | ⟨rfl, hbehind⟩
    · refine ⟨by rw [hbehind]; rfl, ?_⟩
      rw [LogFollow.linesBehind, hbehind]
      simp only [hbegun, Bool.not_false, Bool.and_self, if_true]
      simp [readTail, List.rtake]
    · refine ⟨by rw [hbehind]; exact Lines.rest_flatten _, ?_⟩
      rw [LogFollow.linesBehind, hbehind, Lines.complete_flatten]
      simp only [hbegun, Bool.not_false, Bool.and_self, if_true]
      rw [lines_readTail]
      rfl
  · obtain ⟨hbehind, -, -⟩ := LogFollow.behind_step h hfresh hlog
    obtain ⟨hwhole, hlines⟩ := htold hfresh
    refine ⟨by rw [hbehind]; exact hwhole, ?_⟩
    rw [LogFollow.linesBehind, hbehind, ← LogFollow.linesBehind]
    simpa only [hfresh, Bool.not_true, Bool.and_false, Bool.false_eq_true, if_false] using hlines

/-- A file that is followed stays so, and what was printed of it stays printed. -/
theorem followed_step (h : s.log.Tracked lossy) (hstarted : s.log.follower.started)
    (hstep : s.step lossy count action = some s') :
    s'.log.follower.started ∧ s.log.follower.printed <+: s'.log.follower.printed ∧
      s'.lines = s.lines := by
  obtain ⟨log, hlog, rfl⟩ := Option.map_eq_some_iff.mp hstep
  obtain ⟨-, hkept, hprinted⟩ := LogFollow.behind_step h hstarted hlog
  refine ⟨hkept, hprinted, ?_⟩
  simp only [hstarted, Bool.not_true, Bool.and_false, Bool.false_eq_true, if_false]

/-- Nothing is printed of a file before it is followed. -/
theorem fresh_step (h : s.log.Tracked lossy) (hfresh : s.log.follower.started = false)
    (hstep : s.step lossy count action = some s') :
    s.log.follower.printed = [] ∧ s'.log.follower.printed = [] := by
  obtain ⟨log, hlog, rfl⟩ := Option.map_eq_some_iff.mp hstep
  exact ⟨(h.fresh hfresh).2.1, (LogFollow.fresh_step h hfresh hlog).1⟩

/-- A writer does not move the command. -/
theorem started_of_writer (hwriter : ¬action.isReader) (hstep : s.step lossy count action = some s') :
    s'.log.follower = s.log.follower := by
  obtain ⟨log, hlog, rfl⟩ := Option.map_eq_some_iff.mp hstep
  cases action with
  | writer action =>
    obtain ⟨disk, -, rfl⟩ := Option.map_eq_some_iff.mp hlog
    rfl
  | _ => exact absurd rfl hwriter

end Source

/-! ### The command -/

namespace LogsCommand

variable {lossy} {count : ℕ} {s s' : LogsCommand}

/-- The lines of a file in the blocks. -/
theorem shown_blocks (sources : List Source) (i : ℕ) : ∀ k,
    (((sources.zipIdx k).flatMap fun (source, j) => source.lines.map fun line => (j, line)).filter
      fun entry => entry.1 = i + k).map Prod.snd = (sources[i]?).elim [] Source.lines := by
  induction sources generalizing i with
  | nil => simp
  | cons source sources ih =>
    intro k
    have hlater (entry : ℕ × String)
        (hentry : entry ∈ (sources.zipIdx (k + 1)).flatMap fun (source, j) =>
          source.lines.map fun line => (j, line)) : k < entry.1 := by
      obtain ⟨⟨other, j⟩, hother, hentry⟩ := List.mem_flatMap.mp hentry
      obtain ⟨line, -, rfl⟩ := List.mem_map.mp hentry
      exact (List.mem_zipIdx hother).1
    rw [List.zipIdx_cons, List.flatMap_cons, List.filter_append, List.map_append, List.filter_map,
      List.map_map]
    cases i with
    | zero =>
      have hnone : (((sources.zipIdx (k + 1)).flatMap fun (source, j) =>
          source.lines.map fun line => (j, line)).filter fun entry => entry.1 = 0 + k) = [] := by
        refine List.filter_eq_nil_iff.mpr fun entry hentry => ?_
        have hlt := hlater entry hentry
        simp only [decide_eq_true_eq]
        omega
      rw [hnone]
      simp [Function.comp_def]
    | succ i =>
      have hfirst : (source.lines.filter ((fun entry : ℕ × String => decide (entry.1 = i + 1 + k)) ∘
          fun line => (k, line))) = [] := by
        refine List.filter_eq_nil_iff.mpr fun line _ => ?_
        simp only [Function.comp_apply, decide_eq_true_eq]
        omega
      rw [hfirst, List.map_nil, List.nil_append, List.getElem?_cons_succ, ← ih i (k + 1)]
      congr 2
      funext entry
      congr 2
      omega

/-- The invariant of one file: those that come before the turn have been begun, and what was shown of it
are its last lines, once they are printed, and the lines that were printed since. -/
structure InTurn (lossy : List UInt8 → List Char) (count : ℕ) (s : LogsCommand) (i : ℕ)
    (source : Source) : Prop where
  tracked : source.log.Tracked lossy
  told : source.log.follower.started → source.Told lossy count
  waiting : s.following = false →
    source.log.follower.printed = [] ∧ (source.log.follower.started ↔ i < s.turn)
  begun : s.following → source.log.follower.started
  shown_eq : s.shown i =
    (if s.following then source.lines else []) ++ source.log.follower.printed

/-- The invariant. -/
def Inv (lossy : List UInt8 → List Char) (count : ℕ) (s : LogsCommand) : Prop :=
  ∀ (i : ℕ) (source : Source), s.sources[i]? = some source → s.InTurn lossy count i source

/-- What a step on one file shows of a file. -/
theorem shown_append (output : List (ℕ × String)) {before after : Source} (i j : ℕ) :
    ((output ++ newOutput i before after).filter fun entry => entry.1 = j).map Prod.snd =
      (output.filter fun entry => entry.1 = j).map Prod.snd ++
        if i = j then after.log.follower.printed.drop before.log.follower.printed.length else [] := by
  rw [List.filter_append, List.map_append, newOutput, List.filter_map, List.map_map]
  split_ifs with h
  · simp [h, Function.comp_def]
  · simp [h, Function.comp_def]

/-- The file that a step is on. -/
theorem InTurn.step {i : ℕ} {source source' : Source} {action : FollowAction}
    (h : s.InTurn lossy count i source) (hturn : action.isReader → i = s.turn)
    (hguard : ∀ log, source.log.step lossy action = some log → source.log.KeepsUp action log)
    (hstep : source.step lossy count action = some source') :
    InTurn lossy count { s with
      sources := s.sources.set i source'
      turn := if action.isReader then s.nextTurn source' else s.turn
      output := s.output ++ newOutput i source source' } i source' := by
  have hshown : source.log.follower.printed <+: source'.log.follower.printed ∧
      (s.following → source'.lines = source.lines) := by
    rcases hstarted : source.log.follower.started
    · obtain ⟨hprinted, hprinted'⟩ := Source.fresh_step h.tracked hstarted hstep
      rw [hprinted, hprinted']
      refine ⟨List.prefix_rfl, fun hfollowing => ?_⟩
      rw [h.begun hfollowing] at hstarted
      cases hstarted
    · obtain ⟨-, hprinted, hlines⟩ := Source.followed_step h.tracked hstarted hstep
      exact ⟨hprinted, fun _ => hlines⟩
  have htracked : source'.log.Tracked lossy := by
    obtain ⟨log, hlog, rfl⟩ := Option.map_eq_some_iff.mp hstep
    exact h.tracked.step (hguard log hlog) hlog
  refine ⟨htracked, Source.told_of_started h.tracked h.told hstep, fun hwait => ?_,
    fun hfollowing => (Source.followed_step h.tracked (h.begun hfollowing) hstep).1, ?_⟩
  · obtain ⟨hprinted, hbegun⟩ := h.waiting hwait
    by_cases hreader : action.isReader
    · -- The file whose turn it is has not been begun.
      have hfresh : source.log.follower.started = false := by
        rw [Bool.eq_false_iff, Ne, hbegun, hturn hreader]
        exact lt_irrefl _
      refine ⟨(Source.fresh_step h.tracked hfresh hstep).2, ?_⟩
      have hwait : s.following = false := hwait
      simp only [if_pos hreader, nextTurn, hwait, Bool.false_eq_true, if_false, hturn hreader]
      split_ifs with hstarted
      · simp [hstarted]
      · simp [hstarted]
    · rw [Source.started_of_writer hreader hstep, if_neg hreader]
      exact ⟨hprinted, hbegun⟩
  · show (List.filter _ (s.output ++ newOutput i source source')).map Prod.snd = _
    rw [shown_append, if_pos rfl]
    obtain ⟨more, hmore⟩ := hshown.1
    rw [← hmore, List.drop_left, ← List.append_assoc]
    refine congrArg (· ++ more) ?_
    show s.shown i = (if s.following then source'.lines else []) ++ _
    rw [h.shown_eq]
    split_ifs with hfollowing
    · rw [hshown.2 hfollowing]
    · rfl

/-- Another file. -/
theorem InTurn.other {i j : ℕ} {before after other : Source} {action : FollowAction}
    (h : s.InTurn lossy count j other) (hne : i ≠ j) (hturn : action.isReader → i = s.turn) :
    InTurn lossy count { s with
      sources := s.sources.set i after
      turn := if action.isReader then s.nextTurn after else s.turn
      output := s.output ++ newOutput i before after } j other := by
  refine ⟨h.tracked, h.told, fun hwait => ?_, h.begun, ?_⟩
  · obtain ⟨hprinted, hbegun⟩ := h.waiting hwait
    refine ⟨hprinted, hbegun.trans ?_⟩
    by_cases hreader : action.isReader
    · have hi := hturn hreader
      have hwait : s.following = false := hwait
      simp only [if_pos hreader, nextTurn, hwait, Bool.false_eq_true, if_false]
      split_ifs <;> omega
    · rw [if_neg hreader]
  · show (List.filter _ (s.output ++ newOutput i before after)).map Prod.snd = _
    rw [shown_append, if_neg hne, List.append_nil]
    exact h.shown_eq

theorem Inv.step {action : LogsAction} (h : s.Inv lossy count) (hguard : s.KeepsUp lossy action s')
    (hstep : s.step lossy count action = some s') : s'.Inv lossy count := by
  cases action with
  | source i action =>
    obtain ⟨hturn, hstep⟩ := Option.ite_none_right_eq_some.mp hstep
    obtain ⟨source, hsource, hstep⟩ := Option.bind_eq_some_iff.mp hstep
    obtain ⟨source', hsource', rfl⟩ := Option.map_eq_some_iff.mp hstep
    intro j other hother
    rw [List.getElem?_set] at hother
    split_ifs at hother with he hlt
    · subst he
      obtain rfl := Option.some.inj hother
      exact (h i source hsource).step hturn (hguard source hsource) hsource'
    · exact (h j other hother).other he hturn
  | print =>
    simp only [LogsCommand.step] at hstep
    split_ifs at hstep with hready
    obtain rfl := Option.some.inj hstep
    obtain ⟨hwait, hall⟩ : s.following = false ∧ s.turn = s.sources.length := by
      simpa using hready
    intro i source hsource
    have hbefore := h i source hsource
    obtain ⟨hprinted, hbegun⟩ := hbefore.waiting hwait
    have hlt : i < s.turn := hall ▸ (List.getElem?_eq_some_iff.mp hsource).1
    refine ⟨hbefore.tracked, hbefore.told, nofun, fun _ => hbegun.mpr hlt, ?_⟩
    show (List.filter _ (s.output ++ s.blocks)).map Prod.snd = source.lines ++ _
    have hblocks := shown_blocks s.sources i 0
    rw [hsource] at hblocks
    have hshown := hbefore.shown_eq
    rw [hwait, hprinted] at hshown
    rw [List.filter_append, List.map_append, hprinted, List.append_nil]
    exact (congrArg₂ (· ++ ·) hshown hblocks).trans (List.nil_append _)

theorem inv_of_reachable (h : (logsCommand lossy count).Reachable (KeepsUp lossy) s) :
    s.Inv lossy count := by
  refine h.invariant (I := fun s => s.Inv lossy count) ?_ fun _ hI hguard hstep =>
    hI.step hguard hstep
  rintro s₀ ⟨hsources, hturn, hfollowing, houtput⟩ i source hsource
  have hinit := hsources source (List.mem_of_getElem? hsource)
  have htracked : source.log.Tracked lossy := LogFollow.tracked_of_reachable (.initial hinit)
  have hnew : source.log.follower = .new := hinit.2.2.2
  refine ⟨htracked, fun hstarted => ?_, fun _ => ?_, fun hbegun => ?_, ?_⟩
  · rw [hnew] at hstarted
    cases hstarted
  · rw [hnew, hturn]
    simp [Follower.new]
  · rw [hfollowing] at hbegun
    cases hbegun
  · rw [shown, houtput, hfollowing, hnew]
    rfl

/-- What is shown of a file. -/
structure Handover (lossy : List UInt8 → List Char) (count : ℕ) (s : LogsCommand) (i : ℕ)
    (source : Source) : Prop where
  /-- Every complete line is before the point where following began, or after it. -/
  allLines_eq : source.log.allLines.map (decode lossy) =
    source.log.linesBehind.map (decode lossy) ++ source.log.expected lossy
  /-- The last of those before it, and then those after it, from the first one on. -/
  shown_eq : s.shown i =
    (source.log.linesBehind.map (decode lossy)).rtake count ++ source.log.follower.printed
  isPrefix : source.log.follower.printed <+: source.log.expected lossy
  /-- A poll with nothing in between leaves none out. -/
  poll : source.log.follower.phase = .idle → source.log.Noticed →
    ∃ t, source.log.poll lossy = some t ∧ t.follower.printed = source.log.expected lossy

/-- **From the last lines to the new ones**: of each of any number of log files, the command shows a
stretch of its complete lines, each once and in order, which begins the given number of lines before
the point where following began, whatever the writers do meanwhile. -/
theorem handover_of_reachable (h : (logsCommand lossy count).Reachable (KeepsUp lossy) s)
    (hfollowing : s.following) {i : ℕ} {source : Source} (hsource : s.sources[i]? = some source) :
    s.Handover lossy count i source := by
  have hinv := inv_of_reachable h i source hsource
  have hstarted := hinv.begun hfollowing
  obtain ⟨hwhole, hlines⟩ := hinv.told hstarted
  have hreading := hinv.tracked.following hstarted
  refine ⟨?_, ?_, hreading.isPrefix, hreading.poll hstarted⟩
  · rw [LogFollow.allLines_eq hwhole, List.map_append]
    rfl
  · rw [hinv.shown_eq, if_pos hfollowing, hlines]

/-- A file of one line, and one of three lines with half a line that is still being written. -/
def twoLogs : LogsCommand where
  sources :=
    [⟨LogFollow.shortLog, []⟩,
      ⟨{ LogFollow.shortLog with
        disk :=
          { writer := { LogFollow.shortLog.disk.writer with maxSize := 100 }
            past := []
            current := some [97, newline, 98, newline, 99, newline, 104] } }, []⟩]
  turn := 0
  following := false
  output := []

/-- The command reads the ends of both files. Then the half line is finished, and the next line of the
other service goes to a fresh file. -/
def showTwo : List LogsAction :=
  [.source 0 .openFile, .source 0 .read, .source 1 .openFile, .source 1 .read, .print,
    .source 1 (.writer .open'), .source 1 (.writer (.writeLine [105])),
    .source 1 (.writer (.spill 2)), .source 0 (.writer .open'),
    .source 0 (.writer (.writeLine [121, 121])), .source 0 (.writer .rename),
    .source 0 (.writer .create), .source 0 (.writer (.spill 1)), .source 0 .sample,
    .source 0 (.writer (.spill 2)), .source 0 .openFile, .source 0 .read, .source 1 .sample,
    .source 1 .openFile, .source 1 .read]

/-- The check that the command reads each file in time. -/
def readsInTime (s : LogsCommand) (action : LogsAction) : Bool :=
  match action with
  | .source i action => (s.sources[i]?).all fun source => source.log.readInTime action
  | .print => true

theorem handover_showTwo : ∃ s,
    (logsCommand LogFollow.asciiText 2).checkedRun readsInTime twoLogs showTwo = some s ∧
      s.sources.map (fun source => source.log.disk.past.length) = [1, 0] ∧
      s.shown 0 = ["x", "yy"] ∧ s.shown 1 = ["b", "c", "hi"] ∧
      ∀ i source, s.sources[i]? = some source → s.Handover LogFollow.asciiText 2 i source := by
  have hrun : ((logsCommand LogFollow.asciiText 2).checkedRun readsInTime twoLogs showTwo).map
      (fun s => decide (s.following ∧
        s.sources.map (fun source => source.log.disk.past.length) = [1, 0] ∧
        s.shown 0 = ["x", "yy"] ∧ s.shown 1 = ["b", "c", "hi"])) = some true := by decide +kernel
  obtain ⟨s, hs, hfacts⟩ := Option.map_eq_some_iff.mp hrun
  obtain ⟨hfollowing, hrotated, hfirst, hsecond⟩ := of_decide_eq_true hfacts
  have hguard : ∀ s a s', readsInTime s a → (logsCommand LogFollow.asciiText 2).step s a = some s' →
      KeepsUp LogFollow.asciiText s a s' := by
    intro s a s' hcheck _
    cases a with
    | source i action =>
      intro source hsource log _
      refine LogFollow.keepsUp_of_readInTime ?_
      simpa [readsInTime, hsource] using hcheck
    | print => trivial
  have hinit : (logsCommand LogFollow.asciiText 2).init twoLogs := by
    refine ⟨fun source hsource => ?_, rfl, rfl, rfl⟩
    obtain rfl | rfl := by simpa [twoLogs] using hsource
    · exact LogFollow.init_shortLog
    · exact ⟨rfl, by decide, rfl, rfl⟩
  exact ⟨s, hs, hrotated, hfirst, hsecond, fun i source hsource => handover_of_reachable
    ⟨twoLogs, hinit, TransitionSystem.steps_of_checkedRun hguard hs⟩ hfollowing hsource⟩

end LogsCommand

end Servicrab
