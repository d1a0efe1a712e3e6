import Mathlib.Data.Finset.Basic
import Servicrab.Library.TreeMap
import Servicrab.Logs.Files

/-!
# Log routers

`LogRouter` fans the output of all services out to one writer per service, in one directory
(`logs.rs`). The files of a service are those that its names stand for, and the one that its writer
has open. No file is of two services, as no name is and new files are nobody's, and it stays like
that; so what is done for one service leaves the files of all others as they are.

## Main definitions

* `LogRouter.record`, `LogRouter.flush`.
* `RouterOp`, `RouterState.step`: the operations of a router, each of which is for one service.
* `RouterState.Apart`: no file is of two services.

## Main results

* `RouterState.foldl_flushWriter`: a flush is one operation for each writer.
* `LogRouter.log_files_apart`.
-/

open Std (ExtTreeMap)

namespace Servicrab

/-- Fans service output out to one writer per service. -/
structure LogRouter where
  settings : LogSettings
  writers : ExtTreeMap ServiceName FileWriter
  /-- Services that opted out of file logging. -/
  excluded : Finset ServiceName
  /-- Reported once, so a broken log directory does not spam the terminal. -/
  reportedError : Bool

namespace LogRouter

def new (settings : LogSettings) (excluded : Finset ServiceName) : LogRouter :=
  { settings, writers := ∅, excluded, reportedError := false }

variable (io : Io) (router : LogRouter) (d : LogDir) (service : ServiceName)

def report (message : String) : Option String × LogRouter :=
  if router.reportedError then (none, router)
  else (some message, { router with reportedError := true })

@[simp] theorem settings_report (message : String) :
    (router.report message).2.settings = router.settings := by
  rw [report]
  split_ifs <;> rfl

@[simp] theorem writers_report (message : String) :
    (router.report message).2.writers = router.writers := by
  rw [report]
  split_ifs <;> rfl

/-- What the router does with what a writer comes to. -/
def putBack (attempt : LogAttempt) : LogRouter :=
  { router with writers := router.writers.insert service attempt.2.1 }

/-- What is said about a writer that has failed. -/
def writeFailure (attempt : LogAttempt) : Option String :=
  match attempt.1 with
  | .ok () => none
  | .error op => some ("could not write to " ++ attempt.2.1.path ++ ": " ++ io.problem op)

/-- The writer of a service, which is opened when there is none yet. -/
def writerFor : Except LogOp FileWriter × LogDir :=
  match router.writers[service]? with
  | some w => (.ok w, d)
  | none => FileWriter.openLog io d router.settings service

/-- Record one output line for `service`. -/
def record (line : List UInt8) : Option String × LogRouter × LogDir :=
  if service ∈ router.excluded then (none, router, d)
  else
    match router.writerFor io d service with
    | (.error op, d) =>
      let (message, router) := router.report ("could not open a log file: " ++ io.problem op)
      (message, router, d)
    | (.ok w, d) =>
      let attempt := w.writeLine io d line
      let router := router.putBack service attempt
      match writeFailure io attempt with
      | some message =>
        let (message, router) := router.report message
        (message, router, attempt.2.2)
      | none => (none, router, attempt.2.2)

/-- One turn of the loop of `flush`, which keeps the first failure. -/
def flushWriter : Option String × LogRouter × LogDir → Option String × LogRouter × LogDir
  | (failure, router, d) =>
    match router.writers[service]? with
    | none => (failure, router, d)
    | some w =>
      let attempt := w.flush io d
      (failure.or (writeFailure io attempt), router.putBack service attempt, attempt.2.2)

/-- Put every buffered line on disk. -/
def flush (io : ServiceName → Io) : Option String × LogRouter × LogDir :=
  let (failure, router, d) := router.writers.keys.foldl
    (fun turn service => flushWriter (io service) service turn) (none, router, d)
  match failure with
  | some message =>
    let (message, router) := router.report message
    (message, router, d)
  | none => (none, router, d)

end LogRouter

/-- What a router does for one service. -/
inductive RouterOp
  | record (io : Io) (service : ServiceName) (line : List UInt8)
  /-- The turn of its writer in a flush. -/
  | flush (io : Io) (service : ServiceName)

/-- The service that an operation is for. -/
def RouterOp.service : RouterOp → ServiceName
  | .record _ service _ => service
  | .flush _ service => service

/-- A router and its directory. -/
structure RouterState where
  router : LogRouter
  dir : LogDir

namespace RouterState

def step (s : RouterState) : RouterOp → RouterState
  | .record io service line =>
    let (_, router, dir) := s.router.record io s.dir service line
    { router, dir }
  | .flush io service =>
    let (_, router, dir) := LogRouter.flushWriter io service (none, s.router, s.dir)
    { router, dir }

/-- A new router in a directory with some files. -/
def initial (settings : LogSettings) (excluded : Finset ServiceName)
    (files : String → Option (List UInt8)) : RouterState where
  router := .new settings excluded
  dir := .ofFiles files

def run (s : RouterState) (ops : List RouterOp) : RouterState := ops.foldl step s

/-- The paths of a service. -/
def paths (s : RouterState) (service : ServiceName) : Set String :=
  s.router.settings.logFiles service

/-- The files of a service: those that its names stand for, and the one that its writer has open. -/
def held (s : RouterState) (service : ServiceName) : Set (FileId String) :=
  {file | (∃ path ∈ s.paths service, s.dir.entries path = some file) ∨
    ∃ w, s.router.writers[service]? = some w ∧ w.file = file}

/-- The files of a service, and those that can be created. -/
def usable (s : RouterState) (service : ServiceName) : Set (FileId String) :=
  s.held service ∪ {file | ∃ n, s.dir.created ≤ n ∧ file = .created n}

/-- The paths of a service stand for the same files in two states, its writer is the same, and all
these files have the same content. -/
structure SameLogs (service : ServiceName) (s s' : RouterState) : Prop where
  entries : ∀ path ∈ s.paths service, s'.dir.entries path = s.dir.entries path
  writer : s'.router.writers[service]? = s.router.writers[service]?
  content : ∀ file ∈ s.held service, s'.dir.content file = s.dir.content file

/-- No file is of two services. -/
structure Apart (s : RouterState) : Prop where
  sound : s.dir.Sound
  writer : ∀ service w, s.router.writers[service]? = some w →
    w.path = s.router.settings.fileFor service ∧ s.dir.Known w.file
  disjoint : ∀ service other, NameRules 48 service.raw → NameRules 48 other.raw → service ≠ other →
    Disjoint (s.held service) (s.held other)

/-- What an operation may do that is for one service. -/
structure ActsFor (service : ServiceName) (s s' : RouterState) : Prop where
  settings : s'.router.settings = s.router.settings
  others : ∀ other ≠ service, s'.router.writers[other]? = s.router.writers[other]?
  frame : FileStore.Frame (s.paths service) (s.usable service) s.dir s'.dir
  within : s'.dir.Within (s.paths service) (s.usable service)
  sound : s'.dir.Sound
  writer : ∀ w, s'.router.writers[service]? = some w →
    w.path = s.router.settings.fileFor service ∧ s'.dir.Known w.file ∧ w.file ∈ s.usable service

variable {s s' : RouterState} {service other : ServiceName}

theorem Apart.known (h : s.Apart) {file : FileId String} (hfile : file ∈ s.held service) :
    s.dir.Known file := by
  rcases hfile with ⟨path, -, hentry⟩ | ⟨w, hw, rfl⟩
  · exact h.sound path file hentry
  · exact (h.writer service w hw).2

/-- A service can use no file of another one. -/
theorem Apart.disjoint_usable (h : s.Apart) (hservice : NameRules 48 service.raw)
    (hother : NameRules 48 other.raw) (hne : other ≠ service) :
    Disjoint (s.usable service) (s.held other) := by
  rw [usable, Set.disjoint_union_left]
  refine ⟨h.disjoint service other hservice hother hne.symm, ?_⟩
  rw [Set.disjoint_left]
  rintro _ ⟨n, hn, rfl⟩ hheld
  exact absurd (h.known hheld n rfl) (not_lt.mpr hn)

/-- What is done for one service leaves the files of all others as they are. -/
theorem Apart.sameLogs (h : s.Apart) (hact : ActsFor service s s')
    (hservice : NameRules 48 service.raw) (hother : NameRules 48 other.raw) (hne : other ≠ service) :
    SameLogs other s s' where
  entries path hpath := hact.frame.entries path
    (Set.disjoint_right.mp (LogSettings.disjoint_logFiles hservice hother hne.symm) hpath)
  writer := hact.others other hne
  content file hfile := hact.frame.content file
    (Set.disjoint_right.mp (h.disjoint_usable hservice hother hne) hfile)

theorem SameLogs.held_eq (h : SameLogs other s s')
    (hsettings : s'.router.settings = s.router.settings) : s'.held other = s.held other := by
  ext file
  simp only [held, paths, hsettings, h.writer, Set.mem_ofPred_eq]
  refine or_congr_left ⟨?_, ?_⟩
  · rintro ⟨path, hpath, hentry⟩
    exact ⟨path, hpath, h.entries path hpath ▸ hentry⟩
  · rintro ⟨path, hpath, hentry⟩
    exact ⟨path, hpath, (h.entries path hpath).trans hentry⟩

theorem ActsFor.held_subset (h : ActsFor service s s') : s'.held service ⊆ s.usable service := by
  rintro file (⟨path, hpath, hentry⟩ | ⟨w, hw, rfl⟩)
  · rw [paths, h.settings] at hpath
    exact h.within.linked path hpath file hentry
  · exact (h.writer w hw).2.2

/-- What is done for one service keeps the files apart. -/
theorem Apart.step_actsFor (h : s.Apart) (hact : ActsFor service s s')
    (hservice : NameRules 48 service.raw) : s'.Apart where
  sound := hact.sound
  writer other w hw := by
    by_cases heq : other = service
    · subst heq
      rw [hact.settings]
      exact ⟨(hact.writer w hw).1, (hact.writer w hw).2.1⟩
    · rw [hact.others other heq] at hw
      rw [hact.settings]
      exact ⟨(h.writer other w hw).1, (h.writer other w hw).2.mono hact.frame.created⟩
  disjoint := by
    -- The service itself has no file of another one, whichever of the two it is.
    have hown : ∀ other, NameRules 48 other.raw → other ≠ service →
        Disjoint (s'.held service) (s'.held other) := by
      intro other hother hne
      rw [(h.sameLogs hact hservice hother hne).held_eq hact.settings]
      exact (h.disjoint_usable hservice hother hne).mono_left hact.held_subset
    intro one two hone htwo hne
    by_cases heq : one = service
    · subst heq
      exact hown two htwo hne.symm
    by_cases heq' : two = service
    · subst heq'
      exact (hown one hone hne).symm
    · rw [(h.sameLogs hact hservice hone heq).held_eq hact.settings,
        (h.sameLogs hact hservice htwo heq').held_eq hact.settings]
      exact h.disjoint one two hone htwo hne

/-! ### Each operation is for one service -/

theorem within_usable (s : RouterState) (service : ServiceName) :
    s.dir.Within (s.paths service) (s.usable service) where
  linked path hpath _ hentry := .inl (.inl ⟨path, hpath, hentry⟩)
  fresh n hn := .inr ⟨n, hn, rfl⟩

theorem Apart.confined (h : s.Apart) (hservice : NameRules 48 service.raw) {w : FileWriter}
    (hw : s.router.writers[service]? = some w) :
    w.Confined (s.paths service) (s.usable service) s.dir := by
  obtain ⟨hpath, hknown⟩ := h.writer service w hw
  exact ⟨s.within_usable service, .inl (.inr ⟨w, hw, rfl⟩),
    hpath ▸ LogSettings.logPath_mem_logFiles hservice, h.sound, hknown⟩

/-- An operation that changes nothing but the directory, and that in the service's own paths. -/
theorem Apart.actsFor_dir (h : s.Apart) {router : LogRouter} {dir : LogDir}
    (hsettings : router.settings = s.router.settings) (hwriters : router.writers = s.router.writers)
    (hframe : FileStore.Frame (s.paths service) (s.usable service) s.dir dir)
    (hwithin : dir.Within (s.paths service) (s.usable service)) (hsound : dir.Sound) :
    ActsFor service s { router, dir } where
  settings := hsettings
  others _ _ := by rw [hwriters]
  frame := hframe
  within := hwithin
  sound := hsound
  writer w hw := by
    rw [hwriters] at hw
    obtain ⟨hpath, hknown⟩ := h.writer service w hw
    exact ⟨hpath, hknown.mono hframe.created, .inl (.inr ⟨w, hw, rfl⟩)⟩

/-- A call of the service's writer. -/
theorem actsFor_attempt {router : LogRouter} {w : FileWriter} {d : LogDir} {attempt : LogAttempt}
    (hsettings : router.settings = s.router.settings)
    (hwriters : router.writers = s.router.writers.insert service attempt.2.1)
    (hframe : FileStore.Frame (s.paths service) (s.usable service) s.dir d)
    (hpath : w.path = s.router.settings.fileFor service)
    (hstays : FileWriter.Stays (s.paths service) (s.usable service) w d attempt) :
    ActsFor service s { router, dir := attempt.2.2 } where
  settings := hsettings
  others other hne := by rw [hwriters, TreeMap.getElem?_insert_of_ne hne]
  frame := hframe.trans hstays.frame
  within := hstays.confined.within
  sound := hstays.confined.sound
  writer w' hw' := by
    rw [hwriters, TreeMap.getElem?_insert, if_pos rfl] at hw'
    obtain rfl := Option.some.inj hw'
    exact ⟨hstays.path_eq.trans hpath, hstays.confined.known, hstays.confined.file⟩

/-- Finding the writer of a service uses its paths only. -/
theorem Apart.frame_writerFor (h : s.Apart) (hservice : NameRules 48 service.raw) (io : Io) :
    FileStore.Frame (s.paths service) (s.usable service) s.dir
        (s.router.writerFor io s.dir service).2 ∧
      (s.router.writerFor io s.dir service).2.Within (s.paths service) (s.usable service) ∧
      (s.router.writerFor io s.dir service).2.Sound ∧
      ∀ w, (s.router.writerFor io s.dir service).1 = .ok w →
        w.path = s.router.settings.fileFor service ∧
          w.Confined (s.paths service) (s.usable service)
            (s.router.writerFor io s.dir service).2 := by
  rw [LogRouter.writerFor]
  cases hw : s.router.writers[service]? with
  | some w =>
    refine ⟨.refl s.dir, s.within_usable service, h.sound, fun w' hw' => ?_⟩
    obtain rfl := Except.ok.inj hw'
    exact ⟨(h.writer service w hw).1, h.confined hservice hw⟩
  | none =>
    exact FileWriter.frame_openLog (s.within_usable service) h.sound
      (LogSettings.logPath_mem_logFiles hservice)

theorem Apart.actsFor_record (h : s.Apart) (hservice : NameRules 48 service.raw) (io : Io)
    (line : List UInt8) : ActsFor service s (s.step (.record io service line)) := by
  obtain ⟨hframe, hwithin, hsound, hwriter⟩ := h.frame_writerFor hservice io
  rw [step, LogRouter.record]
  split_ifs
  · exact h.actsFor_dir (by rfl) (by rfl) (.refl s.dir) (s.within_usable service) h.sound
  rcases hopen : s.router.writerFor io s.dir service with ⟨result, d⟩
  rw [hopen] at hframe hwithin hsound hwriter
  cases result with
  | error op =>
    exact h.actsFor_dir (s.router.settings_report _) (s.router.writers_report _) hframe hwithin hsound
  | ok w =>
    obtain ⟨hpath, hconfined⟩ := hwriter w rfl
    have hstays := hconfined.stays_writeLine io line
    dsimp only
    split
    · exact actsFor_attempt (LogRouter.settings_report _ _) (LogRouter.writers_report _ _) hframe
        hpath hstays
    · exact actsFor_attempt (by rfl) (by rfl) hframe hpath hstays

theorem Apart.actsFor_flushWriter (h : s.Apart) (hservice : NameRules 48 service.raw) (io : Io) :
    ActsFor service s (s.step (.flush io service)) := by
  rw [step, LogRouter.flushWriter]
  cases hw : s.router.writers[service]? with
  | none => exact h.actsFor_dir (by rfl) (by rfl) (.refl s.dir) (s.within_usable service) h.sound
  | some w =>
    exact actsFor_attempt (by rfl) (by rfl) (.refl s.dir) (h.writer service w hw).1
      (h.confined hservice hw).stays_flush

/-- **An operation is for its service.** -/
theorem Apart.actsFor_step (h : s.Apart) (op : RouterOp) (hservice : NameRules 48 op.service.raw) :
    ActsFor op.service s (s.step op) := by
  cases op with
  | record io service line => exact h.actsFor_record hservice io line
  | flush io service => exact h.actsFor_flushWriter hservice io

/-! ### Runs -/

/-- A turn does the same whether or not an earlier one has failed. -/
theorem exists_flushWriter (s : RouterState) (io : Io) (service : ServiceName)
    (failure : Option String) : ∃ failure',
      LogRouter.flushWriter io service (failure, s.router, s.dir) =
        (failure', (s.step (.flush io service)).router, (s.step (.flush io service)).dir) := by
  rw [step, LogRouter.flushWriter, LogRouter.flushWriter]
  cases s.router.writers[service]? with
  | none => exact ⟨failure, rfl⟩
  | some w => exact ⟨_, rfl⟩

theorem foldl_flushWriter (io : ServiceName → Io) (services : List ServiceName) :
    ∀ (s : RouterState) (failure : Option String), ∃ failure',
      services.foldl (fun turn service => LogRouter.flushWriter (io service) service turn)
        (failure, s.router, s.dir) =
      (failure', (s.run (services.map fun service => .flush (io service) service)).router,
        (s.run (services.map fun service => .flush (io service) service)).dir) := by
  induction services with
  | nil => exact fun s failure => ⟨failure, rfl⟩
  | cons service services ih =>
    intro s failure
    obtain ⟨failure', hturn⟩ := s.exists_flushWriter (io service) service failure
    rw [List.foldl_cons, List.map_cons, run, List.foldl_cons, hturn]
    exact ih (s.step (.flush (io service) service)) failure'

theorem apart_initial (settings : LogSettings) (excluded : Finset ServiceName)
    (files : String → Option (List UInt8)) : (initial settings excluded files).Apart := by
  have hnone : ∀ service : ServiceName,
      (initial settings excluded files).router.writers[service]? = none := by
    simp [initial, LogRouter.new]
  refine ⟨FileStore.sound_ofFiles files, fun service w hw => ?_, ?_⟩
  · rw [hnone service] at hw
    cases hw
  · intro service other hservice hother hne
    rw [Set.disjoint_left]
    -- A file that was found has the name that it was found under.
    have hfound : ∀ {service file}, file ∈ (initial settings excluded files).held service →
        ∃ path ∈ settings.logFiles service, file = .found path := by
      rintro service file (⟨path, hpath, hentry⟩ | ⟨w, hw, -⟩)
      · obtain ⟨_, -, rfl⟩ := Option.map_eq_some_iff.mp hentry
        exact ⟨path, hpath, rfl⟩
      · rw [hnone service] at hw
        cases hw
    intro file hfile hfile'
    obtain ⟨path, hpath, rfl⟩ := hfound hfile
    obtain ⟨path', hpath', heq⟩ := hfound hfile'
    obtain rfl := FileId.found.inj heq
    exact Set.disjoint_left.mp (LogSettings.disjoint_logFiles hservice hother hne) hpath hpath'

theorem Apart.run (h : s.Apart) {ops : List RouterOp}
    (hnames : ∀ op ∈ ops, validateName op.service.raw 48 = .ok ()) :
    (s.run ops).Apart ∧ (s.run ops).router.settings = s.router.settings := by
  induction ops generalizing s with
  | nil => exact ⟨h, rfl⟩
  | cons op ops ih =>
    have hservice := validateName_eq_ok_iff.mp (hnames op List.mem_cons_self)
    have hact := h.actsFor_step op hservice
    obtain ⟨hrest, hsettings⟩ := ih (h.step_actsFor hact hservice)
      fun op' hop' => hnames op' (List.mem_cons_of_mem op hop')
    exact ⟨hrest, hsettings.trans hact.settings⟩

end RouterState

open RouterState

/-- **Log files do not collide.** Two services with accepted names have no path in common; and in a
directory with whatever files, after whatever a router has done, an operation for the one leaves the
files of the other as they are. -/
theorem LogRouter.log_files_apart (settings : LogSettings) (excluded : Finset ServiceName)
    (files : String → Option (List UInt8)) (service other : ServiceName)
    (hservice : validateName service.raw 48 = .ok ()) (hother : validateName other.raw 48 = .ok ())
    (hne : other ≠ service) :
    Disjoint (settings.logFiles service) (settings.logFiles other) ∧
      ∀ ops : List RouterOp, (∀ op ∈ ops, validateName op.service.raw 48 = .ok ()) →
        ((initial settings excluded files).run ops).paths other = settings.logFiles other ∧
          ∀ op : RouterOp, op.service = service →
            SameLogs other ((initial settings excluded files).run ops)
              (((initial settings excluded files).run ops).step op) := by
  have hrules := validateName_eq_ok_iff.mp hservice
  have hrules' := validateName_eq_ok_iff.mp hother
  refine ⟨LogSettings.disjoint_logFiles hrules hrules' hne.symm, fun ops hnames => ?_⟩
  obtain ⟨hapart, hsettings⟩ := (apart_initial settings excluded files).run hnames
  refine ⟨by rw [paths, hsettings]; rfl, fun op hop => ?_⟩
  subst hop
  exact hapart.sameLogs (hapart.actsFor_step op hrules) hrules hrules' hne

/-- A service that is called like a rotated file of `web` leaves the files of `web` as they are. -/
theorem LogRouter.log_files_apart_web :
    let files : String → Option (List UInt8) := fun path =>
      if path = "/logs/web.log.1" then some [97, 10] else none
    let before := (initial ⟨"/logs", 4, 1⟩ ∅ files).run
      [.record .quiet ⟨"web"⟩ [98], .record .quiet ⟨"web.log.1"⟩ [99, 100]]
    SameLogs ⟨"web"⟩ before (before.step (.record .quiet ⟨"web.log.1"⟩ [101])) :=
  ((LogRouter.log_files_apart ⟨"/logs", 4, 1⟩ ∅ _ ⟨"web.log.1"⟩ ⟨"web"⟩ (by decide) (by decide)
    (by decide)).2
      [.record .quiet ⟨"web"⟩ [98], .record .quiet ⟨"web.log.1"⟩ [99, 100]] (by decide)).2
      (.record .quiet ⟨"web.log.1"⟩ [101]) rfl

end Servicrab
