import Servicrab.Daemon.Startup

/-!
# Waiting for a daemon

`start` spawns a daemon and waits for it (`commands/daemon.rs`): again and again it looks whether
the daemon has exited, whether the pidfile names it, and whether something answers on the socket, and
it reports success when all is well. Any number of starts do this at once, each with a daemon of its
own, and only one daemon gets the lock.

A start is named by the pid of its daemon. Who has held the lock and who has served is kept for the
record; nothing the program does depends on it.

## Main definitions

* `LaunchPhase`, `Launch`, `Launch.step`, `launchSystem`.
* `Launch.Inv`: the invariant.

## Main results

* `Startup.progress_of_step`: what a step leaves as it was.
* `Launch.reports_own_daemon`: whom a start speaks of that reports success.
-/

open TransitionSystem (AnyStep run_cons_of_step run_nil steps_of_run)

namespace Servicrab

/-! ### What a step leaves as it was -/

/-- What may become of a process without a start: one that is off stays so, and none goes back to
acquiring the lock. -/
def ServePhase.leadsTo : ServePhase → ServePhase → Bool
  | off, phase => phase = off
  | acquiring, _ => true
  | _, phase => phase ≠ acquiring

/-- Whether a process has let go of the lock, or never had it. -/
def ServePhase.isOver : ServePhase → Bool
  | off | releasing => true
  | _ => false

theorem ServePhase.leadsTo_self (phase : ServePhase) : phase.leadsTo phase := by
  cases phase <;> rfl

theorem ServePhase.hasLock_of_not_isOver {phase : ServePhase} (h : phase ≠ acquiring)
    (hover : ¬ phase.isOver) : phase.hasLock := by
  cases phase with
  | off | releasing => exact absurd rfl hover
  | acquiring => exact absurd rfl h
  | probing | clearing | binding | building | serving | tidying => rfl

namespace Startup

variable {π : Type*} [DecidableEq π] {path : String} {s s' : Startup π} {process : π}
  {action : StartupAction π}

/-- Whose pid is in the file at the path. -/
def pid (s : Startup π) : Option π := s.lock.inode.bind s.written

/-- What a step does that is no start. -/
structure Progress (s s' : Startup π) : Prop where
  phase : ∀ process, (s.phase process).leadsTo (s'.phase process)
  /-- Only a process that has the lock writes its pid. -/
  written : ∀ inode process, s'.written inode = some process →
    s.written inode = some process ∨ (s'.phase process).hasLock

theorem leadsTo_goOn (lock : PidFile π) {phase : ServePhase}
    (hphase : (s.phase process).leadsTo phase) (other : π) :
    (s.phase other).leadsTo ((s.goOn process lock phase).phase other) := by
  by_cases hne : other = process
  · subst hne
    rwa [phase_goOn]
  · rw [phase_goOn_of_ne hne]
    exact ServePhase.leadsTo_self _

/-- A process goes on, and no pid is written. -/
theorem Progress.of_goOn {lock : PidFile π} {phase : ServePhase} {socket : Option (SocketFile π)}
    (hphase : (s.phase process).leadsTo phase) :
    Progress s { s.goOn process lock phase with socket := socket } :=
  ⟨leadsTo_goOn lock hphase, fun _ _ => .inl⟩

theorem Progress.of_lockCall {lockAction : LockAction π} {pid : Option π}
    (hpid : ∀ other, pid = some other → other = process ∧ lockAction = .call process)
    (h : s.lockCall path process lockAction pid = some s') : Progress s s' := by
  obtain ⟨lock, hlock, hphase, rfl⟩ : ∃ lock, s.lock.step path lockAction = some lock ∧
      (s.phase process = .acquiring ∨ s.phase process = .releasing) ∧
      { s.goOn process lock (afterCall process lock (s.phase process)) with
        written := s.writtenAfter process pid } = s' := by
    rw [lockCall] at h
    split at h
    · obtain ⟨lock, hlock, he⟩ := Option.map_eq_some_iff.mp h
      exact ⟨lock, hlock, .inl ‹_›, he⟩
    · obtain ⟨lock, hlock, he⟩ := Option.map_eq_some_iff.mp h
      exact ⟨lock, hlock, .inr ‹_›, he⟩
    · cases h
  constructor
  · refine leadsTo_goOn lock ?_
    rcases hphase with hphase | hphase
    · rw [hphase]
      rfl
    · rw [hphase, afterCall]
      split <;> rfl
  · intro inode other hwritten
    replace hwritten : s.writtenAfter process pid inode = some other := hwritten
    rw [writtenAfter] at hwritten
    cases hchecked : s.lock.phase process with
    | checked inode' =>
      rw [hchecked] at hwritten
      replace hwritten : Function.update s.written inode' pid inode = some other := hwritten
      by_cases hinode : inode = inode'
      · subst hinode
        rw [Function.update_self] at hwritten
        -- The pid is written by the last call that takes the lock.
        obtain ⟨rfl, rfl⟩ := hpid other hwritten
        have hheld : lock.phase other = .held inode := by
          rw [PidFile.step, PidFile.call, hchecked] at hlock
          exact Option.some.inj hlock ▸ PidFile.phase_setPhase ..
        refine .inr ?_
        show ((s.goOn other lock _).phase other).hasLock
        rw [phase_goOn, afterCall, hheld]
        rfl
      · rw [Function.update_of_ne hinode] at hwritten
        exact .inl hwritten
    | _ =>
      rw [hchecked] at hwritten
      exact .inl hwritten

theorem progress_of_step (hstart : ∀ process, action ≠ .start process)
    (h : s.step path action = some s') : Progress s s' := by
  cases action with
  | start process => exact absurd rfl (hstart process)
  | call process => exact .of_lockCall (fun other hpid => ⟨(Option.some.inj hpid).symm, rfl⟩) h
  | fail process reason => exact .of_lockCall (fun other hpid => by cases hpid) h
  | probe process answered =>
    rw [step] at h
    split_ifs at h with hphase hanswered
    · obtain ⟨lock, -, rfl⟩ := Option.map_eq_some_iff.mp h
      exact .of_goOn (by rw [hphase.1]; rfl)
    · cases h
      exact .of_goOn (by rw [hphase.1]; rfl)
  | clear process done =>
    rw [step] at h
    split_ifs at h with hphase
    all_goals
      cases h
      exact .of_goOn (by rw [hphase]; rfl)
  | bind process result =>
    cases result with
    | refused =>
      simp only [step] at h
      split_ifs at h with hphase
      obtain ⟨lock, -, rfl⟩ := Option.map_eq_some_iff.mp h
      exact .of_goOn (by rw [hphase]; rfl)
    | bound =>
      simp only [step] at h
      split_ifs at h with hphase
      cases h
      exact .of_goOn (by rw [hphase]; rfl)
    | unprepared =>
      simp only [step] at h
      split_ifs at h with hphase
      obtain ⟨lock, -, rfl⟩ := Option.map_eq_some_iff.mp h
      exact .of_goOn (s := s) (by rw [hphase]; rfl)
  | build process done =>
    rw [step] at h
    split_ifs at h with hphase
    all_goals
      cases h
      exact .of_goOn (by rw [hphase]; rfl)
  | stop process =>
    rw [step] at h
    split_ifs at h with hphase
    cases h
    exact .of_goOn (by rw [hphase]; rfl)
  | tidy process done =>
    rw [step] at h
    split_ifs at h with hphase
    all_goals
      obtain ⟨lock, -, rfl⟩ := Option.map_eq_some_iff.mp h
      exact .of_goOn (s := s) (by rw [hphase]; rfl)
  | die process =>
    obtain ⟨lock, -, rfl⟩ := Option.map_eq_some_iff.mp h
    exact .of_goOn (by cases s.phase process <;> rfl)
  | strangerDies =>
    cases h
    exact ⟨fun _ => ServePhase.leadsTo_self _, fun _ _ => .inl⟩

end Startup

/-- How far a start is. -/
inductive LaunchPhase
  | idle
  /-- Nothing has answered on the socket. -/
  | unanswered
  /-- In `wait_for_the_daemon`. -/
  | polling
  /-- The daemon has not exited, and the pidfile is to be read. -/
  | watched
  /-- The pidfile names the daemon, and the socket is to be tried. -/
  | ours
  | reported
  | failed
  deriving DecidableEq

/-- What `try_wait` says of a daemon. -/
inductive ChildStatus
  | running
  | exited (success : Bool)
  | unknown

/-- The files of a project and its daemons, with the starts that wait for them. -/
structure Launch (π : Type*) where
  files : Startup π
  waits : π → LaunchPhase
  held : π → Bool
  served : π → Bool

inductive LaunchAction (π : Type*)
  /-- A daemon goes on by itself. -/
  | daemon (action : StartupAction π)
  | check (child : π) (answered : Bool)
  | spawn (child : π)
  | tryWait (child : π) (status : ChildStatus)
  /-- `daemon_is_ours`. -/
  | readPid (child : π) (ours : Bool)
  | ask (child : π) (answered : Bool)
  /-- The deadline has passed: the daemon is killed. -/
  | giveUp (child : π)

namespace Launch

variable {π : Type*} [DecidableEq π] (path : String) (s : Launch π)

/-- The daemons go on. -/
def goOn (files : Startup π) : Launch π :=
  { s with
    files := files
    held := fun process => s.held process || (files.phase process).hasLock
    served := fun process => s.served process || files.phase process = .serving }

/-- A start goes on. -/
def goTo (child : π) (phase : LaunchPhase) : Launch π :=
  { s with waits := Function.update s.waits child phase }

/-- One step of a start or of a daemon. -/
def step : LaunchAction π → Option (Launch π)
  | .daemon (.start _) => none
  | .daemon action => (s.files.step path action).map s.goOn
  | .check child answered =>
    if s.waits child = .idle then some (s.goTo child (if answered then .failed else .unanswered))
    else none
  | .spawn child =>
    if s.waits child = .unanswered then
      (s.files.step path (.start child)).map (s.goTo child .polling).goOn
    else none
  | .tryWait child status =>
    if s.waits child = .polling then
      match status with
      | .running => some (s.goTo child .watched)
      | .exited success =>
        -- Only a daemon that has served exits with success.
        if s.files.phase child = .off ∧ (success → s.served child) then
          some (s.goTo child (if success then .reported else .failed))
        else none
      | .unknown => some (s.goTo child .failed)
    else none
  | .readPid child ours =>
    if s.waits child = .watched ∧ (ours → s.files.pid = some child) then
      some (s.goTo child (if ours then .ours else .polling))
    else none
  | .ask child answered =>
    if s.waits child = .ours ∧ (answered → s.files.isAnswered) then
      some (s.goTo child (if answered then .reported else .polling))
    else none
  | .giveUp child =>
    if s.waits child = .polling then
      (s.files.step path (.die child)).map (s.goTo child .failed).goOn
    else none

end Launch

/-- Starts of daemons for one project. The pids that are given out are new: a pidfile that was left
behind names none of them. -/
def launchSystem (π : Type*) [DecidableEq π] (path : String) :
    TransitionSystem (Launch π) (LaunchAction π) where
  init s := (startupSystem π path).init s.files ∧
    (∀ process, s.waits process = .idle ∨ s.waits process = .failed) ∧
    (∀ inode process, s.files.written inode = some process → s.waits process = .failed) ∧
    ∀ process, s.held process = false ∧ s.served process = false
  step s := s.step path

namespace Launch

variable {π : Type*} [DecidableEq π] {path : String} {s s' : Launch π} {child other : π}

/-! ### The invariant -/

/-- Whether the daemon is not spawned yet. -/
def IsUnspawned (s : Launch π) (child : π) : Prop :=
  s.waits child = .idle ∨ s.waits child = .unanswered

/-- Who is named by the pidfile, serves, or is reported has held the lock, and has not gone back to
acquiring it. -/
structure Inv (path : String) (s : Launch π) : Prop where
  files : (startupSystem π path).Reachable AnyStep s.files
  unspawned : ∀ child, s.IsUnspawned child → s.files.phase child = .off ∧ s.held child = false
  hasLock : ∀ child, (s.files.phase child).hasLock → s.held child
  held : ∀ child, s.held child → s.files.phase child ≠ .acquiring
  served : ∀ child, s.served child → s.held child
  written : ∀ inode child, s.files.written inode = some child →
    s.held child ∨ s.waits child = .failed
  found : ∀ child, s.waits child = .ours ∨ s.waits child = .reported → s.held child

/-- The daemons go on. -/
theorem Inv.goOn (h : s.Inv path) {files : Startup π}
    (hfiles : (startupSystem π path).Reachable AnyStep files)
    (hunspawned : ∀ child, s.IsUnspawned child → files.phase child = .off)
    (hheld : ∀ child, s.held child → files.phase child ≠ .acquiring)
    (hwritten : ∀ inode child, files.written inode = some child →
      s.files.written inode = some child ∨ (files.phase child).hasLock) :
    (s.goOn files).Inv path where
  files := hfiles
  unspawned child hchild := by
    have hoff := hunspawned child hchild
    refine ⟨hoff, ?_⟩
    show (s.held child || (files.phase child).hasLock) = false
    rw [(h.unspawned child hchild).2, hoff]
    rfl
  hasLock child hhas := by
    replace hhas : (files.phase child).hasLock := hhas
    show (s.held child || (files.phase child).hasLock) = true
    rw [hhas, Bool.or_true]
  held child hchild := by
    rcases Bool.or_eq_true_iff.mp hchild with hchild | hhas
    · exact hheld child hchild
    · rintro he
      replace he : files.phase child = .acquiring := he
      rw [he] at hhas
      cases hhas
  served child hchild := by
    refine Bool.or_eq_true_iff.mpr ?_
    rcases Bool.or_eq_true_iff.mp hchild with hchild | hserving
    · exact .inl (h.served child hchild)
    · rw [of_decide_eq_true hserving]
      exact .inr rfl
  written inode child hchild := by
    rcases hwritten inode child hchild with hchild | hhas
    · exact (h.written inode child hchild).imp_left fun hheld => by simp [Launch.goOn, hheld]
    · exact .inl (by simp [Launch.goOn, hhas])
  found child hchild := by simp [Launch.goOn, h.found child hchild]

/-- A start goes on. -/
theorem Inv.goTo (h : s.Inv path) {phase : LaunchPhase} (hfailed : s.waits child ≠ .failed)
    (hunspawned : phase = .idle ∨ phase = .unanswered → s.IsUnspawned child)
    (hfound : phase = .ours ∨ phase = .reported → s.held child) :
    (s.goTo child phase).Inv path := by
  have hself : (s.goTo child phase).waits child = phase := Function.update_self ..
  have hother {other : π} (hne : other ≠ child) :
      (s.goTo child phase).waits other = s.waits other := Function.update_of_ne hne ..
  refine ⟨h.files, fun other hwaits => ?_, h.hasLock, h.held, h.served,
    fun inode other hwritten => ?_, fun other hwaits => ?_⟩
  · by_cases hne : other = child
    · subst hne
      rw [IsUnspawned, hself] at hwaits
      exact h.unspawned other (hunspawned hwaits)
    · rw [IsUnspawned, hother hne] at hwaits
      exact h.unspawned other hwaits
  · refine (h.written inode other hwritten).imp_right fun hwaits => ?_
    by_cases hne : other = child
    · exact absurd (hne ▸ hwaits) hfailed
    · rwa [hother hne]
  · by_cases hne : other = child
    · subst hne
      rw [hself] at hwaits
      exact hfound hwaits
    · rw [hother hne] at hwaits
      exact h.found other hwaits

/-- The daemons go on without a start. -/
theorem Inv.progress (h : s.Inv path) {files : Startup π} {action : StartupAction π}
    (hstart : ∀ process, action ≠ .start process) (hstep : s.files.step path action = some files) :
    (s.goOn files).Inv path := by
  have hprogress := Startup.progress_of_step hstart hstep
  refine h.goOn (h.files.step trivial hstep) (fun child hchild => ?_) (fun child hheld => ?_)
    hprogress.written
  · have hleads := hprogress.phase child
    rw [(h.unspawned child hchild).1] at hleads
    exact of_decide_eq_true hleads
  · have hleads := hprogress.phase child
    rintro he
    rw [he] at hleads
    have hne := h.held child hheld
    cases hphase : s.files.phase child with
    | acquiring => exact hne hphase
    | _ => simp [hphase, ServePhase.leadsTo] at hleads

/-- A daemon is spawned. -/
theorem Inv.spawn (h : s.Inv path) {files : Startup π} (hwaits : s.waits child = .unanswered)
    (hstep : s.files.step path (.start child) = some files) :
    ((s.goTo child .polling).goOn files).Inv path := by
  have hgo : (s.goTo child .polling).Inv path := h.goTo (by simp [hwaits]) (by simp) (by simp)
  obtain ⟨lock, hfiles⟩ : ∃ lock, s.files.goOn child lock .acquiring = files := by
    rw [Startup.step] at hstep
    obtain ⟨-, hstep⟩ := Option.ite_none_right_eq_some.mp hstep
    obtain ⟨lock, -, he⟩ := Option.map_eq_some_iff.mp hstep
    exact ⟨lock, he⟩
  have hphase {other : π} (hne : other ≠ child) : files.phase other = s.files.phase other :=
    hfiles ▸ Startup.phase_goOn_of_ne hne ..
  have hnext : (startupSystem π path).step s.files (.start child) = some files := hstep
  refine hgo.goOn (h.files.step trivial hnext) (fun other hother => ?_) (fun other hheld => ?_)
    fun inode other hwritten => .inl ?_
  · have hne : other ≠ child := by
      rintro rfl
      simp [IsUnspawned, Launch.goTo] at hother
    exact (hphase hne).trans (hgo.unspawned other hother).1
  · have hne : other ≠ child := by
      rintro rfl
      exact Bool.false_ne_true ((h.unspawned other (.inr hwaits)).2.symm.trans hheld)
    rw [hphase hne]
    exact h.held other hheld
  · rwa [← hfiles] at hwritten

theorem Inv.step (h : s.Inv path) {action : LaunchAction π} (hstep : s.step path action = some s') :
    s'.Inv path := by
  cases action with
  | daemon action =>
    by_cases hstart : ∃ process, action = .start process
    · obtain ⟨process, rfl⟩ := hstart
      cases hstep
    · replace hstep : (s.files.step path action).map s.goOn = some s' := by
        cases action with
        | start process => exact absurd ⟨process, rfl⟩ hstart
        | _ => exact hstep
      obtain ⟨files, hfiles, rfl⟩ := Option.map_eq_some_iff.mp hstep
      exact h.progress (fun process he => hstart ⟨process, he⟩) hfiles
  | check child answered =>
    obtain ⟨hwaits, hstep⟩ := Option.ite_none_right_eq_some.mp hstep
    refine Option.some.inj hstep ▸ h.goTo (by simp [hwaits]) (fun _ => .inl hwaits) ?_
    split_ifs <;> simp
  | spawn child =>
    obtain ⟨hwaits, hstep⟩ := Option.ite_none_right_eq_some.mp hstep
    obtain ⟨files, hfiles, rfl⟩ := Option.map_eq_some_iff.mp hstep
    exact h.spawn hwaits hfiles
  | tryWait child status =>
    obtain ⟨hwaits, hstep⟩ := Option.ite_none_right_eq_some.mp hstep
    cases status with
    | running =>
      exact Option.some.inj hstep ▸ h.goTo (by simp [hwaits]) (by simp) (by simp)
    | exited success =>
      obtain ⟨⟨-, hserved⟩, hstep⟩ := Option.ite_none_right_eq_some.mp hstep
      refine Option.some.inj hstep ▸ h.goTo (by simp [hwaits]) ?_ ?_
      · split_ifs <;> simp
      · split_ifs with hsuccess
        · exact fun _ => h.served child (hserved hsuccess)
        · simp
    | unknown =>
      exact Option.some.inj hstep ▸ h.goTo (by simp [hwaits]) (by simp) (by simp)
  | readPid child ours =>
    obtain ⟨⟨hwaits, hours⟩, hstep⟩ := Option.ite_none_right_eq_some.mp hstep
    refine Option.some.inj hstep ▸ h.goTo (by simp [hwaits]) ?_ ?_
    · split_ifs <;> simp
    · split_ifs with hread
      · -- The pid is a new one, so it was written by the daemon itself.
        obtain ⟨inode, -, hwritten⟩ := Option.bind_eq_some_iff.mp (hours hread)
        exact fun _ => (h.written inode child hwritten).resolve_right (by simp [hwaits])
      · simp
  | ask child answered =>
    obtain ⟨⟨hwaits, -⟩, hstep⟩ := Option.ite_none_right_eq_some.mp hstep
    refine Option.some.inj hstep ▸ h.goTo (by simp [hwaits]) ?_ fun _ => h.found child (.inl hwaits)
    split_ifs <;> simp
  | giveUp child =>
    obtain ⟨hwaits, hstep⟩ := Option.ite_none_right_eq_some.mp hstep
    obtain ⟨files, hfiles, rfl⟩ := Option.map_eq_some_iff.mp hstep
    have hgo : (s.goTo child .failed).Inv path := h.goTo (by simp [hwaits]) (by simp) (by simp)
    exact hgo.progress (fun process he => by cases he) hfiles

theorem inv_of_reachable (h : (launchSystem π path).Reachable AnyStep s) : s.Inv path := by
  refine h.invariant ?_ fun _ hI _ hstep => hI.step hstep
  rintro s₀ ⟨hfiles, hwaits, hwritten, hrecord⟩
  have hoff := hfiles.2
  refine ⟨.initial hfiles, fun child _ => ⟨hoff child, (hrecord child).1⟩, fun child hhas => ?_,
    fun child hheld => ?_, fun child hserved => ?_,
    fun inode child hchild => .inr (hwritten inode child hchild), fun child hfound => ?_⟩
  · rw [hoff] at hhas
    cases hhas
  · rw [(hrecord child).1] at hheld
    cases hheld
  · rw [(hrecord child).2] at hserved
    cases hserved
  · rcases hwaits child with hidle | hfailed
    · simp [hidle] at hfound
    · simp [hfailed] at hfound

/-! ### What a start reports -/

/-- Of all that have held the lock, the one that has it still is alone. -/
theorem Inv.eq_of_held (h : s.Inv path) (hchild : s.held child)
    (hover : ¬ (s.files.phase child).isOver) (hother : (s.files.phase other).hasLock) :
    child = other :=
  (Startup.inv_of_reachable h.files).eq_of_hasLock hother
    (ServePhase.hasLock_of_not_isOver (h.held child hchild) hover)

/-- Who answers is the daemon that was found, unless that has gone. -/
theorem Inv.serving_of_isAnswered (h : s.Inv path) (hchild : s.held child)
    (hanswered : s.files.isAnswered) (hstranger : s.files.socket ≠ some .stranger)
    (hover : ¬ (s.files.phase child).isOver) : s.files.phase child = .serving := by
  rw [Startup.isAnswered] at hanswered
  cases hsocket : s.files.socket with
  | none => simp [hsocket] at hanswered
  | some file =>
    cases file with
    | stranger => exact absurd hsocket hstranger
    | boundBy process =>
      rw [hsocket] at hanswered
      have hserving : s.files.phase process = .serving := of_decide_eq_true hanswered
      obtain rfl : child = process := h.eq_of_held hchild hover (by rw [hserving]; rfl)
      exact hserving

/-- A daemon that serves is found by the next look. -/
theorem Inv.run_of_serving (h : s.Inv path) (hwaits : s.waits child = .polling)
    (hserving : s.files.phase child = .serving) :
    ∃ t, (launchSystem π path).run s [.tryWait child .running, .readPid child true,
      .ask child true] = some t ∧ t.waits child = .reported := by
  have hI := Startup.inv_of_reachable h.files
  have hhas : (s.files.phase child).hasLock := by rw [hserving]; rfl
  obtain ⟨inode, hheld⟩ := hI.holds child hhas
  have hpid : s.files.pid = some child := by
    rw [Startup.pid, hI.exclusive.inode child inode (by rw [hheld]; rfl)]
    exact hI.written child inode hheld
  have hanswered : s.files.isAnswered := by
    rw [Startup.isAnswered, hI.socket child (by rw [hserving]; rfl)]
    exact decide_eq_true hserving
  have hself (s : Launch π) (phase : LaunchPhase) : (s.goTo child phase).waits child = phase :=
    Function.update_self ..
  refine ⟨((s.goTo child .watched).goTo child .ours).goTo child .reported, ?_, hself _ _⟩
  rw [run_cons_of_step (if_pos hwaits), run_cons_of_step (if_pos ⟨hself _ _, fun _ => hpid⟩),
    run_cons_of_step (if_pos ⟨hself _ _, fun _ => hanswered⟩), run_nil]
  rfl

/-- **A start that reports success speaks of its own daemon.** However many starts race for one
project, and wherever their daemons fail or die: a daemon of which success is reported has held the
lock; of two such daemons one has let go of it; when it is the socket that made a start report, and
no stranger has bound it, what has answered is the daemon itself, unless that was gone by then; and a
daemon that serves is found by the next look of its start. -/
theorem reports_own_daemon (path : String) (s : Launch π)
    (h : (launchSystem π path).Reachable AnyStep s) (child : π) :
    (s.waits child = .reported → s.held child) ∧
    (∀ other, s.waits child = .reported → s.waits other = .reported → other ≠ child →
      (s.files.phase child).isOver ∨ (s.files.phase other).isOver) ∧
    (∀ t, s.step path (.ask child true) = some t → s.files.socket ≠ some .stranger →
      s.files.phase child = .serving ∨ (s.files.phase child).isOver) ∧
    (s.waits child = .polling → s.files.phase child = .serving →
      ∃ t, (launchSystem π path).run s [.tryWait child .running, .readPid child true,
        .ask child true] = some t ∧ t.waits child = .reported) := by
  have hI := inv_of_reachable h
  refine ⟨fun hreported => hI.found child (.inr hreported), fun other hchild hother hne => ?_,
    fun t hstep hstranger => ?_, hI.run_of_serving⟩
  · by_contra hover
    obtain ⟨hoverChild, hoverOther⟩ := not_or.mp hover
    have hheld := hI.found other (.inr hother)
    exact hne (hI.eq_of_held hheld hoverOther (ServePhase.hasLock_of_not_isOver
      (hI.held child (hI.found child (.inr hchild))) hoverChild))
  · obtain ⟨⟨hwaits, hanswered⟩, -⟩ := Option.ite_none_right_eq_some.mp hstep
    refine or_iff_not_imp_right.mpr fun hover => ?_
    exact hI.serving_of_isAnswered (hI.found child (.inl hwaits)) (hanswered rfl) hstranger hover

/-- Two starts of which only the first one gets the lock. -/
def race : List (LaunchAction Bool) :=
  [.check true false, .check false false, .spawn true, .spawn false] ++
    [.call true, .call true, .call false, .call true, .call true, .call false, .probe true false,
      .clear true true, .bind true .bound, .build true true].map .daemon

/-- No start was made before. -/
def fresh : Launch Bool where
  files := Startup.fresh
  waits _ := .idle
  held _ := false
  served _ := false

theorem reports_own_daemon_race : ∃ s,
    (launchSystem Bool "servicrab.pid").run fresh (race ++ [.tryWait false (.exited false)]) =
        some s ∧
      s.waits false = .failed ∧ s.held false = false ∧
      ∃ t, (launchSystem Bool "servicrab.pid").run s [.tryWait true .running, .readPid true true,
        .ask true true] = some t ∧ t.waits true = .reported := by
  obtain ⟨s, hrun, hfailed, hheld, hpolling, hserving⟩ : ∃ s,
      (launchSystem Bool "servicrab.pid").run fresh (race ++ [.tryWait false (.exited false)]) =
          some s ∧
        s.waits false = .failed ∧ s.held false = false ∧ s.waits true = .polling ∧
        s.files.phase true = .serving := ⟨_, rfl, rfl, rfl, rfl, rfl⟩
  have hinit : (launchSystem Bool "servicrab.pid").init fresh :=
    ⟨Startup.init_fresh, fun _ => .inl rfl,
      fun _ _ hwritten => (Option.some_ne_none _ hwritten.symm).elim, fun _ => ⟨rfl, rfl⟩⟩
  obtain ⟨-, -, -, hfound⟩ := reports_own_daemon "servicrab.pid" s
    ⟨fresh, hinit, steps_of_run hrun⟩ true
  exact ⟨s, hrun, hfailed, hheld, hfound hpolling hserving⟩

end Launch

end Servicrab
