import Servicrab.Daemon.Lock

/-!
# Starting a daemon

`serve` takes the project lock, refuses to go on when something answers on the socket, removes
whatever is left at the path of the socket, binds it, serves, removes it and drops the lock
(`server.rs`). Any number of processes do this at once, each system call is a step of its own, and a
process may die anywhere. A stranger, which takes no lock, may listen on the socket from before.

The pid of a process stands for the process: pids are not given out again. What `reconcile` writes
while the lock is held is left out.

## Main definitions

* `ServePhase`, `Startup`, `Startup.step`, `startupSystem`.
* `Startup.Inv`: the invariant.

## Main results

* `Startup.serving_exclusive`: who serves owns the socket, the pidfile and the lock.
* `Startup.start_after_crash`: nothing that is left behind keeps a daemon from starting.
-/

open TransitionSystem (AnyStep run_append run_cons_of_step run_nil steps_of_run)

namespace Servicrab

/-- Where a process is in `serve`. -/
inductive ServePhase
  | off
  | acquiring
  /-- `is_running` is to be asked. -/
  | probing
  /-- What is at the path of the socket is to be removed. -/
  | clearing
  | binding
  /-- The socket is bound, and the runtime is to be built. -/
  | building
  | serving
  /-- The socket is to be removed. -/
  | tidying
  /-- The lock is being dropped. -/
  | releasing
  deriving DecidableEq

namespace ServePhase

/-- Whether the process holds the lock, and relies on it. -/
def hasLock : ServePhase → Bool
  | probing | clearing | binding | building | serving | tidying => true
  | _ => false

/-- Whether the process has bound the socket. -/
def isBound : ServePhase → Bool
  | building | serving | tidying => true
  | _ => false

theorem hasLock_of_isBound {phase : ServePhase} (h : phase.isBound) : phase.hasLock := by
  cases phase <;> first | rfl | cases h

end ServePhase

/-- Who bound the socket that is at the path. -/
inductive SocketFile (π : Type*)
  | boundBy (process : π)
  | stranger
  deriving DecidableEq

/-- How `bind_socket` ends. -/
inductive BindResult
  | bound
  | refused
  /-- The socket is bound, but cannot be prepared. -/
  | unprepared

/-- The files of a project, and the processes that start a daemon for it. -/
structure Startup (π : Type*) where
  lock : PidFile π
  /-- Whose pid is in a pidfile. -/
  written : ℕ → Option π
  socket : Option (SocketFile π)
  /-- Whether the stranger answers. -/
  stranger : Bool
  phase : π → ServePhase

inductive StartupAction (π : Type*)
  | start (process : π)
  /-- The system call of the lock that is due returns. -/
  | call (process : π)
  /-- The system call of the lock that is due fails. -/
  | fail (process : π) (reason : String)
  | probe (process : π) (answered : Bool)
  /-- The socket is removed, if that does not fail. -/
  | clear (process : π) (done : Bool)
  | bind (process : π) (result : BindResult)
  | build (process : π) (done : Bool)
  /-- The stack has stopped. -/
  | stop (process : π)
  /-- The socket is removed at the end, if that does not fail. -/
  | tidy (process : π) (done : Bool)
  | die (process : π)
  | strangerDies

namespace Startup

variable {π : Type*} [DecidableEq π] (path : String) (s : Startup π)

/-- Whether something answers on the socket. -/
def isAnswered : Bool :=
  match s.socket with
  | some (.boundBy process) => s.phase process = .serving
  | some .stranger => s.stranger
  | none => false

/-- A process goes on, with the lock as it is then. -/
def goOn (process : π) (lock : PidFile π) (phase : ServePhase) : Startup π :=
  { s with lock := lock, phase := Function.update s.phase process phase }

/-- A process moves on. -/
def goTo (process : π) (phase : ServePhase) : Startup π := s.goOn process s.lock phase

/-- The process drops the lock. -/
def release (process : π) : Option (Startup π) :=
  (s.lock.step path (.drop process)).map fun lock => s.goOn process lock .releasing

/-- Where a process is after a system call of the lock. -/
def afterCall (process : π) (lock : PidFile π) (phase : ServePhase) : ServePhase :=
  match lock.phase process with
  | .held _ => .probing
  | .failed _ | .idle => .off
  | _ => phase

/-- The pidfile after a system call of the lock: `write_pid` is the last one of `acquire`. -/
def writtenAfter (process : π) (pid : Option π) : ℕ → Option π :=
  match s.lock.phase process with
  | .checked inode => Function.update s.written inode pid
  | _ => s.written

/-- A system call of the lock returns or fails. -/
def lockCall (process : π) (action : LockAction π) (pid : Option π) : Option (Startup π) :=
  match s.phase process with
  | .acquiring | .releasing => (s.lock.step path action).map fun lock =>
    { s.goOn process lock (afterCall process lock (s.phase process)) with
      written := s.writtenAfter process pid }
  | _ => none

/-- One step of a process. -/
def step : StartupAction π → Option (Startup π)
  | .start process =>
    if s.phase process = .off then
      (s.lock.step path (.acquire process)).map fun lock => s.goOn process lock .acquiring
    else none
  | .call process => s.lockCall path process (.call process) (some process)
  | .fail process reason => s.lockCall path process (.fail process reason) none
  | .probe process answered =>
    if s.phase process = .probing ∧ (answered → s.isAnswered) then
      if answered then s.release path process else some (s.goTo process .clearing)
    else none
  | .clear process done =>
    if s.phase process = .clearing then
      some { s.goTo process .binding with socket := if done then none else s.socket }
    else none
  | .bind process result =>
    if s.phase process = .binding then
      match result with
      | .refused => s.release path process
      | .bound =>
        if s.socket.isNone then
          some { s.goTo process .building with socket := some (.boundBy process) }
        else none
      | .unprepared =>
        if s.socket.isNone then
          { s with socket := some (.boundBy process) }.release path process
        else none
    else none
  | .build process done =>
    if s.phase process = .building then
      some (s.goTo process (if done then .serving else .tidying))
    else none
  | .stop process =>
    if s.phase process = .serving then some (s.goTo process .tidying) else none
  | .tidy process done =>
    if s.phase process = .tidying then
      { s with socket := if done then none else s.socket }.release path process
    else none
  | .die process =>
    (s.lock.step path (.die process)).map fun lock => s.goOn process lock .off
  | .strangerDies => some { s with stranger := false }

end Startup

/-- Processes that start a daemon. A pidfile and a socket may have been left behind, and a stranger
may be listening. -/
def startupSystem (π : Type*) [DecidableEq π] (path : String) :
    TransitionSystem (Startup π) (StartupAction π) where
  init s := (projectLock π path).init s.lock ∧ ∀ process, s.phase process = .off
  step s := s.step path

/-- Whether `acquire` may be called. -/
def LockPhase.isAtRest : LockPhase → Bool
  | idle | failed _ => true
  | _ => false

theorem LockPhase.lockedFile_of_isAtRest {phase : LockPhase} (h : phase.isAtRest) :
    phase.lockedFile = none := by
  cases phase <;> first | rfl | cases h

namespace PidFile

variable {π : Type*} [DecidableEq π] {path : String} {s s' : PidFile π} {process : π}

/-- What a process does to the lock by itself, but for dropping it. -/
inductive OfProcess (process : π) : LockAction π → Prop
  | acquire : OfProcess process (.acquire process)
  | call : OfProcess process (.call process)
  | fail (reason : String) : OfProcess process (.fail process reason)

/-- The other processes are where they were. -/
theorem phase_of_step (h : s.Exclusive) {action : LockAction π} (haction : OfProcess process action)
    (hstep : s.step path action = some s') {other : π} (hne : other ≠ process) :
    s'.phase other = s.phase other := by
  cases haction with
  | acquire =>
    simp only [step] at hstep
    split at hstep <;> cases hstep
    all_goals exact phase_setPhase_of_ne hne s _
  | call => exact (h.moves_of_call hstep).phase other hne
  | fail reason => exact (h.moves_of_fail hstep).phase other hne

theorem phase_of_drop (hstep : s.step path (.drop process) = some s') :
    (∃ inode, s'.phase process = .dropping inode) ∧
      ∀ other, other ≠ process → s'.phase other = s.phase other := by
  simp only [step] at hstep
  split at hstep <;> cases hstep
  exact ⟨⟨_, phase_setPhase s process _⟩, fun other hne => phase_setPhase_of_ne hne s _⟩

theorem phase_of_die (hstep : s.step path (.die process) = some s') :
    s'.phase process = .idle ∧ ∀ other, other ≠ process → s'.phase other = s.phase other := by
  simp only [step] at hstep
  split at hstep <;> cases hstep
  all_goals exact ⟨phase_setPhase s process _, fun other hne => phase_setPhase_of_ne hne s _⟩

/-- A process that comes to hold the lock has just written its pid. -/
theorem checked_of_held {action : LockAction π} (haction : OfProcess process action)
    (hstep : s.step path action = some s') {inode : ℕ} (hheld : s'.phase process = .held inode) :
    action = .call process ∧ s.phase process = .checked inode := by
  cases haction with
  | acquire =>
    simp only [step] at hstep
    split at hstep <;> cases hstep
    all_goals simp [setPhase] at hheld
  | fail reason =>
    simp only [step, fail] at hstep
    split at hstep <;> cases hstep
    case h_3 inode' attempts _ =>
      cases attempts <;> simp [retry, close, setPhase] at hheld
    all_goals simp [close, setPhase] at hheld
  | call =>
    simp only [step, call] at hstep
    split at hstep
    case h_4 inode' hphase =>
      cases hstep
      simp only [phase_setPhase, LockPhase.held.injEq] at hheld
      exact ⟨rfl, hheld ▸ hphase⟩
    case h_3 inode' attempts _ =>
      split_ifs at hstep <;> cases hstep
      · simp at hheld
      · cases attempts <;> simp [retry, close, setPhase] at hheld
    case h_7 => cases hstep
    all_goals
      first | split at hstep <;> cases hstep | cases hstep
    all_goals simp [close, setPhase] at hheld

/-- Who has the lock on a file has that file open. -/
def LockedByOpener (s : PidFile π) : Prop :=
  ∀ inode process, s.locks inode = some process → (s.phase process).lockedFile = some inode

theorem LockedByOpener.setPhase (h : s.LockedByOpener) {phase : LockPhase}
    (hphase : phase.lockedFile = (s.phase process).lockedFile) :
    (s.setPhase process phase).LockedByOpener := by
  intro inode other hlocks
  by_cases hne : other = process
  · subst hne
    rw [phase_setPhase, hphase]
    exact h inode other hlocks
  · rw [phase_setPhase_of_ne hne]
    exact h inode other hlocks

theorem LockedByOpener.close (h : s.LockedByOpener) {inode : ℕ} {phase : LockPhase}
    (hphase : (s.phase process).lockedFile = some inode) :
    (s.close process inode phase).LockedByOpener := by
  intro inode' other hlocks
  replace hlocks : Function.update s.locks inode none inode' = some other := hlocks
  have hne : inode' ≠ inode := by
    rintro rfl
    rw [Function.update_self] at hlocks
    cases hlocks
  have hlocks' : s.locks inode' = some other := by rwa [Function.update_of_ne hne] at hlocks
  have hother : other ≠ process := by
    rintro rfl
    exact hne (Option.some.inj ((h inode' other hlocks').symm.trans hphase))
  exact (congrArg LockPhase.lockedFile (phase_setPhase_of_ne hother s phase)).trans
    (h inode' other hlocks')

theorem LockedByOpener.retry (h : s.LockedByOpener) {inode : ℕ} (attempts : ℕ)
    (hphase : (s.phase process).lockedFile = some inode) :
    (s.retry path process inode attempts).LockedByOpener := by
  cases attempts <;> exact h.close hphase

theorem LockedByOpener.step {action : LockAction π} (h : s.LockedByOpener)
    (hstep : s.step path action = some s') : s'.LockedByOpener := by
  cases action with
  | acquire process | drop process =>
    simp only [PidFile.step] at hstep
    split at hstep <;> cases hstep
    all_goals exact h.setPhase (by rw [‹s.phase process = _›]; rfl)
  | die process =>
    simp only [PidFile.step] at hstep
    split at hstep <;> cases hstep
    · exact h.close ‹_›
    · exact h.setPhase (‹(s.phase process).lockedFile = none›).symm
  | fail process reason =>
    simp only [PidFile.step, fail] at hstep
    split at hstep <;> cases hstep
    case h_3 inode attempts hphase => exact h.retry attempts (by rw [hphase]; rfl)
    case h_4 inode hphase => exact h.close (by rw [hphase]; rfl)
    all_goals exact h.setPhase (by rw [‹s.phase process = _›]; rfl)
  | call process =>
    simp only [PidFile.step, call] at hstep
    split at hstep
    case h_1 attempts hphase =>
      split at hstep <;> cases hstep
      all_goals exact h.setPhase (by rw [hphase]; rfl)
    case h_2 inode attempts hphase =>
      split_ifs at hstep <;> cases hstep
      · intro inode' other hlocks
        by_cases hne : inode' = inode
        · subst hne
          obtain rfl : process = other := by simpa using hlocks
          exact congrArg LockPhase.lockedFile (phase_setPhase s process _)
        · have hlocks' : s.locks inode' = some other := by
            simpa [Function.update_of_ne hne] using hlocks
          have hother : other ≠ process := by
            rintro rfl
            have hfile := h inode' other hlocks'
            rw [hphase] at hfile
            cases hfile
          exact (congrArg LockPhase.lockedFile (phase_setPhase_of_ne hother s _)).trans
            (h inode' other hlocks')
      · exact h.setPhase (by rw [hphase]; rfl)
    case h_3 inode attempts hphase =>
      split_ifs at hstep <;> cases hstep
      · exact h.setPhase (by rw [hphase]; rfl)
      · exact h.retry attempts (by rw [hphase]; rfl)
    case h_4 inode hphase =>
      cases hstep
      exact h.setPhase (by rw [hphase]; rfl)
    case h_5 inode hphase =>
      cases hstep
      have hunlinked : (s.setPhase process (.unlinked inode)).LockedByOpener :=
        h.setPhase (by rw [hphase]; rfl)
      exact hunlinked
    case h_6 inode hphase =>
      cases hstep
      exact h.close (by rw [hphase]; rfl)
    case h_7 => cases hstep

theorem lockedByOpener_of_reachable (h : (projectLock π path).Reachable AnyStep s) :
    s.LockedByOpener :=
  h.invariant (fun hinit inode _ hlocks => by rw [hinit.2.1 inode] at hlocks; cases hlocks)
    fun _ hI _ hstep => hI.step hstep

end PidFile

namespace Startup

variable {π : Type*} [DecidableEq π] {path : String} {s s' : Startup π} {process : π}
  {action : StartupAction π}

/-! ### What a step does -/

/-- What the processes do to the lock, the pidfiles, the socket and their own phase. -/
inductive Change (path : String) (s : Startup π) : Startup π → Prop
  | quiet : Change path s { s with stranger := false }
  /-- A process acquires the lock or closes the file of one it has dropped. -/
  | lock {process : π} {action : LockAction π} {lock : PidFile π} {phase : ServePhase}
      {written : ℕ → Option π} (haction : PidFile.OfProcess process action)
      (hlock : s.lock.step path action = some lock)
      (hphase : phase.hasLock → phase = .probing ∧ ∃ inode, lock.phase process = .held inode)
      (hoff : phase = .off → (lock.phase process).isAtRest)
      (hwritten : written = s.written ∨ ∃ inode pid, s.lock.phase process = .checked inode ∧
        written = Function.update s.written inode pid)
      (hchecked : ∀ inode, s.lock.phase process = .checked inode → action = .call process →
        written inode = some process) :
      Change path s { s.goOn process lock phase with written := written }
  /-- A process that has the lock goes on. -/
  | move {process : π} {phase : ServePhase} {socket : Option (SocketFile π)}
      (hhas : (s.phase process).hasLock) (hphase : phase.hasLock)
      (hsocket : phase.isBound →
        socket = some (.boundBy process) ∨ socket = s.socket ∧ (s.phase process).isBound) :
      Change path s { s.goTo process phase with socket := socket }
  | release {process : π} {lock : PidFile π} {socket : Option (SocketFile π)}
      (hhas : (s.phase process).hasLock) (hlock : s.lock.step path (.drop process) = some lock) :
      Change path s { s.goOn process lock .releasing with socket := socket }
  | die {process : π} {lock : PidFile π} (hlock : s.lock.step path (.die process) = some lock) :
      Change path s (s.goOn process lock .off)

theorem change_of_lockCall {lockAction : LockAction π} {pid : Option π}
    (haction : PidFile.OfProcess process lockAction)
    (hpid : lockAction = .call process → pid = some process)
    (h : s.lockCall path process lockAction pid = some s') : Change path s s' := by
  have hwritten : s.writtenAfter process pid = s.written ∨
      ∃ inode pid', s.lock.phase process = .checked inode ∧
        s.writtenAfter process pid = Function.update s.written inode pid' := by
    rw [writtenAfter]
    split
    · exact .inr ⟨_, pid, ‹_›, rfl⟩
    · exact .inl rfl
  have hchecked : ∀ inode, s.lock.phase process = .checked inode → lockAction = .call process →
      s.writtenAfter process pid inode = some process := by
    intro inode hphase hcall
    simp only [writtenAfter, hphase, hpid hcall, Function.update_self]
  have hafter (lock : PidFile π) (phase : ServePhase) (hphase : phase.hasLock = false)
      (hhas : (afterCall process lock phase).hasLock) :
      afterCall process lock phase = .probing ∧ ∃ inode, lock.phase process = .held inode := by
    rw [afterCall] at hhas ⊢
    split at hhas
    · exact ⟨rfl, _, ‹_›⟩
    · cases hhas
    · cases hhas
    · rw [hphase] at hhas
      cases hhas
  have hoff (lock : PidFile π) (phase : ServePhase) (hphase : phase ≠ .off)
      (hafter : afterCall process lock phase = .off) : (lock.phase process).isAtRest := by
    rw [afterCall] at hafter
    split at hafter
    · cases hafter
    · rw [‹lock.phase process = _›]
      rfl
    · rw [‹lock.phase process = _›]
      rfl
    · exact absurd hafter hphase
  rw [lockCall] at h
  split at h
  · obtain ⟨lock, hlock, rfl⟩ := Option.map_eq_some_iff.mp h
    exact .lock haction hlock (hafter lock _ (by rw [‹s.phase process = _›]; rfl))
      (hoff lock _ (by rw [‹s.phase process = _›]; nofun)) hwritten hchecked
  · obtain ⟨lock, hlock, rfl⟩ := Option.map_eq_some_iff.mp h
    exact .lock haction hlock (hafter lock _ (by rw [‹s.phase process = _›]; rfl))
      (hoff lock _ (by rw [‹s.phase process = _›]; nofun)) hwritten hchecked
  · cases h

theorem change_of_step (h : s.step path action = some s') : Change path s s' := by
  cases action with
  | start process =>
    rw [step] at h
    split_ifs at h with hphase
    obtain ⟨lock, hlock, rfl⟩ := Option.map_eq_some_iff.mp h
    exact .lock .acquire hlock nofun nofun (.inl rfl) (fun _ _ => nofun)
  | call process => exact change_of_lockCall .call (fun _ => rfl) h
  | fail process reason =>
    exact change_of_lockCall (.fail reason) nofun h
  | probe process answered =>
    rw [step] at h
    split_ifs at h with hphase hanswered
    · obtain ⟨lock, hlock, rfl⟩ := Option.map_eq_some_iff.mp h
      exact .release (by rw [hphase.1]; rfl) hlock
    · cases h
      exact .move (by rw [hphase.1]; rfl) rfl nofun
  | clear process done =>
    rw [step] at h
    split_ifs at h with hphase
    all_goals
      cases h
      exact .move (by rw [hphase]; rfl) rfl nofun
  | bind process result =>
    have hhas (hphase : s.phase process = .binding) : (s.phase process).hasLock := by
      rw [hphase]
      rfl
    cases result with
    | refused =>
      simp only [step] at h
      split_ifs at h with hphase
      obtain ⟨lock, hlock, rfl⟩ := Option.map_eq_some_iff.mp h
      exact .release (hhas hphase) hlock
    | bound =>
      simp only [step] at h
      split_ifs at h with hphase
      cases h
      exact .move (hhas hphase) rfl fun _ => .inl rfl
    | unprepared =>
      simp only [step] at h
      split_ifs at h with hphase
      obtain ⟨lock, hlock, rfl⟩ := Option.map_eq_some_iff.mp h
      exact .release (hhas hphase) hlock
  | build process done =>
    rw [step] at h
    split_ifs at h with hphase
    all_goals
      cases h
      exact .move (by rw [hphase]; rfl) rfl fun _ => .inr ⟨rfl, by rw [hphase]; rfl⟩
  | stop process =>
    rw [step] at h
    split_ifs at h with hphase
    cases h
    exact .move (by rw [hphase]; rfl) rfl fun _ => .inr ⟨rfl, by rw [hphase]; rfl⟩
  | tidy process done =>
    rw [step] at h
    split_ifs at h with hphase
    all_goals
      obtain ⟨lock, hlock, rfl⟩ := Option.map_eq_some_iff.mp h
      exact .release (by rw [hphase]; rfl) hlock
  | die process =>
    obtain ⟨lock, hlock, rfl⟩ := Option.map_eq_some_iff.mp h
    exact .die hlock
  | strangerDies =>
    cases h
    exact .quiet

theorem lock_of_change (h : Change path s s') :
    s'.lock = s.lock ∨ ∃ lockAction, s.lock.step path lockAction = some s'.lock := by
  cases h with
  | quiet | move => exact .inl rfl
  | lock _ hlock | release _ hlock | die hlock => exact .inr ⟨_, hlock⟩

/-- The lock goes through a run of the project lock. -/
theorem reachable_lock (h : (startupSystem π path).Reachable AnyStep s) :
    (projectLock π path).Reachable AnyStep s.lock := by
  refine h.map (T := projectLock π path) Startup.lock ?_ ?_
  · rintro s₀ ⟨hlock, -⟩
    exact hlock
  · intro u action v _ hstep
    rcases lock_of_change (change_of_step hstep) with hlock | ⟨lockAction, hlock⟩
    · rw [hlock]
      exact TransitionSystem.Steps.refl _
    · exact (TransitionSystem.Steps.refl _).tail ⟨lockAction, trivial, hlock⟩

/-! ### The invariant -/

/-- Who relies on the lock holds it, with its pid in the file, and who has bound the socket owns what
is at its path. -/
structure Inv (s : Startup π) : Prop where
  exclusive : s.lock.Exclusive
  holds : ∀ process, (s.phase process).hasLock → ∃ inode, s.lock.phase process = .held inode
  written : ∀ process inode, s.lock.phase process = .held inode → s.written inode = some process
  socket : ∀ process, (s.phase process).isBound → s.socket = some (.boundBy process)

omit [DecidableEq π] in
/-- Only one process relies on the lock. -/
theorem Inv.eq_of_hasLock (h : s.Inv) {other : π} (hprocess : (s.phase process).hasLock)
    (hother : (s.phase other).hasLock) : other = process := by
  obtain ⟨inode, hheld⟩ := h.holds process hprocess
  obtain ⟨inode', hheld'⟩ := h.holds other hother
  exact h.exclusive.eq_of_ownFile (by rw [hheld']; rfl) (by rw [hheld]; rfl)

theorem phase_goOn (s : Startup π) (process : π) (lock : PidFile π) (phase : ServePhase) :
    (s.goOn process lock phase).phase process = phase := Function.update_self ..

theorem phase_goOn_of_ne {other : π} (hne : other ≠ process) (s : Startup π) (lock : PidFile π)
    (phase : ServePhase) : (s.goOn process lock phase).phase other = s.phase other :=
  Function.update_of_ne hne ..

/-- The process that moves has the lock or does not rely on it; the others are where they were. -/
theorem Inv.of_goOn (h : s.Inv) {lock : PidFile π} {phase : ServePhase} {written : ℕ → Option π}
    {socket : Option (SocketFile π)} (hexclusive : lock.Exclusive)
    (hothers : ∀ other, other ≠ process → lock.phase other = s.lock.phase other)
    (hholds : phase.hasLock → ∃ inode, lock.phase process = .held inode)
    (hown : ∀ inode, lock.phase process = .held inode → written inode = some process)
    (hwritten : ∀ other inode, other ≠ process → s.lock.phase other = .held inode →
      written inode = s.written inode)
    (hbound : phase.isBound → socket = some (.boundBy process))
    (hsocket : ∀ other, other ≠ process → (s.phase other).isBound → socket = s.socket) :
    Inv { s.goOn process lock phase with written := written, socket := socket } where
  exclusive := hexclusive
  holds other hother := by
    by_cases hne : other = process
    · subst hne
      exact hholds (by simpa [phase_goOn] using hother)
    · have hlock := h.holds other (by simpa [phase_goOn_of_ne hne] using hother)
      exact (hothers other hne).symm ▸ hlock
  written other inode hheld := by
    by_cases hne : other = process
    · subst hne
      exact hown inode hheld
    · have hheld' : s.lock.phase other = .held inode := (hothers other hne) ▸ hheld
      exact (hwritten other inode hne hheld').trans (h.written other inode hheld')
  socket other hother := by
    by_cases hne : other = process
    · subst hne
      exact hbound (by simpa [phase_goOn] using hother)
    · have hother' : (s.phase other).isBound := by simpa [phase_goOn_of_ne hne] using hother
      exact (hsocket other hne hother').trans (h.socket other hother')

theorem Inv.change (h : s.Inv) (hchange : Change path s s') (hexclusive : s'.lock.Exclusive) :
    s'.Inv := by
  have halone {process other : π} (hhas : (s.phase process).hasLock) (hne : other ≠ process) :
      ¬ (s.phase other).isBound :=
    fun hbound => hne (h.eq_of_hasLock hhas (ServePhase.hasLock_of_isBound hbound))
  cases hchange with
  | quiet => exact ⟨h.exclusive, h.holds, h.written, h.socket⟩
  | lock haction hlock hphase _ hwritten hchecked =>
    rename_i process action lock phase written
    refine h.of_goOn hexclusive (fun other hne => PidFile.phase_of_step h.exclusive haction hlock hne)
      (fun hhas => (hphase hhas).2) (fun inode hheld => ?_) (fun other inode hne hheld => ?_)
      (fun hbound => ?_) (fun _ _ _ => rfl)
    · obtain ⟨rfl, hchecked'⟩ := PidFile.checked_of_held haction hlock hheld
      exact hchecked inode hchecked' rfl
    · rcases hwritten with rfl | ⟨inode', pid, hphase', rfl⟩
      · rfl
      · -- Two processes do not rely on the same file.
        refine Function.update_of_ne ?_ ..
        rintro rfl
        exact hne (h.exclusive.eq_of_ownFile (by rw [hheld]; rfl) (by rw [hphase']; rfl))
    · obtain ⟨rfl, -⟩ := hphase (ServePhase.hasLock_of_isBound hbound)
      cases hbound
  | move hhas hphase hsocket =>
    rename_i process phase socket
    refine h.of_goOn h.exclusive (fun _ _ => rfl) (fun _ => h.holds process hhas)
      (h.written process) (fun _ _ _ _ => rfl) (fun hbound => ?_)
      (fun other hne hbound => absurd hbound (halone hhas hne))
    rcases hsocket hbound with hsocket | ⟨rfl, hbound'⟩
    · exact hsocket
    · exact h.socket process hbound'
  | release hhas hlock =>
    rename_i process lock socket
    obtain ⟨⟨inode, hdropping⟩, hothers⟩ := PidFile.phase_of_drop hlock
    exact h.of_goOn hexclusive hothers nofun (fun _ hheld => by rw [hdropping] at hheld; cases hheld)
      (fun _ _ _ _ => rfl) nofun (fun other hne hbound => absurd hbound (halone hhas hne))
  | die hlock =>
    rename_i process lock
    obtain ⟨hidle, hothers⟩ := PidFile.phase_of_die hlock
    exact h.of_goOn hexclusive hothers nofun (fun _ hheld => by rw [hidle] at hheld; cases hheld)
      (fun _ _ _ _ => rfl) nofun (fun _ _ _ => rfl)

theorem inv_of_reachable (h : (startupSystem π path).Reachable AnyStep s) : s.Inv := by
  refine h.invariant ?_ ?_
  · rintro s₀ ⟨hlock, hoff⟩
    refine ⟨PidFile.exclusive_of_reachable (.initial hlock), fun process hhas => ?_,
      fun process inode hheld => ?_, fun process hbound => ?_⟩
    · rw [hoff] at hhas
      cases hhas
    · rw [hlock.1] at hheld
      cases hheld
    · rw [hoff] at hbound
      cases hbound
  · intro u action v hu hI _ hstep
    exact hI.change (change_of_step hstep)
      (PidFile.exclusive_of_reachable (reachable_lock (hu.step trivial hstep)))

/-- The calls of a process that starts a daemon when nothing answers. -/
def freshStart (process : π) : List (StartupAction π) :=
  [.start process, .call process, .call process, .call process, .call process] ++
    [.probe process false, .clear process true, .bind process .bound, .build process true]

/-- A project no daemon was started for. -/
def fresh : Startup π where
  lock := { inode := none, created := 0, locks := fun _ => none, phase := fun _ => .idle }
  written _ := none
  socket := none
  stranger := false
  phase _ := .off

omit [DecidableEq π] in
theorem init_fresh [DecidableEq π] : (startupSystem π path).init fresh :=
  ⟨⟨fun _ => rfl, fun _ => rfl, nofun⟩, fun _ => rfl⟩

/-- **Who serves is alone, and can be told by its files.** However many processes start a daemon for
one project, fail, stop or die, and however their steps interleave: while a process serves, the
socket at the path is the one it has bound, the pidfile at the path is its own and names it, and no
other process is between taking the lock and dropping it. -/
theorem serving_exclusive (h : (startupSystem π path).Reachable AnyStep s)
    (hserving : s.phase process = .serving) :
    s.socket = some (.boundBy process) ∧
      (∃ inode, s.lock.inode = some inode ∧ s.written inode = some process) ∧
      ∀ other, (s.phase other).hasLock → other = process := by
  have hI := inv_of_reachable h
  have hhas : (s.phase process).hasLock := by rw [hserving]; rfl
  obtain ⟨inode, hheld⟩ := hI.holds process hhas
  refine ⟨hI.socket process (by rw [hserving]; rfl), ⟨inode, ?_, hI.written process inode hheld⟩,
    fun other hother => hI.eq_of_hasLock hhas hother⟩
  exact hI.exclusive.inode process inode (by rw [hheld]; rfl)

/-- A process serves while another one tries. -/
theorem serving_exclusive_sample : ∃ s : Startup Bool,
    (startupSystem Bool "servicrab.pid").run fresh
      (freshStart true ++ [.start false, .call false, .call false]) = some s ∧
    s.lock.phase false = .failed .held ∧ s.socket = some (.boundBy true) ∧
      (∃ inode, s.lock.inode = some inode ∧ s.written inode = some true) ∧
      ∀ other, (s.phase other).hasLock → other = true := by
  obtain ⟨s, hrun, hheld, hserving⟩ : ∃ s : Startup Bool,
      (startupSystem Bool "servicrab.pid").run fresh
        (freshStart true ++ [.start false, .call false, .call false]) = some s ∧
      s.lock.phase false = .failed .held ∧ s.phase true = .serving := ⟨_, rfl, rfl, rfl⟩
  exact ⟨s, hrun, hheld, serving_exclusive ⟨fresh, init_fresh, steps_of_run hrun⟩ hserving⟩

/-! ### After a crash -/

/-- A process that is off is done with the lock. -/
def AtRest (s : Startup π) : Prop :=
  ∀ process, s.phase process = .off → (s.lock.phase process).isAtRest

theorem AtRest.of_goOn (h : s.AtRest) {lock : PidFile π} {phase : ServePhase}
    {written : ℕ → Option π} {socket : Option (SocketFile π)}
    (hothers : ∀ other, other ≠ process → lock.phase other = s.lock.phase other)
    (hoff : phase = .off → (lock.phase process).isAtRest) :
    AtRest { s.goOn process lock phase with written := written, socket := socket } := by
  intro other hother
  by_cases hne : other = process
  · subst hne
    exact hoff (by simpa [phase_goOn] using hother)
  · have hrest := h other (by simpa [phase_goOn_of_ne hne] using hother)
    exact (hothers other hne).symm ▸ hrest

theorem AtRest.change (h : s.AtRest) (hexclusive : s.lock.Exclusive)
    (hchange : Change path s s') : s'.AtRest := by
  cases hchange with
  | quiet => exact h
  | lock haction hlock _ hoff =>
    exact h.of_goOn (fun other hne => PidFile.phase_of_step hexclusive haction hlock hne) hoff
  | move _ hphase =>
    exact h.of_goOn (fun _ _ => rfl) fun hoff => by rw [hoff] at hphase; cases hphase
  | release _ hlock => exact h.of_goOn (PidFile.phase_of_drop hlock).2 nofun
  | die hlock =>
    obtain ⟨hidle, hothers⟩ := PidFile.phase_of_die hlock
    exact h.of_goOn hothers fun _ => by rw [hidle]; rfl

theorem atRest_of_reachable (h : (startupSystem π path).Reachable AnyStep s) : s.AtRest := by
  refine h.invariant ?_ ?_
  · rintro s₀ ⟨hlock, -⟩ process -
    rw [hlock.1]
    rfl
  · intro u action v hu hI _ hstep
    exact hI.change (inv_of_reachable hu).exclusive (change_of_step hstep)

/-- A call of the lock by a process that acquires it. -/
theorem step_call {lock : PidFile π} (hphase : s.phase process = .acquiring)
    (hcall : s.lock.call path process = some lock) :
    ∃ s', s.step path (.call process) = some s' ∧ s'.lock = lock ∧
      s'.phase process = afterCall process lock .acquiring := by
  refine ⟨{ s.goOn process lock (afterCall process lock .acquiring) with
    written := s.writtenAfter process (some process) }, ?_, rfl, phase_goOn s process lock _⟩
  have hstep : s.lock.step path (.call process) = some lock := hcall
  simp only [step, lockCall, hphase, hstep, Option.map_some]

variable (path) in
/-- A process that is at rest takes a lock that nobody has, with its four calls. -/
theorem run_acquire (hoff : s.phase process = .off) (hrest : (s.lock.phase process).isAtRest)
    (hlocks : ∀ inode, s.lock.locks inode = none) :
    ∃ t, (startupSystem π path).run s
      [.start process, .call process, .call process, .call process, .call process] = some t ∧
      t.phase process = .probing := by
  obtain ⟨s₁, hs₁, hphase₁, hlock₁, hlocks₁⟩ : ∃ s₁, s.step path (.start process) = some s₁ ∧
      s₁.phase process = .acquiring ∧ s₁.lock.phase process = .opening (lockAttempts - 1) ∧
      ∀ inode, s₁.lock.locks inode = none := by
    refine ⟨s.goOn process (s.lock.setPhase process (.opening (lockAttempts - 1))) .acquiring, ?_,
      phase_goOn .., PidFile.phase_setPhase .., hlocks⟩
    rw [step, if_pos hoff, PidFile.step]
    cases hphase : s.lock.phase process with
    | idle | failed => rfl
    | _ =>
      rw [hphase] at hrest
      cases hrest
  -- The file is opened or created.
  obtain ⟨lock₂, inode, hcall₂, hlock₂, hinode₂, hlocks₂⟩ : ∃ lock inode,
      s₁.lock.call path process = some lock ∧
      lock.phase process = .opened inode (lockAttempts - 1) ∧ lock.inode = some inode ∧
      ∀ inode, lock.locks inode = none := by
    rw [PidFile.call, hlock₁]
    cases hinode : s₁.lock.inode with
    | none => exact ⟨_, s₁.lock.created, rfl, PidFile.phase_setPhase .., rfl, hlocks₁⟩
    | some inode => exact ⟨_, inode, rfl, PidFile.phase_setPhase .., hinode, hlocks₁⟩
  obtain ⟨s₂, hs₂, rfl, hphase₂⟩ := step_call hphase₁ hcall₂
  rw [afterCall, hlock₂] at hphase₂
  -- Nobody has the lock on it.
  obtain ⟨lock₃, hcall₃, hlock₃, hinode₃⟩ : ∃ lock, s₂.lock.call path process = some lock ∧
      lock.phase process = .locked inode (lockAttempts - 1) ∧ lock.inode = some inode := by
    simp only [PidFile.call, hlock₂, hlocks₂, Option.isNone_none, if_true]
    exact ⟨_, rfl, PidFile.phase_setPhase .., hinode₂⟩
  obtain ⟨s₃, hs₃, rfl, hphase₃⟩ := step_call hphase₂ hcall₃
  rw [afterCall, hlock₃] at hphase₃
  -- It is still at the path.
  obtain ⟨lock₄, hcall₄, hlock₄⟩ : ∃ lock, s₃.lock.call path process = some lock ∧
      lock.phase process = .checked inode := by
    simp only [PidFile.call, hlock₃, hinode₃, if_true]
    exact ⟨_, rfl, PidFile.phase_setPhase ..⟩
  obtain ⟨s₄, hs₄, rfl, hphase₄⟩ := step_call hphase₃ hcall₄
  rw [afterCall, hlock₄] at hphase₄
  obtain ⟨lock₅, hcall₅, hlock₅⟩ : ∃ lock, s₄.lock.call path process = some lock ∧
      lock.phase process = .held inode := by
    rw [PidFile.call, hlock₄]
    exact ⟨_, rfl, PidFile.phase_setPhase ..⟩
  obtain ⟨s₅, hs₅, rfl, hphase₅⟩ := step_call hphase₄ hcall₅
  rw [afterCall, hlock₅] at hphase₅
  refine ⟨s₅, ?_, hphase₅⟩
  rw [run_cons_of_step hs₁, run_cons_of_step hs₂, run_cons_of_step hs₃, run_cons_of_step hs₄,
    run_cons_of_step hs₅, run_nil]

variable (path) in
/-- A process that has the lock, and is not answered, serves whatever is at the path of the
socket. -/
theorem run_serve (hphase : s.phase process = .probing) :
    ∃ t, (startupSystem π path).run s
      [.probe process false, .clear process true, .bind process .bound, .build process true] = some t ∧
      t.phase process = .serving := by
  let s₁ := s.goTo process .clearing
  have hs₁ : s.step path (.probe process false) = some s₁ := by simp [step, hphase, s₁]
  let s₂ : Startup π := { s₁.goTo process .binding with socket := none }
  have hs₂ : s₁.step path (.clear process true) = some s₂ :=
    if_pos (phase_goOn s process s.lock .clearing)
  let s₃ : Startup π := { s₂.goTo process .building with socket := some (.boundBy process) }
  have hs₃ : s₂.step path (.bind process .bound) = some s₃ :=
    if_pos (phase_goOn s₁ process s.lock .binding)
  have hs₄ : s₃.step path (.build process true) = some (s₃.goTo process .serving) :=
    if_pos (phase_goOn s₂ process s.lock .building)
  refine ⟨s₃.goTo process .serving, ?_, phase_goOn s₃ process s.lock .serving⟩
  rw [run_cons_of_step hs₁, run_cons_of_step hs₂, run_cons_of_step hs₃, run_cons_of_step hs₄,
    run_nil]

/-- **Nothing that is left behind keeps a daemon from starting.** Whatever the processes before have
done, and wherever they died: once all are gone, a process takes the lock at its first attempt,
whether or not there is a pidfile, and serves, whether or not there is a socket. -/
theorem start_after_crash (h : (startupSystem π path).Reachable AnyStep s)
    (hoff : ∀ other, s.phase other = .off) (process : π) :
    ∃ t, (startupSystem π path).run s (freshStart process) = some t ∧
      t.phase process = .serving := by
  have hlocks : ∀ inode, s.lock.locks inode = none := by
    intro inode
    cases hlock : s.lock.locks inode with
    | none => rfl
    | some other =>
      have hfile := PidFile.lockedByOpener_of_reachable (reachable_lock h) inode other hlock
      rw [LockPhase.lockedFile_of_isAtRest (atRest_of_reachable h other (hoff other))] at hfile
      cases hfile
  obtain ⟨u, hu, hprobing⟩ := run_acquire path (hoff process)
    (atRest_of_reachable h process (hoff process)) hlocks
  obtain ⟨t, ht, hserving⟩ := run_serve path hprobing
  refine ⟨t, ?_, hserving⟩
  rw [freshStart, run_append, hu]
  exact ht

/-- One process serves and is killed, and another one starts. -/
theorem start_after_crash_sample : ∃ s : Startup Bool,
    (startupSystem Bool "servicrab.pid").run fresh (freshStart true ++ [.die true]) = some s ∧
    s.lock.inode = some 0 ∧ s.socket = some (.boundBy true) ∧
    ∃ t, (startupSystem Bool "servicrab.pid").run s (freshStart false) = some t ∧
      t.phase false = .serving := by
  obtain ⟨s, hrun, hinode, hsocket, hoff⟩ : ∃ s : Startup Bool,
      (startupSystem Bool "servicrab.pid").run fresh (freshStart true ++ [.die true]) = some s ∧
      s.lock.inode = some 0 ∧ s.socket = some (.boundBy true) ∧ ∀ other, s.phase other = .off :=
    ⟨_, rfl, rfl, rfl, by decide⟩
  exact ⟨s, hrun, hinode, hsocket,
    start_after_crash ⟨fresh, init_fresh, steps_of_run hrun⟩ hoff false⟩

end Startup

end Servicrab
