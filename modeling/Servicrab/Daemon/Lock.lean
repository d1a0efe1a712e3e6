import Servicrab.Library.TransitionSystem
import Mathlib.Data.Nat.Notation
import Mathlib.Logic.Function.Basic
import Mathlib.Tactic.SplitIfs

/-!
# The project lock

`ProjectLock::acquire` opens or creates the pidfile, locks it, and takes the lock only if the file
it locked is still the one at the path. Dropping the lock unlinks the path and then closes the file.
Any number of processes do this at once; each system call is a step of its own, and it may fail
wherever the code says what happens then. A process may die anywhere.

The kernel gives the lock on a file to one opener at a time and takes it back when the file is
closed. Files are told apart by when they were created: the inode number of an open file is not
given out again.

## Main definitions

* `LockPhase`, `PidFile`, `PidFile.step`, `projectLock`.
* `PidFile.Exclusive`: the invariant.

## Main results

* `PidFile.Exclusive.moves_of_step`: what a step does.
* `PidFile.exclusive_of_held`: at most one process holds the lock, and the file is at the path.
-/

namespace Servicrab

/-- How many times to retry when the pidfile is replaced while it is being opened. -/
def lockAttempts : ℕ := 8

/-- Why the project lock could not be taken. -/
inductive LockError
  /-- Another daemon holds it. -/
  | held
  /-- The lock could not be evaluated at all. -/
  | failed (message : String)
  deriving DecidableEq

/-- Where a process is in `acquire` or `drop`, with the file it has open and the attempts that are
left after this one. -/
inductive LockPhase
  | idle
  | opening (attempts : ℕ)
  | opened (inode attempts : ℕ)
  | locked (inode attempts : ℕ)
  /-- The file is the one at the path, and the pid is to be written to it. -/
  | checked (inode : ℕ)
  /-- `acquire` has returned the lock. -/
  | held (inode : ℕ)
  /-- `drop` has begun. -/
  | dropping (inode : ℕ)
  /-- `drop` has removed the file at the path, and the one it has open is to be closed. -/
  | unlinked (inode : ℕ)
  | failed (error : LockError)
  deriving DecidableEq

namespace LockPhase

/-- The file the process has locked. -/
def lockedFile : LockPhase → Option ℕ
  | locked inode _ | checked inode | held inode | dropping inode | unlinked inode => some inode
  | _ => none

/-- The file the process relies on being at the path. -/
def ownFile : LockPhase → Option ℕ
  | checked inode | held inode | dropping inode => some inode
  | _ => none

theorem lockedFile_of_ownFile {phase : LockPhase} {inode : ℕ} (h : phase.ownFile = some inode) :
    phase.lockedFile = some inode := by
  cases phase <;> simp_all [ownFile, lockedFile]

end LockPhase

/-- The pidfile of a project, and the processes at it. -/
structure PidFile (π : Type*) where
  /-- The file at the path, if there is one. -/
  inode : Option ℕ
  /-- How many files were created there. -/
  created : ℕ
  /-- Who has the lock on a file. -/
  locks : ℕ → Option π
  phase : π → LockPhase

/-- What happens at the pidfile. -/
inductive LockAction (π : Type*)
  /-- `ProjectLock::acquire` is called. -/
  | acquire (process : π)
  /-- The system call that is due returns. -/
  | call (process : π)
  /-- The system call that is due fails. -/
  | fail (process : π) (reason : String)
  /-- The lock is dropped. -/
  | drop (process : π)
  | die (process : π)

namespace PidFile

variable {π : Type*} [DecidableEq π] (path : String) (s : PidFile π)

def setPhase (process : π) (phase : LockPhase) : PidFile π :=
  { s with phase := Function.update s.phase process phase }

/-- The process closes the file. The kernel takes the lock on it back. -/
def close (process : π) (inode : ℕ) (phase : LockPhase) : PidFile π :=
  { s.setPhase process phase with locks := Function.update s.locks inode none }

/-- The file that was locked is not the one at the path, and the next attempt begins. -/
def retry (process : π) (inode : ℕ) : ℕ → PidFile π
  | 0 => s.close process inode
      (.failed (.failed s!"{path} kept being replaced while taking the daemon lock"))
  | attempts + 1 => s.close process inode (.opening attempts)

/-- The system call that is due returns. -/
def call (process : π) : Option (PidFile π) :=
  match s.phase process with
  | .opening attempts =>
    match s.inode with
    | some inode => some (s.setPhase process (.opened inode attempts))
    | none => some { s.setPhase process (.opened s.created attempts) with
        inode := some s.created
        created := s.created + 1 }
  | .opened inode attempts =>
    if (s.locks inode).isNone then
      some { s.setPhase process (.locked inode attempts) with
        locks := Function.update s.locks inode (some process) }
    else some (s.setPhase process (.failed .held))
  | .locked inode attempts =>
    -- A lock on an unlinked file excludes nobody.
    if s.inode = some inode then some (s.setPhase process (.checked inode))
    else some (s.retry path process inode attempts)
  | .checked inode => some (s.setPhase process (.held inode))
  | .dropping inode =>
    -- What is removed is whatever is at the path.
    some { s.setPhase process (.unlinked inode) with inode := none }
  | .unlinked inode => some (s.close process inode .idle)
  | _ => none

/-- The system call that is due fails. -/
def fail (process : π) (reason : String) : Option (PidFile π) :=
  match s.phase process with
  | .opening _ =>
    some (s.setPhase process (.failed (.failed s!"could not open {path}: {reason}")))
  | .opened _ _ =>
    some (s.setPhase process (.failed (.failed s!"could not lock {path}: {reason}")))
  | .locked inode attempts => some (s.retry path process inode attempts)
  | .checked inode =>
    some (s.close process inode (.failed (.failed s!"could not write {path}: {reason}")))
  | .dropping inode => some (s.setPhase process (.unlinked inode))
  | _ => none

/-- What happens at the pidfile. -/
def step : LockAction π → Option (PidFile π)
  | .acquire process =>
    match s.phase process with
    | .idle | .failed _ => some (s.setPhase process (.opening (lockAttempts - 1)))
    | _ => none
  | .call process => s.call path process
  | .fail process reason => s.fail path process reason
  | .drop process =>
    match s.phase process with
    | .held inode => some (s.setPhase process (.dropping inode))
    | _ => none
  | .die process =>
    match (s.phase process).lockedFile with
    | some inode => some (s.close process inode .idle)
    | none => some (s.setPhase process .idle)

end PidFile

/-- Processes at the pidfile. A file may have been left behind. -/
def projectLock (π : Type*) [DecidableEq π] (path : String) :
    TransitionSystem (PidFile π) (LockAction π) where
  init s := (∀ process, s.phase process = .idle) ∧ (∀ inode, s.locks inode = none) ∧
    ∀ inode, s.inode = some inode → inode < s.created
  step s := s.step path

namespace PidFile

variable {π : Type*} [DecidableEq π] {path : String} {s s' : PidFile π} {process : π} {inode : ℕ}

@[simp] theorem phase_setPhase (s : PidFile π) (process : π) (phase : LockPhase) :
    (s.setPhase process phase).phase process = phase := Function.update_self ..

theorem phase_setPhase_of_ne {other : π} (hne : other ≠ process) (s : PidFile π)
    (phase : LockPhase) : (s.setPhase process phase).phase other = s.phase other :=
  Function.update_of_ne hne ..

/-- Who has locked a file has the lock on it, and the file that a process relies on is at the
path. -/
structure Exclusive (s : PidFile π) : Prop where
  locks : ∀ process inode, (s.phase process).lockedFile = some inode →
    s.locks inode = some process
  inode : ∀ process inode, (s.phase process).ownFile = some inode → s.inode = some inode

omit [DecidableEq π] in
/-- Only one process relies on a file at the path. -/
theorem Exclusive.eq_of_ownFile (h : s.Exclusive) {process' : π} {inode' : ℕ}
    (hown : (s.phase process).ownFile = some inode)
    (hown' : (s.phase process').ownFile = some inode') : process = process' := by
  obtain rfl : inode = inode' :=
    Option.some.inj ((h.inode process inode hown).symm.trans (h.inode process' inode' hown'))
  have hlocks : s.locks inode = some process :=
    h.locks process inode (LockPhase.lockedFile_of_ownFile hown)
  have hlocks' : s.locks inode = some process' :=
    h.locks process' inode (LockPhase.lockedFile_of_ownFile hown')
  exact Option.some.inj (hlocks.symm.trans hlocks')

/-- What a step of a process does: it takes no lock from another, it removes no file at the path
but its own, and it relies on what it has locked and seen. -/
structure Moves (process : π) (s s' : PidFile π) : Prop where
  phase : ∀ other, other ≠ process → s'.phase other = s.phase other
  locks : ∀ other inode, other ≠ process → s.locks inode = some other →
    s'.locks inode = some other
  inode : ∀ inode, s.inode = some inode →
    s'.inode = some inode ∨ (s.phase process).ownFile = some inode
  locked : ∀ inode, (s'.phase process).lockedFile = some inode → s'.locks inode = some process
  own : ∀ inode, (s'.phase process).ownFile = some inode → s'.inode = some inode

omit [DecidableEq π] in
theorem Exclusive.moves (h : s.Exclusive) (hmoves : Moves process s s') : s'.Exclusive := by
  constructor
  · intro other inode hlocked
    by_cases heq : other = process
    · subst heq
      exact hmoves.locked inode hlocked
    · rw [hmoves.phase other heq] at hlocked
      exact hmoves.locks other inode heq (h.locks other inode hlocked)
  · intro other inode hown
    by_cases heq : other = process
    · subst heq
      exact hmoves.own inode hown
    · rw [hmoves.phase other heq] at hown
      rcases hmoves.inode inode (h.inode other inode hown) with hstays | hremoved
      · exact hstays
      · exact absurd (h.eq_of_ownFile hown hremoved) heq

/-- A process moves on, with the files and locks as they are. -/
theorem Exclusive.moves_setPhase (h : s.Exclusive) {phase : LockPhase}
    (hlocked : ∀ inode, phase.lockedFile = some inode →
      (s.phase process).lockedFile = some inode)
    (hown : ∀ inode, phase.ownFile = some inode → s.inode = some inode) :
    Moves process s (s.setPhase process phase) where
  phase other hne := phase_setPhase_of_ne hne s phase
  locks _ _ _ := id
  inode _ := Or.inl
  locked inode hphase := h.locks process inode (hlocked inode (by simpa using hphase))
  own inode hphase := hown inode (by simpa using hphase)

/-- A process closes the file it has locked. -/
theorem Exclusive.moves_close (h : s.Exclusive) {phase : LockPhase}
    (hlocked : (s.phase process).lockedFile = some inode) (hnone : phase.lockedFile = none) :
    Moves process s (s.close process inode phase) where
  phase other hne := phase_setPhase_of_ne hne s phase
  locks other inode' hne hother := by
    have hinode : inode' ≠ inode := by
      rintro rfl
      exact hne (Option.some.inj (hother.symm.trans (h.locks process inode' hlocked)))
    exact (Function.update_of_ne hinode ..).trans hother
  inode _ := Or.inl
  locked inode' hphase := by
    have hphase' : phase.lockedFile = some inode' := by simpa [close] using hphase
    rw [hnone] at hphase'
    cases hphase'
  own inode' hphase := by
    have hphase' : phase.ownFile = some inode' := by simpa [close] using hphase
    rw [LockPhase.lockedFile_of_ownFile hphase'] at hnone
    cases hnone

theorem Exclusive.moves_retry (h : s.Exclusive) (attempts : ℕ)
    (hlocked : (s.phase process).lockedFile = some inode) :
    Moves process s (s.retry path process inode attempts) := by
  cases attempts with
  | zero => exact h.moves_close hlocked rfl
  | succ attempts => exact h.moves_close hlocked rfl

/-- A process that gives up or moves on without a lock. -/
theorem Exclusive.moves_unlocked (h : s.Exclusive) {phase : LockPhase}
    (hnone : phase.lockedFile = none) : Moves process s (s.setPhase process phase) := by
  have hown : phase.ownFile = none := by
    rcases heq : phase.ownFile with _ | inode
    · rfl
    · rw [LockPhase.lockedFile_of_ownFile heq] at hnone
      cases hnone
  exact h.moves_setPhase (by simp [hnone]) (by simp [hown])

/-- A system call that returns does that. -/
theorem Exclusive.moves_of_call (h : s.Exclusive) (hcall : s.call path process = some s') :
    Moves process s s' := by
  rw [call] at hcall
  split at hcall
  case h_1 attempts hphase =>
    split at hcall
    · obtain rfl := Option.some.inj hcall
      exact h.moves_unlocked rfl
    · -- The path was free, and nobody relied on it.
      rename_i hnone
      obtain rfl := Option.some.inj hcall
      refine ⟨fun other hne => phase_setPhase_of_ne hne s _, fun _ _ _ => id, ?_, ?_, ?_⟩
      · simp [hnone]
      · simp [LockPhase.lockedFile]
      · simp [LockPhase.ownFile]
  case h_2 inode attempts hphase =>
    split_ifs at hcall with hfree
    · obtain rfl := Option.some.inj hcall
      refine ⟨fun other hne => phase_setPhase_of_ne hne s _, ?_, fun _ => Or.inl, ?_, ?_⟩
      · intro other inode' hne hother
        have hinode : inode' ≠ inode := by
          rintro rfl
          simp [hother] at hfree
        exact (Function.update_of_ne hinode ..).trans hother
      · simp [LockPhase.lockedFile]
      · simp [LockPhase.ownFile]
    · obtain rfl := Option.some.inj hcall
      exact h.moves_unlocked rfl
  case h_3 inode attempts hphase =>
    split_ifs at hcall with hstill
    · obtain rfl := Option.some.inj hcall
      refine h.moves_setPhase ?_ ?_
      · simp [LockPhase.lockedFile, hphase]
      · simp [LockPhase.ownFile, hstill]
    · obtain rfl := Option.some.inj hcall
      exact h.moves_retry attempts (by rw [hphase]; rfl)
  case h_4 inode hphase =>
    obtain rfl := Option.some.inj hcall
    refine h.moves_setPhase ?_ ?_
    · simp [LockPhase.lockedFile, hphase]
    · exact fun inode' hown => h.inode process inode' (by rw [hphase]; exact hown)
  case h_5 inode hphase =>
    -- What is at the path is the file that this process has locked.
    obtain rfl := Option.some.inj hcall
    have hown : s.inode = some inode := h.inode process inode (by rw [hphase]; rfl)
    refine ⟨fun other hne => phase_setPhase_of_ne hne s _, fun _ _ _ => id, ?_, ?_, ?_⟩
    · intro inode' hinode'
      obtain rfl : inode = inode' := Option.some.inj (hown.symm.trans hinode')
      exact Or.inr (by rw [hphase]; rfl)
    · intro inode' hlocked
      exact h.locks process inode' (by simpa [hphase, LockPhase.lockedFile] using hlocked)
    · simp [LockPhase.ownFile]
  case h_6 inode hphase =>
    obtain rfl := Option.some.inj hcall
    exact h.moves_close (by rw [hphase]; rfl) rfl
  case h_7 => cases hcall

/-- So does one that fails. -/
theorem Exclusive.moves_of_fail {reason : String} (h : s.Exclusive)
    (hfail : s.fail path process reason = some s') : Moves process s s' := by
  rw [fail] at hfail
  split at hfail
  case h_1 attempts hphase =>
    obtain rfl := Option.some.inj hfail
    exact h.moves_unlocked rfl
  case h_2 inode attempts hphase =>
    obtain rfl := Option.some.inj hfail
    exact h.moves_unlocked rfl
  case h_3 inode attempts hphase =>
    obtain rfl := Option.some.inj hfail
    exact h.moves_retry attempts (by rw [hphase]; rfl)
  case h_4 inode hphase =>
    obtain rfl := Option.some.inj hfail
    exact h.moves_close (by rw [hphase]; rfl) rfl
  case h_5 inode hphase =>
    obtain rfl := Option.some.inj hfail
    refine h.moves_setPhase ?_ ?_
    · simp [LockPhase.lockedFile, hphase]
    · simp [LockPhase.ownFile]
  case h_6 => cases hfail

/-- Every step is one of a process that does that. -/
theorem Exclusive.moves_of_step {action : LockAction π} (h : s.Exclusive)
    (hstep : s.step path action = some s') : ∃ process, Moves process s s' := by
  cases action with
  | acquire process =>
    simp only [step] at hstep
    split at hstep
    · obtain rfl := Option.some.inj hstep
      exact ⟨process, h.moves_unlocked rfl⟩
    · obtain rfl := Option.some.inj hstep
      exact ⟨process, h.moves_unlocked rfl⟩
    · cases hstep
  | call process => exact ⟨process, h.moves_of_call hstep⟩
  | fail process reason => exact ⟨process, h.moves_of_fail hstep⟩
  | drop process =>
    simp only [step] at hstep
    split at hstep
    · rename_i inode hphase
      obtain rfl := Option.some.inj hstep
      refine ⟨process, h.moves_setPhase ?_ ?_⟩
      · simp [LockPhase.lockedFile, hphase]
      · exact fun inode' hown => h.inode process inode' (by rw [hphase]; exact hown)
    · cases hstep
  | die process =>
    simp only [step] at hstep
    split at hstep
    · rename_i inode hlocked
      obtain rfl := Option.some.inj hstep
      exact ⟨process, h.moves_close hlocked rfl⟩
    · obtain rfl := Option.some.inj hstep
      exact ⟨process, h.moves_unlocked rfl⟩

theorem exclusive_of_reachable
    (h : (projectLock π path).Reachable TransitionSystem.AnyStep s) : s.Exclusive := by
  refine h.invariant ?_ ?_
  · rintro s₀ ⟨hidle, -, -⟩
    constructor
    · simp [hidle, LockPhase.lockedFile]
    · simp [hidle, LockPhase.ownFile]
  · intro u action v _ hu _ hstep
    obtain ⟨process, hmoves⟩ := hu.moves_of_step hstep
    exact hu.moves hmoves

/-- **The project lock excludes.** However many processes acquire and drop it, and however their
steps interleave, at most one holds it at any time, and the file it has locked is the one at the
path as long as it does. -/
theorem exclusive_of_held
    (h : (projectLock π path).Reachable TransitionSystem.AnyStep s)
    (hheld : s.phase process = .held inode) :
    s.inode = some inode ∧
      ∀ other inode', s.phase other = .held inode' → other = process := by
  have hs : s.Exclusive := exclusive_of_reachable h
  have hown : (s.phase process).ownFile = some inode := by rw [hheld]; rfl
  refine ⟨hs.inode process inode hown, fun other inode' hother => ?_⟩
  have hown' : (s.phase other).ownFile = some inode' := by rw [hother]; rfl
  exact hs.eq_of_ownFile hown' hown

/-- The first process holds the lock on the file that was there, the second has opened that file,
and the first drops it. The second locks the file that is no longer at the path, tries again, and
holds the lock on a file of its own. -/
theorem exclusive_of_held_replaced : ∃ s : PidFile Bool, s.phase true = .held 1 ∧
    s.inode = some 1 ∧ ∀ other inode, s.phase other = .held inode → other = true := by
  let start : PidFile Bool :=
    { inode := some 0, created := 1, locks := fun _ => none, phase := fun _ => .idle }
  have hinit : (projectLock Bool "servicrab.pid").init start :=
    ⟨fun _ => rfl, fun _ => rfl, by simp [start]⟩
  let actions : List (LockAction Bool) := [.acquire false, .acquire true, .call false, .call false,
    .call false, .call false, .call true, .drop false, .call false, .call false, .call true,
    .call true, .call true, .call true, .call true, .call true]
  obtain ⟨s, hrun, hheld⟩ : ∃ s, (projectLock Bool "servicrab.pid").run start actions = some s ∧
      s.phase true = .held 1 := by
    refine ⟨_, rfl, ?_⟩
    decide
  have hs := (TransitionSystem.Reachable.initial hinit).steps (TransitionSystem.steps_of_run hrun)
  exact ⟨s, hheld, exclusive_of_held hs hheld⟩

end PidFile

end Servicrab
