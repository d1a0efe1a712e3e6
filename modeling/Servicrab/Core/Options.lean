import Servicrab.Core.Error

/-!
# Options and outcome of a single service run

What a service is run with, and how its run ends (`mod.rs`).
-/

namespace Servicrab

/-- What to do with a service's standard output and error. -/
inductive OutputMode
  /-- Hand the terminal straight to the child. -/
  | inherit
  /-- Read the child's output line by line and publish it as events. -/
  | capture
  deriving DecidableEq, Repr

/-- Options controlling a single service run. -/
structure RunOptions where
  /-- Disable automatic restarts regardless of the configured policy. -/
  noRestart : Bool
  output : OutputMode
  deriving DecidableEq, Repr

/-- The effective restart policy for a service under these options. -/
def RunOptions.effectivePolicy (options : RunOptions) (configured : RestartPolicy) :
    RestartPolicy :=
  if options.noRestart then .never else configured

/-- How a single service run finished. -/
inductive RunOutcome
  | exited (reason : ExitReason) (restarts : ℕ)
  | stopped (reason : ShutdownReason)
  deriving DecidableEq, Repr

end Servicrab
