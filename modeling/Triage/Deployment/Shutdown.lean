import Triage.Failure

/-!
# Waiting for the end

A process waits until it is asked to stop or its worker ends by itself.  A failure of the worker is
the failure of the wait, also when a stop was asked for at the same time.
-/

namespace Triage

/-- How a worker stands when the wait for it ends. -/
inductive WorkerStand where
  | runs
  | returned
  | failed (failure : Failure)

/-- The end of the wait: whether the worker has ended. -/
def WorkerStand.hasEnded : WorkerStand → Except Failure Bool
  | .runs => .ok false
  | .returned => .ok true
  | .failed failure => .error failure

end Triage
