import Triage.Deployment.State

/-!
# Programs side by side

Several tasks share one deployment.  Each carries out its own program, and a schedule says whose turn
it is: a turn is one request, and between any two requests the others may have theirs.  The clocks
move where the schedule moves them.  Every task has a correlation identifier of its own.  A run keeps
a record of its moments: who asked what, what was replied, and how the deployment stood before.
-/

namespace Triage

/-- A program on its way, and the correlation identifier that is bound for it. -/
structure Task (α : Type) where
  program : Program α
  correlation : Option String

/-- Tasks, each under its own mark, and the deployment that they share. -/
structure Crew (ι α : Type) where
  deployment : Deployment
  task : ι → Task α

/-- A step of a schedule: a task has its turn, or the clocks are moved. -/
inductive Move (ι : Type) where
  | turn (mark : ι)
  | clock (micros : Int)
deriving DecidableEq, Repr

/-- What happened in a turn. -/
structure Moment (ι : Type) where
  mark : ι
  request : Request
  reply : Except Failure request.Reply
  before : Deployment

namespace Crew

variable {ι α : Type} [DecidableEq ι]

/-- The deployment as a task finds it: under its own correlation identifier. -/
def found (c : Crew ι α) (mark : ι) : Deployment :=
  { c.deployment with
    correlation := c.deployment.correlation.leave (c.task mark).correlation }

/-- The crew after a request of a task: the task goes on with the reply. -/
def afterRequest (c : Crew ι α) (mark : ι) (q : Request)
    (next : Except Failure q.Reply → Program α) : Crew ι α :=
  let (reply, after) := (c.found mark).perform q
  { deployment := after
    task := fun other =>
      if other = mark then ⟨next reply, after.correlation.current⟩ else c.task other }

/-- The moment of a request. -/
def moment (c : Crew ι α) (mark : ι) (q : Request) : Moment ι :=
  ⟨mark, q, ((c.found mark).perform q).1, c.found mark⟩

/-- Carries out a schedule.  A turn of a task that has ended is empty. -/
def run (c : Crew ι α) : List (Move ι) → List (Moment ι) × Crew ι α
  | [] => ([], c)
  | .clock micros :: rest => { c with deployment := c.deployment.advance micros }.run rest
  | .turn mark :: rest =>
    match (c.task mark).program with
    | .ask q next =>
      let (moments, last) := (c.afterRequest mark q next).run rest
      (c.moment mark q :: moments, last)
    | _ => c.run rest

end Crew
end Triage
