import Triage.Deployment.Request

/-!
# Programs

A program makes requests one after the other and goes on with each reply or failure.  Because
nothing else happens between its requests, programs can be run by themselves or step by step among
others.
-/

namespace Triage

/-- A program with a result. -/
inductive Program (α : Type) where
  | done (value : α)
  | fail (failure : Failure)
  | ask (request : Request) (next : Except Failure request.Reply → Program α)

namespace Program

/-- Goes on with the result of a program. -/
def andThen : Program α → (α → Program β) → Program β
  | .done a, f => f a
  | .fail e, _ => .fail e
  | .ask q next, f => .ask q fun reply => (next reply).andThen f

/-- A program that cannot fail: its failure becomes its result. -/
def attempt : Program α → Program (Except Failure α)
  | .done a => .done (.ok a)
  | .fail e => .done (.error e)
  | .ask q next => .ask q fun reply => (next reply).attempt

instance : Monad Program where
  pure := .done
  bind := andThen

/-- Goes on after a failure. -/
def orElseDo (p : Program α) (handle : Failure → Program α) : Program α := do
  match ← p.attempt with
  | .ok a => return a
  | .error e => handle e

instance : MonadExceptOf Failure Program where
  throw := .fail
  tryCatch := orElseDo

/-- Runs a last step whether or not the program fails; the outcome of the program counts. -/
def ensure (p : Program α) (last : Program Unit) : Program α := do
  let outcome ← p.attempt
  last
  match outcome with
  | .ok a => return a
  | .error e => .fail e

/-- A single request. -/
def request (q : Request) : Program q.Reply :=
  .ask q fun
    | .ok reply => .done reply
    | .error e => .fail e

/-- A call to the registry. -/
def registry (call : RegistryCall) : Program call.Reply := request (.registry call)

/-- A call to the event log. -/
def eventLog (call : EventLogCall) : Program call.Reply := request (.eventLog call)

/-- The current time. -/
def now : Program Instant := request .now

/-- Writes to the log. -/
def report (severity : Log.Severity) (component : Log.Component) (message : String)
    (subjects : List (String × Json)) (failure : Option Failure) : Program Unit :=
  request (.record ⟨severity, component, message, subjects, failure⟩)

/-- Runs a program in a correlation scope. -/
def inScope (id : Option String) (p : Program α) : Program α := do
  let before ← request (.enterScope id)
  p.ensure (request (.leaveScope before))

/-- The result of a computation that makes no requests. -/
def settle : Except Failure α → Program α
  | .ok a => .done a
  | .error e => .fail e

end Program
end Triage
