import Triage.Deployment.State

/-!
# Running programs

Programs form a lawful monad, and running one follows its structure: first the first part, then what
goes on with its result.  An attempt leaves the deployment as the attempted program does.
-/

namespace Triage

namespace Program

theorem andThen_done (p : Program α) : p.andThen .done = p := by
  induction p with
  | done a => rfl
  | fail e => rfl
  | ask q next ih => simp only [andThen, ih]

theorem andThen_assoc (p : Program α) (f : α → Program β) (g : β → Program γ) :
    (p.andThen f).andThen g = p.andThen fun a => (f a).andThen g := by
  induction p with
  | done a => rfl
  | fail e => rfl
  | ask q next ih => simp only [andThen, ih]

instance : LawfulMonad Program :=
  LawfulMonad.mk' Program andThen_done (fun _ _ => rfl) andThen_assoc

end Program

namespace Deployment

/-- A program is run up to its result, and what goes on with the result from there. -/
theorem run_andThen (d : Deployment) (p : Program α) (f : α → Program β) :
    d.run (p.andThen f) =
      match d.run p with
      | (.ok a, after) => after.run (f a)
      | (.error e, after) => (.error e, after) := by
  induction p generalizing d with
  | done a => rfl
  | fail e => rfl
  | ask q next ih => simp only [Program.andThen, run, ih]

/-- An attempt succeeds with the outcome of the program. -/
theorem run_attempt (d : Deployment) (p : Program α) :
    d.run p.attempt = (.ok (d.run p).1, (d.run p).2) := by
  induction p generalizing d with
  | done a => rfl
  | fail e => rfl
  | ask q next ih => simp only [Program.attempt, run, ih]

/-- A single request has the outcome of carrying it out. -/
theorem run_request (d : Deployment) (q : Request) : d.run (Program.request q) = d.perform q := by
  simp only [Program.request, run]
  match d.perform q with
  | (.ok reply, after) => rfl
  | (.error e, after) => rfl

end Deployment
end Triage
