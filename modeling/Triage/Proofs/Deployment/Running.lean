import Triage.Deployment.Lemmas
import Triage.Proofs.Deployment.Conduct
import Triage.Proofs.Deployment.Effects
import Triage.Proofs.Registry.Footprint

/-!
# Programs run by themselves

What holds of the outcome of a program that is run from a given deployment, and of the deployment
that it leaves (`Program.Ends`).  The laws follow the structure of programs.  What every request of
a program keeps, the program keeps (`Ends.of_asks`).  Where no failure is staged, a request is
simply carried out (`Deployment.perform_unstaged`); in a `Quiet` deployment a registry call has the
effect that it has on the tables.
-/

namespace Triage

/-- Run by itself from a deployment, a program ends with an outcome and a deployment of a given
kind. -/
def Program.Ends (p : Program α) (d : Deployment) (post : Except Failure α → Deployment → Prop) :
    Prop :=
  post (d.run p).1 (d.run p).2

namespace Program

variable {d : Deployment} {post : Except Failure α → Deployment → Prop}

theorem Ends.mono {stronger : Except Failure α → Deployment → Prop} {p : Program α}
    (hp : p.Ends d stronger) (h : ∀ outcome after, stronger outcome after → post outcome after) :
    p.Ends d post :=
  h _ _ hp

theorem ends_pure {a : α} (h : post (.ok a) d) : (pure a : Program α).Ends d post := h

/-- A sequence: the first part fails as the whole may, or the second part takes over. -/
theorem Ends.bind {middle : Except Failure β → Deployment → Prop} {p : Program β}
    {f : β → Program α} (hp : p.Ends d middle)
    (hFail : ∀ e after, middle (.error e) after → post (.error e) after)
    (hNext : ∀ b after, middle (.ok b) after → (f b).Ends after post) : (p >>= f).Ends d post := by
  unfold Ends at hp ⊢
  rw [show d.run (p >>= f) = d.run (p.andThen f) from rfl, d.run_andThen]
  rcases hRun : d.run p with ⟨e | b, after⟩ <;> rw [hRun] at hp
  · exact hFail e after hp
  · exact hNext b after hp

theorem run_bind {p : Program β} {f : β → Program α} {b : β} {after : Deployment}
    (hRun : d.run p = (.ok b, after)) : d.run (p >>= f) = after.run (f b) := by
  rw [show d.run (p >>= f) = d.run (p.andThen f) from rfl, d.run_andThen, hRun]

theorem run_bind_error {p : Program β} {f : β → Program α} {e : Failure} {after : Deployment}
    (hRun : d.run p = (.error e, after)) : d.run (p >>= f) = (.error e, after) := by
  rw [show d.run (p >>= f) = d.run (p.andThen f) from rfl, d.run_andThen, hRun]

theorem run_attempt_bind {p : Program β} {f : Except Failure β → Program α}
    {outcome : Except Failure β} {after : Deployment} (hRun : d.run p = (outcome, after)) :
    d.run (p.attempt >>= f) = after.run (f outcome) :=
  run_bind (by rw [d.run_attempt, hRun])

/-- A sequence whose first part is known to end well. -/
theorem Ends.of_run {p : Program β} {f : β → Program α} {b : β} {after : Deployment}
    (hRun : d.run p = (.ok b, after)) (hNext : (f b).Ends after post) : (p >>= f).Ends d post := by
  unfold Ends at hNext ⊢
  rw [run_bind hRun]
  exact hNext

theorem Ends.attempt {post : Except Failure (Except Failure α) → Deployment → Prop} {p : Program α}
    (hp : p.Ends d fun outcome after => post (.ok outcome) after) : p.attempt.Ends d post := by
  unfold Ends
  rw [d.run_attempt]
  exact hp

/-- A sequence that goes on with the outcome of an attempt. -/
theorem Ends.attempt_bind {middle : Except Failure β → Deployment → Prop} {p : Program β}
    {f : Except Failure β → Program α} (hp : p.Ends d middle)
    (hNext : ∀ outcome after, middle outcome after → (f outcome).Ends after post) :
    (p.attempt >>= f).Ends d post :=
  Ends.of_run (d.run_attempt p) (hNext _ _ hp)

/-- The last step is taken from wherever the program ends, and if it ends well the outcome of the
program counts. -/
theorem run_ensure (d : Deployment) (p : Program α) (last : Program Unit) :
    d.run (p.ensure last) =
      match (d.run p).2.run last with
      | (.ok _, final) => ((d.run p).1, final)
      | (.error e, final) => (.error e, final) := by
  refine (d.run_andThen p.attempt _).trans ?_
  rw [d.run_attempt]
  refine ((d.run p).2.run_andThen last _).trans ?_
  rcases (d.run p).2.run last with ⟨e | _, final⟩
  · rfl
  · cases (d.run p).1 <;> rfl

/-- A last step that succeeds leaves the outcome of the program as it is. -/
theorem run_ensure_of_run {p : Program α} {last : Program Unit} {outcome : Except Failure α}
    {mid final : Deployment} (hRun : d.run p = (outcome, mid)) (hLast : mid.run last = (.ok (), final)) :
    d.run (p.ensure last) = (outcome, final) := by
  rw [run_ensure, hRun, hLast]

theorem Ends.ensure {middle : Except Failure α → Deployment → Prop} {p : Program α}
    {last : Program Unit} (hp : p.Ends d middle)
    (hLast : ∀ outcome after, middle outcome after → last.Ends after fun ended final =>
      match ended with
      | .ok _ => post outcome final
      | .error e => post (.error e) final) : (p.ensure last).Ends d post := by
  have hFinal := hLast _ _ hp
  unfold Ends at hFinal ⊢
  rw [run_ensure]
  rcases hRun : (d.run p).2.run last with ⟨e | _, final⟩ <;> rw [hRun] at hFinal <;> exact hFinal

theorem ends_request {q : Request} {post : Except Failure q.Reply → Deployment → Prop}
    (h : post (d.perform q).1 (d.perform q).2) : (request q).Ends d post := by
  unfold Ends
  rw [d.run_request]
  exact h

/-- A program keeps what each of its requests keeps. -/
theorem Ends.of_asks {kind : Request → Prop} {inv : Deployment → Prop} {p : Program α}
    (hp : p.Asks kind) (hKeep : ∀ d q, kind q → inv d → inv (d.perform q).2) (h : inv d) :
    p.Ends d fun _ after => inv after := by
  induction p generalizing d with
  | done a => exact h
  | fail e => exact h
  | ask q next ih => exact ih _ (hp.2 _) (hKeep d q hp.1 h)

end Program

namespace Deployment

variable {d : Deployment}

theorem takeStaged_unstaged (hStaged : d.staged = []) (target : String) :
    d.takeStaged target = (none, d) := by
  simp [takeStaged, hStaged]

/-- Where no failure is staged, a request is carried out. -/
theorem perform_unstaged (hStaged : d.staged = []) (q : Request) :
    d.perform q = d.carryOutRequest q := by
  unfold perform
  cases q.target? with
  | none => rfl
  | some target =>
      dsimp only
      rw [takeStaged_unstaged hStaged]

/-- The time is told wherever a program is run. -/
theorem run_now (d : Deployment) : d.run Program.now = (.ok d.now, d) := rfl

theorem run_noteChange (d : Deployment) (change : RowChange) :
    d.run (Program.request (.noteChange change)) = (.ok (), d.noteChange change) :=
  d.run_request _

/-- Where no failure is staged, a question to the event log is answered and changes nothing. -/
theorem run_question (hStaged : d.staged = []) (call : EventLogCall)
    (hQuestion : ∀ record, call ≠ .append record) :
    d.run (Program.eventLog call) = ((d.events.run call).1, d) := by
  refine (d.run_request _).trans ?_
  rw [perform_unstaged hStaged]
  cases call with
  | append record => exact absurd rfl (hQuestion record)
  | _ =>
      simp only [carryOutRequest, callEventLog, EventLog.run]
      split <;> rfl

/-- No unit of work is open, no failure is staged, and the registry has its tables. -/
structure Quiet (d : Deployment) : Prop where
  unit : d.openUnit = none
  staged : d.staged = []
  there : d.registry.dropped = false

/-- In a quiet deployment a registry call does what it does to the tables if it succeeds, and
changes none of them if it fails. -/
theorem Quiet.perform_eq_apply (h : d.Quiet) (call : RegistryCall) :
    d.perform (.registry call) =
      match d.registry.apply d.now d.nextUuid call with
      | (.ok reply, registry) =>
        (.ok reply, { d with registry, issuesNamed := d.namedAfter call })
      | (.error e, _) => (.error e, { d with issuesNamed := d.namedAfter call }) := by
  rw [perform_unstaged h.staged, carryOutRequest, callRegistry_alone h.unit,
    Registry.run_eq_apply h.there]
  rfl

theorem Quiet.perform_call (h : d.Quiet) (call : RegistryCall) :
    ∃ issuesNamed, d.perform (.registry call) =
      match d.registry.apply d.now d.nextUuid call with
      | (.ok reply, registry) => (.ok reply, { d with registry, issuesNamed })
      | (.error e, _) => (.error e, { d with issuesNamed }) :=
  ⟨d.namedAfter call, h.perform_eq_apply call⟩

/-- In a quiet deployment a registry call succeeds if it does on the tables. -/
theorem Quiet.run_call (h : d.Quiet) {call : RegistryCall} {reply : call.Reply} {registry : Registry}
    (hApply : d.registry.apply d.now d.nextUuid call = (.ok reply, registry)) :
    ∃ issuesNamed, d.run (Program.registry call) = (.ok reply, { d with registry, issuesNamed }) := by
  obtain ⟨issuesNamed, hPerform⟩ := h.perform_call call
  refine ⟨issuesNamed, (d.run_request _).trans ?_⟩
  rw [hPerform, hApply]
  rfl

end Deployment
end Triage
