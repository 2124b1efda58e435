import Triage.Proofs.Deployment.Requests
import Triage.Proofs.Deployment.Units

/-!
# Responsive deployments

A deployment is responsive if nothing stands in the way of a registry call, be it in a unit of work
or by itself.  A call that succeeds on the tables then succeeds (`Responsive.run_call`), and what is
read is what the tables hold (`Responsive.run_read`).  A unit of work around a program that leaves
it whole is committed, also when the failure of the program is caught (`Deployment.caught_of_run`).
-/

namespace Triage

open Program

namespace Deployment

variable {d : Deployment}

/-- No failure is staged, the registry has its tables, and a unit of work that is open is not
broken. -/
structure Responsive (d : Deployment) : Prop where
  staged : d.staged = []
  there : d.registry.dropped = false
  whole : ∀ u, d.openUnit = some u → u.broken = false

theorem Quiet.responsive (h : d.Quiet) : d.Responsive :=
  ⟨h.staged, h.there, fun u hOpen => by simp [h.unit] at hOpen⟩

/-- A block finds a responsive deployment responsive. -/
theorem Responsive.entered (h : d.Responsive) : d.entered.Responsive := by
  unfold Deployment.entered
  split
  · exact h
  · exact ⟨h.staged, h.there, fun u hOpen => by cases hOpen; rfl⟩

@[simp] theorem entered_registry (d : Deployment) : d.entered.registry = d.registry := by
  unfold Deployment.entered
  split <;> rfl

theorem entered_openUnit (d : Deployment) : d.entered.openUnit.isSome = true := by
  unfold Deployment.entered
  split
  next u hOpen => rw [hOpen]; rfl
  next => rfl

namespace Responsive

variable (h : d.Responsive)

include h

/-- A registry call that succeeds on the tables succeeds. -/
theorem callRegistry_ok {call : RegistryCall} {reply : call.Reply} {registry : Registry}
    (hApply : d.registry.apply d.now d.nextUuid call = (.ok reply, registry)) :
    d.callRegistry call = (.ok reply, { d with registry, issuesNamed := d.namedAfter call }) := by
  obtain hOpen | ⟨u, hOpen⟩ := Option.eq_none_or_eq_some d.openUnit
  · rw [callRegistry_alone hOpen, Registry.run_eq_apply h.there, hApply]
  · rw [callRegistry_joined hOpen, h.whole u hOpen, Bool.false_and, if_neg Bool.false_ne_true,
      Registry.run_eq_apply h.there, hApply]

/-- Reading from the tables leaves the deployment as it is. -/
theorem callRegistry_read {call : RegistryCall} {reply : Except Failure call.Reply}
    (hApply : d.registry.apply d.now d.nextUuid call = (reply, d.registry))
    (hUuid : call.takesUuid = false) (hAdds : call.addsRow = false) :
    d.callRegistry call = (reply, d) := by
  have hNamed : d.namedAfter call = d.issuesNamed := by rw [namedAfter, hUuid]; rfl
  obtain hOpen | ⟨u, hOpen⟩ := Option.eq_none_or_eq_some d.openUnit
  · rw [callRegistry_alone hOpen, Registry.run_eq_apply h.there, hApply, hNamed]
    cases reply <;> rfl
  · rw [callRegistry_joined hOpen, h.whole u hOpen, Bool.false_and, if_neg Bool.false_ne_true,
      Registry.run_eq_apply h.there, hApply, hNamed, hAdds]
    cases reply <;> rfl

theorem run_call {call : RegistryCall} {reply : call.Reply} {registry : Registry}
    (hApply : d.registry.apply d.now d.nextUuid call = (.ok reply, registry)) :
    d.run (Program.registry call) =
      (.ok reply, { d with registry, issuesNamed := d.namedAfter call }) :=
  (d.run_request _).trans ((perform_unstaged h.staged _).trans (h.callRegistry_ok hApply))

theorem run_read {call : RegistryCall} {reply : Except Failure call.Reply}
    (hApply : d.registry.apply d.now d.nextUuid call = (reply, d.registry))
    (hUuid : call.takesUuid = false) (hAdds : call.addsRow = false) :
    d.run (Program.registry call) = (reply, d) :=
  (d.run_request _).trans
    ((perform_unstaged h.staged _).trans (h.callRegistry_read hApply hUuid hAdds))

end Responsive

/-- Runs a program in a unit of work whose body catches the failure of the program and ends well. -/
def caught (d : Deployment) (p : Program α) : Except Failure (Except Failure α) × Deployment :=
  d.inBlock fun d => d.run p.attempt

/-- If a program leaves the unit of work around it whole, the unit is committed, whether or not the
program fails. -/
theorem caught_of_run {p : Program α} {outcome : Except Failure α} {after : Deployment}
    {u : UnitOfWork} (hRun : d.entered.run p = (outcome, after)) (hOpen : after.openUnit = some u)
    (hWhole : u.broken = false) :
    (d.caught p).1 = .ok outcome ∧ (d.caught p).2.registry = after.registry := by
  have hAttempt : d.entered.run p.attempt = (.ok outcome, after) := by rw [run_attempt, hRun]
  rcases hUnit : d.openUnit with _ | v
  · rw [caught, inBlock_ok hUnit hAttempt hOpen, hWhole]
    exact ⟨rfl, rfl⟩
  · have hEntered : d.entered = d := by simp only [Deployment.entered, hUnit]
    rw [hEntered] at hAttempt
    rw [caught, inBlock_joined hUnit, hAttempt]
    exact ⟨rfl, rfl⟩

end Deployment
end Triage
