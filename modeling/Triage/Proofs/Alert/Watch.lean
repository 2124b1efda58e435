import Triage.Proofs.Alert.TickConduct
import Triage.Proofs.Alert.Turns
import Triage.Proofs.Deployment.Schedules

/-!
# Watching a crew

What the moments of a run tell about the tasks of a crew: the standing of each, and whether the lease
that it holds has been found expired since it was granted.  A turn changes the standing of the task
whose turn it is and of no other one, and leaves every task in its conduct (`Underway.afterRequest`).
-/

namespace Triage

/-- What is known of the tasks of a crew: the standing of each, and whether the lease that it holds
has been found expired since it was granted. -/
structure Watch (ι : Type) where
  standing : ι → Standing
  lapsed : ι → Bool

/-- The alert as the task knows it. -/
def Standing.listed (s : Standing) (a : Int) : Option Alert := s.known.find? fun x => x.id = a

namespace Watch

variable {ι : Type} [DecidableEq ι]

/-- Nothing has happened yet. -/
def initial : Watch ι := ⟨fun _ => .initial, fun _ => false⟩

/-- What is known after a moment. -/
def after (v : Watch ι) (m : Moment ι) : Watch ι where
  standing i :=
    if i = m.mark then (v.standing i).note m.before m.request m.reply else v.standing i
  lapsed i := (v.standing i).held.any fun h => v.lapsed i || m.request.findsExpired h.lease

end Watch

namespace Watch

variable {ι α : Type} [DecidableEq ι] {v : Watch ι} {c : Crew ι α} {i j : ι} {q : Request}

theorem after_self : (v.after (c.moment i q)).standing i =
    (v.standing i).note (c.found i) q ((c.found i).perform q).1 := by
  simp [after, Crew.moment]

theorem after_other (h : j ≠ i) : (v.after (c.moment i q)).standing j = v.standing j := by
  simp [after, Crew.moment, h]

/-- A lease that was held before and has not lapsed had not lapsed before either. -/
theorem lapsed_before {h : Holding} (hHeld : h ∈ (v.standing j).held)
    (hLapsed : (v.after (c.moment i q)).lapsed j = false) :
    v.lapsed j = false ∧ q.findsExpired h.lease = false := by
  rw [Option.mem_def] at hHeld
  simpa [after, Crew.moment, hHeld] using hLapsed

end Watch

/-- Tasks on their way, each in its conduct: nothing is open, and no alert is known twice. -/
structure Underway {ι : Type} (k : ι → Conduct Standing) (v : Watch ι) (c : Crew ι Unit) : Prop where
  unit : c.deployment.openUnit = none
  keyed : c.deployment.registry.Keyed
  keeps : ∀ i, (k i).Keeps (fun _ _ => True) (v.standing i) (c.task i).program
  keys : ∀ i, ((v.standing i).known.map Alert.id).Nodup

namespace Underway

variable {ι : Type} {k : ι → Conduct Standing} {v : Watch ι} {c : Crew ι Unit} {i : ι} {q : Request}
  {next : Except Failure q.Reply → Program Unit}

/-- Whoever has the turn asks what its conduct allows. -/
theorem allows (h : Underway k v c) (hProgram : (c.task i).program = .ask q next) :
    (k i).allows (v.standing i) q :=
  Crew.allows_of_keeps h.keeps hProgram

/-- The clocks do not matter. -/
theorem advance (h : Underway k v c) (micros : Int) :
    Underway k v { c with deployment := c.deployment.advance micros } :=
  ⟨h.unit, h.keyed, h.keeps, h.keys⟩

variable [DecidableEq ι]

/-- A turn of a task, in a conduct that notes the standing. -/
theorem afterRequest (h : Underway k v c) (hNote : ∀ i, (k i).note = Standing.note)
    (hProgram : (c.task i).program = .ask q next) :
    Underway k (v.after (c.moment i q)) (c.afterRequest i q next) where
  unit := Deployment.perform_openUnit (d := c.found i) h.unit q
  keyed := Deployment.perform_keyed (d := c.found i) h.unit h.keyed q
  keeps j := by
    have hStanding : (v.after (c.moment i q)).standing j = c.noted k v.standing i q j := by
      by_cases hj : j = i
      · subst hj
        rw [Watch.after_self, Crew.noted_self, hNote]
      · rw [Watch.after_other hj, Crew.noted_other hj]
    rw [hStanding]
    exact Crew.keeps_afterRequest h.keeps hProgram j
  keys j := by
    by_cases hj : j = i
    · subst hj
      rw [Watch.after_self]
      exact Standing.keys_note (d := c.found j) h.unit h.keyed q (h.keys j)
    · rw [Watch.after_other hj]
      exact h.keys j

end Underway
end Triage
