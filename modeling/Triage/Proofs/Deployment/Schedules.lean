import Triage.Deployment.Interleaving
import Triage.Proofs.Deployment.Conduct

/-!
# Runs of a crew

A turn changes the task whose turn it is and no other one.  What clocks and turns keep, every
schedule keeps (`run_keeps`), also what speaks of the moments so far (`run_follows`).  Where each
task keeps to a conduct, it does so after every turn, whoever had it (`keeps_afterRequest`).

Calls may fail at any time for reasons of their own: among the moves of a schedule failures may be
staged (`Crew.live`).  What the staging of a failure keeps as well, is kept then (`live_follows`).
-/

namespace Triage.Crew

variable {ι α : Type} [DecidableEq ι] {c : Crew ι α} {i j : ι} {q : Request}
  {next : Except Failure q.Reply → Program α}

/-- A schedule that begins with the turn of a task that asks something. -/
theorem run_turn (hProgram : (c.task i).program = .ask q next) (rest : List (Move ι)) :
    c.run (.turn i :: rest) = (c.moment i q :: ((c.afterRequest i q next).run rest).1,
      ((c.afterRequest i q next).run rest).2) := by
  simp only [run, hProgram]

/-- A schedule that begins with the turn of a task that has ended. -/
theorem run_ended (hEnded : ∀ q next, (c.task i).program ≠ .ask q next) (rest : List (Move ι)) :
    c.run (.turn i :: rest) = c.run rest := by
  cases hProgram : (c.task i).program with
  | ask q next => exact absurd hProgram (hEnded q next)
  | _ => simp only [run, hProgram]

theorem afterRequest_self :
    ((c.afterRequest i q next).task i).program = next ((c.found i).perform q).1 := by
  simp [afterRequest]

theorem afterRequest_other (h : j ≠ i) : (c.afterRequest i q next).task j = c.task j := by
  simp [afterRequest, h]

/-- What is kept when the clocks are moved and in every turn is kept by a schedule. -/
theorem run_keeps {inv : Crew ι α → Prop}
    (schedule : List (Move ι))
    (hClock : ∀ (c : Crew ι α) (micros : Int), .clock micros ∈ schedule → inv c →
      inv { c with deployment := c.deployment.advance micros })
    (hTurn : ∀ {c : Crew ι α} {i : ι} {q : Request} {next : Except Failure q.Reply → Program α},
      (c.task i).program = .ask q next → inv c → inv (c.afterRequest i q next))
    (h : inv c) : inv (c.run schedule).2 := by
  induction schedule generalizing c with
  | nil => exact h
  | cons move rest ih =>
      replace ih {c : Crew ι α} := @ih c fun c micros hMem => hClock c micros (.tail _ hMem)
      cases move with
      | clock micros => exact ih (hClock c micros (.head _) h)
      | turn i =>
          cases hProgram : (c.task i).program with
          | ask q next =>
              rw [run_turn hProgram]
              exact ih (hTurn hProgram h)
          | _ =>
              rw [run_ended (by simp [hProgram])]
              exact ih h

/-- What is kept of the crew and of all moments so far, when the clocks are moved and in every turn,
is kept by a schedule. -/
theorem run_follows {inv : List (Moment ι) → Crew ι α → Prop} (schedule : List (Move ι))
    (hClock : ∀ {trace : List (Moment ι)} {c : Crew ι α} (micros : Int), .clock micros ∈ schedule →
      inv trace c → inv trace { c with deployment := c.deployment.advance micros })
    (hTurn : ∀ {trace : List (Moment ι)} {c : Crew ι α} {i : ι} {q : Request}
      {next : Except Failure q.Reply → Program α}, (c.task i).program = .ask q next →
      inv trace c → inv (trace ++ [c.moment i q]) (c.afterRequest i q next))
    {trace : List (Moment ι)} (h : inv trace c) :
    inv (trace ++ (c.run schedule).1) (c.run schedule).2 := by
  induction schedule generalizing c trace with
  | nil =>
      rw [run, List.append_nil]
      exact h
  | cons move rest ih =>
      replace ih {c : Crew ι α} {trace : List (Moment ι)} :=
        @ih c (fun micros hMem => hClock micros (.tail _ hMem)) trace
      cases move with
      | clock micros => exact ih (hClock micros (.head _) h)
      | turn i =>
          cases hProgram : (c.task i).program with
          | ask q next =>
              rw [run_turn hProgram]
              have hRest := ih (hTurn hProgram h)
              rwa [List.append_assoc, List.singleton_append] at hRest
          | _ =>
              rw [run_ended (by simp [hProgram])]
              exact ih h

/-- The moments of two schedules one after the other. -/
theorem moments_append (c : Crew ι α) (schedule more : List (Move ι)) :
    (c.run (schedule ++ more)).1 = (c.run schedule).1 ++ ((c.run schedule).2.run more).1 := by
  induction schedule generalizing c with
  | nil => rfl
  | cons move rest ih =>
      cases move with
      | clock micros => exact ih _
      | turn i =>
          rw [List.cons_append]
          cases hProgram : (c.task i).program with
          | ask q next =>
              rw [run_turn hProgram, run_turn hProgram, ih]
              rfl
          | _ =>
              rw [run_ended (by simp [hProgram]), run_ended (by simp [hProgram])]
              exact ih c

/-- The moments of a part of a schedule come first among those of a longer part. -/
theorem moments_take_prefix (c : Crew ι α) (schedule : List (Move ι)) {k l : Nat} (h : k ≤ l) :
    (c.run (schedule.take k)).1 <+: (c.run (schedule.take l)).1 := by
  obtain ⟨rest, hRest⟩ : schedule.take k <+: schedule.take l := List.take_prefix_take_left h
  rw [← hRest, moments_append]
  exact List.prefix_append _ _

/-- Some first moments of a schedule are those of a part of it. -/
theorem exists_take_of_prefix {schedule : List (Move ι)} {first : List (Moment ι)}
    (h : first <+: (c.run schedule).1) : ∃ k, (c.run (schedule.take k)).1 = first := by
  induction schedule generalizing c first with
  | nil =>
      obtain rfl := List.prefix_nil.mp h
      exact ⟨0, rfl⟩
  | cons move rest ih =>
      cases first with
      | nil => exact ⟨0, rfl⟩
      | cons m later =>
          cases move with
          | clock micros =>
              obtain ⟨k, hk⟩ := ih h
              exact ⟨k + 1, hk⟩
          | turn i =>
              cases hProgram : (c.task i).program with
              | ask q next =>
                  rw [run_turn hProgram, List.cons_prefix_cons] at h
                  obtain ⟨k, hk⟩ := ih h.2
                  refine ⟨k + 1, ?_⟩
                  rw [List.take_succ_cons, run_turn hProgram, hk, h.1]
              | _ =>
                  rw [run_ended (by simp [hProgram])] at h
                  obtain ⟨k, hk⟩ := ih h
                  refine ⟨k + 1, ?_⟩
                  rw [List.take_succ_cons, run_ended (by simp [hProgram]), hk]

/-- What can happen to a crew: a move of a schedule, or a failure that awaits the next calls of a
target. -/
inductive Happening (ι : Type) where
  | move (move : Move ι)
  | trouble (failure : StagedFailure)

/-- Lets things happen to a crew. -/
def live (c : Crew ι α) : List (Happening ι) → List (Moment ι) × Crew ι α
  | [] => ([], c)
  | .trouble failure :: rest => { c with deployment := c.deployment.stage failure }.live rest
  | .move move :: rest =>
    let (moments, next) := c.run [move]
    let (later, last) := next.live rest
    (moments ++ later, last)

/-- What is kept of the crew and of all moments so far, when the clocks are moved, when a failure is
staged and in every turn, is kept whatever happens. -/
theorem live_follows {inv : List (Moment ι) → Crew ι α → Prop} (happenings : List (Happening ι))
    (hClock : ∀ {trace : List (Moment ι)} {c : Crew ι α} (micros : Int),
      .move (.clock micros) ∈ happenings → inv trace c →
        inv trace { c with deployment := c.deployment.advance micros })
    (hTrouble : ∀ {trace : List (Moment ι)} {c : Crew ι α} (failure : StagedFailure),
      inv trace c → inv trace { c with deployment := c.deployment.stage failure })
    (hTurn : ∀ {trace : List (Moment ι)} {c : Crew ι α} {i : ι} {q : Request}
      {next : Except Failure q.Reply → Program α}, (c.task i).program = .ask q next →
      inv trace c → inv (trace ++ [c.moment i q]) (c.afterRequest i q next))
    {trace : List (Moment ι)} (h : inv trace c) :
    inv (trace ++ (c.live happenings).1) (c.live happenings).2 := by
  induction happenings generalizing c trace with
  | nil =>
      rw [live, List.append_nil]
      exact h
  | cons happening rest ih =>
      replace ih {c : Crew ι α} {trace : List (Moment ι)} :=
        @ih c (fun micros hMem => hClock micros (.tail _ hMem)) trace
      cases happening with
      | trouble failure => exact ih (hTrouble failure h)
      | move move =>
          have hMove := run_follows [move] (fun micros hMem => hClock micros <| by
            obtain rfl := List.mem_singleton.mp hMem
            exact .head _) hTurn h
          have hRest := ih hMove
          rwa [List.append_assoc] at hRest

section Conduct

variable {σ : Type} {k : ι → Conduct σ} {s : ι → σ} {post : ι → Except Failure α → σ → Prop}

/-- What is noted of the tasks after a request of one of them. -/
def noted (c : Crew ι α) (k : ι → Conduct σ) (s : ι → σ) (i : ι) (q : Request) : ι → σ :=
  fun j => if j = i then (k j).note (s j) (c.found i) q ((c.found i).perform q).1 else s j

theorem noted_self : c.noted k s i q i =
    (k i).note (s i) (c.found i) q ((c.found i).perform q).1 := by
  simp [noted]

theorem noted_other (h : j ≠ i) : c.noted k s i q j = s j := by
  simp [noted, h]

omit [DecidableEq ι] in
/-- Whoever has the turn asks what its conduct allows. -/
theorem allows_of_keeps (hKeeps : ∀ j, (k j).Keeps (post j) (s j) (c.task j).program)
    (hProgram : (c.task i).program = .ask q next) : (k i).allows (s i) q := by
  have hSelf := hKeeps i
  rw [hProgram] at hSelf
  exact hSelf.1

/-- After a turn every task keeps to its conduct. -/
theorem keeps_afterRequest (hKeeps : ∀ j, (k j).Keeps (post j) (s j) (c.task j).program)
    (hProgram : (c.task i).program = .ask q next) (j : ι) :
    (k j).Keeps (post j) (c.noted k s i q j) ((c.afterRequest i q next).task j).program := by
  by_cases hj : j = i
  · subst hj
    have hSelf := hKeeps j
    rw [hProgram] at hSelf
    rw [noted_self, afterRequest_self]
    exact hSelf.2 _ _
  · rw [noted_other hj, afterRequest_other hj]
    exact hKeeps j

end Conduct

end Triage.Crew
