import Mathlib.Data.List.Basic
import Triage.Pattern.Basic

/-!
# Where matches stop

Equations for the list of the spots at which a match can stop (`Pattern.ends`).  A run reads one
character and goes on, and stopping here comes last (`ends_run`).  A repetition is a step that makes
progress with a repetition after it, and then nothing at all (`ends_many`): the fuel of the search
never runs out, because every step makes the text shorter.
-/

namespace Triage

/-- The spot behind the next character, if there is one and it is in a class. -/
def Spot.read (accepts : Char → Bool) (s : Spot) : Option Spot :=
  match s.rest with
  | [] => none
  | c :: tail => if accepts c then some ⟨some c, tail⟩ else none

theorem Spot.read_eq_some {accepts : Char → Bool} {s t : Spot} :
    s.read accepts = some t ↔ ∃ c, s.rest = c :: t.rest ∧ t.before = some c ∧ accepts c = true := by
  obtain ⟨before, rest⟩ := t
  unfold Spot.read
  split
  next hNil => simp [hNil]
  next c tail hRest =>
    rw [hRest]
    split
    next hAccepts =>
      constructor
      · intro h
        cases h
        exact ⟨c, rfl, rfl, hAccepts⟩
      · rintro ⟨d, hCons, rfl, -⟩
        cases hCons
        rfl
    next hRejects =>
      constructor
      · intro h
        cases h
      · rintro ⟨d, hCons, -, hAccepts⟩
        cases hCons
        exact absurd hAccepts hRejects

namespace Pattern

/-- What has been found before is kept behind. -/
theorem runEnds_found (accepts : Char → Bool) (least : Nat) (most : Option Nat)
    (before : Option Char) (rest : List Char) (found : List Spot) :
    Spot.runEnds accepts least most before rest found =
      Spot.runEnds accepts least most before rest [] ++ found := by
  induction rest generalizing least most before found with
  | nil =>
      unfold Spot.runEnds
      split <;> rfl
  | cons c tail ih =>
      have hHere : ∀ found : List Spot,
          (if least = 0 then ⟨before, c :: tail⟩ :: found else found) =
            (if least = 0 then [⟨before, c :: tail⟩] else []) ++ found := by
        intro found
        split <;> rfl
      unfold Spot.runEnds
      dsimp only
      split
      · exact hHere found
      · split
        · rw [ih, hHere, ih (least - 1) _ (some c) (if least = 0 then _ else _), List.append_assoc]
        · exact hHere found
      · split
        · rw [ih, hHere, ih (least - 1) _ (some c) (if least = 0 then _ else _), List.append_assoc]
        · exact hHere found

/-- A run reads one character more and goes on; stopping comes last. -/
theorem ends_run (accepts : Char → Bool) (least : Nat) (most : Option Nat) (s : Spot) :
    (run accepts least most).ends s =
      (if most = some 0 then [] else
        (s.read accepts).elim [] (run accepts (least - 1) (most.map (· - 1))).ends) ++
      (if least = 0 then [s] else []) := by
  obtain ⟨before, rest⟩ := s
  cases rest with
  | nil =>
      simp only [ends, Spot.read, Option.elim_none, ite_self, List.nil_append]
      unfold Spot.runEnds
      rfl
  | cons c tail =>
      simp only [ends, Spot.read]
      rw [Spot.runEnds.eq_def]
      dsimp only
      rcases most with _ | _ | k
      · simp only [reduceCtorEq, if_false, Option.map_none]
        split
        · rw [runEnds_found]
          rfl
        · rfl
      · rfl
      · simp only [Option.some.injEq, Nat.add_eq_zero_iff, Nat.one_ne_zero, and_false, if_false,
          Option.map_some, Nat.add_sub_cancel]
        split
        · rw [runEnds_found]
          rfl
        · rfl

/-- As long as the fuel covers the text, there is no difference in having more of it. -/
theorem repeatEnds_fuel (step : Spot → List Spot) {n m : Nat} {s : Spot} (hn : s.rest.length ≤ n)
    (hm : s.rest.length ≤ m) : repeatEnds step n s = repeatEnds step m s := by
  have hStuck : ∀ {s : Spot}, s.rest.length = 0 →
      (step s).filter (fun t => t.rest.length < s.rest.length) = [] := by
    intro s hEmpty
    simp [hEmpty]
  induction n generalizing m s with
  | zero =>
      have hEmpty : s.rest.length = 0 := by omega
      cases m with
      | zero => rfl
      | succ m => simp [repeatEnds, hStuck hEmpty]
  | succ n ih =>
      cases m with
      | zero =>
          have hEmpty : s.rest.length = 0 := by omega
          simp [repeatEnds, hStuck hEmpty]
      | succ m =>
          unfold repeatEnds
          congr 1
          refine List.flatMap_congr fun t ht => ?_
          have hShorter : t.rest.length < s.rest.length := by simpa using (List.mem_filter.mp ht).2
          exact ih (by omega) (by omega)

/-- A repetition takes a step that makes progress and goes on; stopping comes last. -/
theorem ends_many (body : Pattern) (s : Spot) :
    body.many.ends s =
      ((body.ends s).filter fun t => t.rest.length < s.rest.length).flatMap body.many.ends ++
        [s] := by
  have hFuel : body.many.ends s = repeatEnds body.ends (s.rest.length + 1) s :=
    repeatEnds_fuel body.ends (Nat.le_refl _) (Nat.le_succ _)
  rw [hFuel, repeatEnds]
  congr 1
  refine List.flatMap_congr fun t ht => ?_
  have hShorter : t.rest.length < s.rest.length := by simpa using (List.mem_filter.mp ht).2
  exact repeatEnds_fuel body.ends (by omega) (Nat.le_refl _)

end Pattern
end Triage
