import Mathlib.Logic.Function.Iterate
import Triage.Proofs.Message.Weight

/-!
# When normalisation settles

Normalising a message is running `maxRounds` rounds (`normalize_eq`).  Rounds never lead back to an
earlier text (`iterate_normalizeRound_eq_self`), so normalising a normalised message changes nothing
exactly when one more round would change nothing (`normalize_idempotent_iff`).  The limit is
reached: each round takes only one slash off each end of a path that stands between many.
-/

namespace Triage.Message

/-- A settled text stays as it is in all further rounds, so giving up early makes no difference. -/
theorem settle_eq (n : Nat) (text : List Char) : settle n text = normalizeRound^[n] text := by
  induction n generalizing text with
  | zero => rfl
  | succ n ih =>
      unfold settle
      dsimp only
      split
      next hFixed => rw [Function.iterate_fixed hFixed]
      next => rw [ih, Function.iterate_succ_apply]

/-- The normal form of a message is what `maxRounds` rounds make of it. -/
theorem normalize_eq (message : String) :
    normalize message = String.ofList (normalizeRound^[maxRounds] message.toList) := by
  unfold normalize
  split
  next hEmpty =>
    obtain rfl := String.isEmpty_iff.mp hEmpty
    have hNothing : normalizeRound "".toList = "".toList := by decide +kernel
    rw [Function.iterate_fixed hNothing]
    rfl
  next => rw [settle_eq, ← Function.iterate_succ_apply, maxRounds]

theorem iterate_noHeavier (n : Nat) (message : List Char) :
    NoHeavier (normalizeRound^[n] message) message := by
  induction n with
  | zero => exact .inl rfl
  | succ n ih =>
      rw [Function.iterate_succ_apply']
      exact (normalizeRound_noHeavier _).trans ih

/-- Rounds lead back to a text only if they leave it as it is. -/
theorem iterate_normalizeRound_eq_self {n : Nat} {message : List Char} :
    normalizeRound^[n + 1] message = message ↔ normalizeRound message = message := by
  refine ⟨fun hBack => ?_, fun hFixed => Function.iterate_fixed hFixed _⟩
  rcases normalizeRound_noHeavier message with hFixed | hLighter
  · exact hFixed
  · -- What is lighter after one round is lighter still after all of them.
    have hLess := (iterate_noHeavier n (normalizeRound message)).trans_lighter hLighter
    rw [← Function.iterate_succ_apply, hBack] at hLess
    exact absurd hLess.weight (lt_irrefl _)

/-- Normalising a normal form changes nothing exactly when the message has settled within
`maxRounds` rounds. -/
theorem normalize_idempotent_iff (message : String) :
    normalize (normalize message) = normalize message ↔
      normalizeRound^[maxRounds + 1] message.toList = normalizeRound^[maxRounds] message.toList := by
  rw [normalize_eq (normalize message), normalize_eq message, String.toList_ofList,
    String.ofList_inj, Function.iterate_succ_apply']
  exact iterate_normalizeRound_eq_self

/-- A path between many slashes has not settled when the rounds are over. -/
theorem slashes_outlast_rounds :
    let message := "/////////////////a/b/////////////////"
    normalize message = "/<path>/" ∧ normalize (normalize message) = "<path>" := by
  have hOnce : normalize "/////////////////a/b/////////////////" = "/<path>/" := by decide +kernel
  have hAgain : normalize "/<path>/" = "<path>" := by decide +kernel
  exact ⟨hOnce, by rw [hOnce, hAgain]⟩

end Triage.Message
