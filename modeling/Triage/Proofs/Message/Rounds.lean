import Mathlib.Data.Nat.Find
import Mathlib.Dynamics.FixedPoints.Basic
import Triage.Proofs.Message.Settling

/-!
# Every message settles

A step of a round makes a message lighter, but it may make it longer, since a placeholder can be
longer than what it stands for.  What a step can bring in is bounded, though: a placeholder has at
most twelve characters and at most three hexadecimal digits (`placeholders_small`).  So there is a
number that becomes smaller in every step (`Rewrite.energy_lt`) and that is at most 67 for each
character (`energy_le`).  A message settles within that many rounds, and the limit on the rounds is
the only reason why a normal form may not be settled (`rounds_settle`).

The bound is not sharp: it counts steps, and most rounds have many of them.
-/

namespace Triage.Message

open Function (IsFixedPt)

theorem placeholders_small :
    ∀ rule ∈ rules, hexDigits rule.placeholder.toList ≤ 3 ∧ slack rule.placeholder.toList ≤ 12 := by
  decide

theorem slack_append (u v : List Char) : slack (u ++ v) = slack u + slack v := by
  simp only [slack, List.length_append, List.countP_append]
  omega

/-- A step brings in little more than it takes away. -/
theorem Rewrite.growth {u v : List Char} (h : Rewrite u v) :
    hexDigits v ≤ hexDigits u + 3 ∧ slack v ≤ slack u + 12 := by
  induction h with
  | @replace rule piece mem reads rest =>
      obtain ⟨hHex, hSlack⟩ := placeholders_small rule mem
      simp only [hexDigits_append, slack_append]
      omega
  | drop blank rest =>
      simp only [hexDigits_cons, slack_cons]
      omega
  | space blank odd rest =>
      have hSpace : Text.isHexDigit ' ' = false ∧ isOddBlank ' ' = false := by decide
      simp only [hexDigits_cons, slack_cons, hSpace, Bool.false_eq_true, if_false]
      omega
  | cons c _ ih =>
      simp only [hexDigits_cons, slack_cons]
      omega

/-- A mark or an open key is worth more than all that a step can bring in, and so is a hexadecimal
digit next to what is slack. -/
def energy (text : List Char) : Nat :=
  52 * (marks text + openKeys text) + 13 * hexDigits text + slack text

theorem Rewrite.energy_lt {u v : List Char} (h : Rewrite u v) : energy v < energy u := by
  obtain ⟨hHex, hSlack⟩ := h.growth
  have hWeight := weight_lt_iff.mp h.lighter.weight
  -- The weight has the same three parts in the same order, and 13 * 3 + 12 < 52 and 12 < 13.
  unfold energy
  omega

theorem Rewrites.energy_lt {u v : List Char} (h : Rewrites u v) : v = u ∨ energy v < energy u := by
  induction h with
  | refl => exact .inl rfl
  | tail _ hStep ih =>
      have hLast := hStep.energy_lt
      rcases ih with rfl | hBefore
      · exact .inr hLast
      · exact .inr (hLast.trans hBefore)

/-- An equals sign is not a mark, so no character counts as both. -/
theorem marks_add_openKeys_le (text : List Char) : marks text + openKeys text ≤ text.length := by
  induction text with
  | nil => exact Nat.le_refl _
  | cons c rest ih =>
      have hOne : (if isMark c then 1 else 0) +
          (if c = '=' ∧ rest.head? ≠ some '<' then 1 else 0) ≤ 1 := by
        split
        next hMark =>
          rw [if_neg]
          rintro ⟨rfl, -⟩
          exact absurd hMark (by decide)
        next => split <;> omega
      rw [marks_cons, openKeys, List.length_cons]
      omega

theorem energy_le (text : List Char) : energy text ≤ 67 * text.length := by
  have hMarks := marks_add_openKeys_le text
  have hHex : hexDigits text ≤ text.length := List.countP_le_length
  have hOdd : text.countP isOddBlank ≤ text.length := List.countP_le_length
  unfold energy slack
  omega

/-- As long as the text changes, every round takes energy. -/
theorem energy_add_le {message : List Char} {n : Nat}
    (h : ∀ i < n, ¬IsFixedPt normalizeRound (normalizeRound^[i] message)) :
    energy (normalizeRound^[n] message) + n ≤ energy message := by
  induction n with
  | zero => exact Nat.le_refl _
  | succ n ih =>
      have hBefore := ih fun i hi => h i (Nat.lt_succ_of_lt hi)
      rcases (normalizeRound_rewrites (normalizeRound^[n] message)).energy_lt with hSame | hLess
      · exact absurd hSame (h n (Nat.lt_succ_self n))
      · rw [Function.iterate_succ_apply']
        omega

/-- There is a first round after which the text stays as it is. -/
theorem exists_settled (message : List Char) :
    ∃ k ≤ energy message,
      ∀ n, IsFixedPt normalizeRound (normalizeRound^[n] message) ↔ k ≤ n := by
  have hSome : ∃ n, IsFixedPt normalizeRound (normalizeRound^[n] message) := by
    by_contra hNever
    have hTaken := @energy_add_le message (energy message + 1) fun i _ hi => hNever ⟨i, hi⟩
    omega
  refine ⟨Nat.find hSome, ?_, fun n => ⟨Nat.find_min' hSome, fun hn => ?_⟩⟩
  · have hTaken := energy_add_le fun i hi => Nat.find_min hSome hi
    omega
  · obtain ⟨later, rfl⟩ := Nat.exists_eq_add_of_le hn
    have hFirst := Nat.find_spec hSome
    rw [Nat.add_comm, Function.iterate_add_apply, hFirst.iterate later]
    exact hFirst

/-- For every message there is a number of rounds, at most 67 for each of its characters, up to
which every round changes the text and from which on none does.  However many rounds are allowed,
the text that comes out is settled exactly when they are at least that many. -/
theorem rounds_settle (message : String) :
    ∃ k ≤ 67 * message.length,
      (∀ n, IsFixedPt normalizeRound (normalizeRound^[n] message.toList) ↔ k ≤ n) ∧
      (∀ limit, IsFixedPt normalizeRound (settle limit (normalizeRound message.toList)) ↔
        k ≤ limit + 1) ∧
      (IsFixedPt normalizeRound (normalize message).toList ↔ k ≤ maxRounds) := by
  obtain ⟨k, hk, hSettled⟩ := exists_settled message.toList
  have hBound := energy_le message.toList
  rw [String.length_toList] at hBound
  refine ⟨k, hk.trans hBound, hSettled, fun limit => ?_, ?_⟩
  · rw [settle_eq, ← Function.iterate_succ_apply, hSettled]
  · rw [normalize_eq, String.toList_ofList, hSettled]

end Triage.Message
