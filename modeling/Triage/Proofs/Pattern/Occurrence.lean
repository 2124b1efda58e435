import Triage.Proofs.Pattern.Reading

/-!
# Occurrences and replacement

A pattern occurs in a text if it has a match at some spot of it (`OccursIn`).  A pattern that never
reads the empty text is replaced at its first occurrence, and from there on again
(`Consumes.replaceAll_first`); where it does not occur nothing changes (`replaceAll_eq_self`).  A
piece in which no match begins is copied (`replaceFrom_spare`), and a text that is read as a whole,
and of which no shorter beginning is read, becomes the replacement (`Consumes.replaceAll_whole`).
-/

namespace Triage.Pattern

variable {p : Pattern} {replacement : List Char}

/-- Somewhere in the text the pattern has a match. -/
def OccursIn (p : Pattern) (text : List Char) : Prop :=
  ∃ front rest t, text = front ++ rest ∧ p.Leads ⟨front.getLast?, rest⟩ t

theorem stop?_eq_none_iff {s : Spot} : p.stop? s = none ↔ ∀ t, ¬p.Leads s t := by
  rw [stop?, List.head?_eq_none_iff, List.eq_nil_iff_forall_not_mem]
  simp only [mem_ends]

theorem leads_of_stop? {s t : Spot} (h : p.stop? s = some t) : p.Leads s t :=
  mem_ends.mp (List.mem_of_mem_head? h)

/-- The pattern never reads the empty text. -/
def Consumes (p : Pattern) : Prop := ¬p.Reads []

theorem Consumes.shorter (hp : p.Consumes) {s t : Spot} (h : p.Leads s t) :
    t.rest.length < s.rest.length := by
  obtain ⟨m, hReach, hReads⟩ := reads_of_leads h
  cases m with
  | nil => exact absurd hReads hp
  | cons c m =>
      rw [hReach.rest, List.length_append, List.length_cons]
      omega

theorem replaceFrom_nil (before : Option Char) : p.replaceFrom replacement ⟨before, []⟩ = [] := by
  rw [replaceFrom]

/-- Without a match a character is copied. -/
theorem replaceFrom_cons {before : Option Char} {c : Char} {tail : List Char}
    (h : p.stop? ⟨before, c :: tail⟩ = none) :
    p.replaceFrom replacement ⟨before, c :: tail⟩ =
      c :: p.replaceFrom replacement ⟨some c, tail⟩ := by
  rw [replaceFrom]
  split
  next hNil => cases hNil
  next d rest hCons =>
    obtain ⟨rfl, rfl⟩ := List.cons.inj hCons
    rw [h]

/-- A match gives way to the replacement. -/
theorem Consumes.replaceFrom_stop (hp : p.Consumes) {s t : Spot} (h : p.stop? s = some t) :
    p.replaceFrom replacement s = replacement ++ p.replaceFrom replacement t := by
  have hShorter := hp.shorter (leads_of_stop? h)
  rw [replaceFrom]
  split
  next hNil => rw [hNil] at hShorter; exact absurd hShorter (Nat.not_lt_zero _)
  next => rw [h]; exact if_pos hShorter

/-- A piece in which no match begins is copied. -/
theorem replaceFrom_spare {piece rest : List Char} {before : Option Char}
    (h : ∀ a k, piece = a ++ k → k ≠ [] → p.stop? ⟨a.getLast?.or before, k ++ rest⟩ = none) :
    p.replaceFrom replacement ⟨before, piece ++ rest⟩ =
      piece ++ p.replaceFrom replacement ⟨piece.getLast?.or before, rest⟩ := by
  induction piece generalizing before with
  | nil => rfl
  | cons c piece ih =>
      have hHere : p.stop? ⟨before, c :: (piece ++ rest)⟩ = none :=
        h [] (c :: piece) rfl (List.cons_ne_nil c piece)
      rw [List.cons_append, replaceFrom_cons hHere, List.cons_append, getLast?_cons_or]
      congr 1
      refine ih fun a k hk hNonempty => ?_
      rw [← getLast?_cons_or]
      exact h (c :: a) k (by rw [hk, List.cons_append]) hNonempty

/-- Where a pattern does not occur nothing changes. -/
theorem replaceAll_eq_self {text : List Char} (h : ¬p.OccursIn text) :
    p.replaceAll replacement text = text := by
  have hSpare : ∀ a k, text = a ++ k → k ≠ [] →
      p.stop? ⟨a.getLast?.or none, k ++ []⟩ = none := by
    intro a k hk _
    exact stop?_eq_none_iff.mpr fun t ht => h ⟨a, k, t, hk, by simpa using ht⟩
  have hCopied := @replaceFrom_spare p replacement text [] none hSpare
  simpa [replaceAll, replaceFrom_nil] using hCopied

theorem Consumes.replaceFrom_first (hp : p.Consumes) {before : Option Char} {text : List Char}
    (h : ∃ front rest t, text = front ++ rest ∧ p.Leads ⟨front.getLast?.or before, rest⟩ t) :
    ∃ front m t, text = front ++ (m ++ t.rest) ∧ p.Reads m ∧
      p.replaceFrom replacement ⟨before, text⟩ =
        front ++ (replacement ++ p.replaceFrom replacement t) := by
  induction text generalizing before with
  | nil =>
      obtain ⟨front, rest, t, hText, ht⟩ := h
      obtain ⟨rfl, rfl⟩ := List.append_eq_nil_iff.mp hText.symm
      exact absurd (hp.shorter ht) (Nat.not_lt_zero _)
  | cons c tail ih =>
      cases hStop : p.stop? ⟨before, c :: tail⟩ with
      | some t =>
          obtain ⟨m, hReach, hReads⟩ := reads_of_leads (leads_of_stop? hStop)
          exact ⟨[], m, t, hReach.rest, hReads, hp.replaceFrom_stop hStop⟩
      | none =>
          obtain ⟨front, rest, t, hText, ht⟩ := h
          cases front with
          | nil =>
              obtain rfl : c :: tail = rest := hText
              exact absurd ht (stop?_eq_none_iff.mp hStop t)
          | cons d front =>
              obtain ⟨rfl, rfl⟩ := List.cons.inj hText
              rw [getLast?_cons_or] at ht
              obtain ⟨front', m, u, hTail, hReads, hOut⟩ := ih ⟨front, rest, t, rfl, ht⟩
              refine ⟨c :: front', m, u, congrArg (c :: ·) hTail, hReads, ?_⟩
              rw [replaceFrom_cons hStop, hOut, List.cons_append]

/-- A pattern that occurs is replaced, where it occurs first. -/
theorem Consumes.replaceAll_first (hp : p.Consumes) {text : List Char} (h : p.OccursIn text) :
    ∃ front m t, text = front ++ (m ++ t.rest) ∧ p.Reads m ∧
      p.replaceAll replacement text =
        front ++ (replacement ++ p.replaceFrom replacement t) := by
  obtain ⟨front, rest, t, hText, ht⟩ := h
  exact hp.replaceFrom_first ⟨front, rest, t, hText, by simpa using ht⟩

/-- A text that is read as a whole, and no shorter beginning of it, becomes the replacement. -/
theorem Consumes.replaceAll_whole (hp : p.Consumes) {text : List Char} {t : Spot}
    (h : p.Leads ⟨none, text⟩ t) (hWhole : ∀ u, p.Leads ⟨none, text⟩ u → u.rest = []) :
    p.replaceAll replacement text = replacement := by
  cases hStop : p.stop? ⟨none, text⟩ with
  | none => exact absurd h (stop?_eq_none_iff.mp hStop t)
  | some u =>
      have hRest := hWhole u (leads_of_stop? hStop)
      obtain ⟨before, rest⟩ := u
      obtain rfl : rest = [] := hRest
      rw [replaceAll, hp.replaceFrom_stop hStop, replaceFrom_nil, List.append_nil]

end Triage.Pattern
