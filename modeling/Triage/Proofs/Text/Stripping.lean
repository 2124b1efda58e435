import Mathlib.Data.List.DropRight
import Triage.Text.Classes

/-!
# Stripping

Stripping leaves no blank at either end and makes no text longer, and it leaves alone what has no
blank there.
-/

namespace Triage.Text

/-- A text that neither begins nor ends with a blank. -/
structure Bare (text : List Char) : Prop where
  first : ∀ c ∈ text.head?, isBlank c = false
  last : ∀ c ∈ text.getLast?, isBlank c = false

theorem strip_eq (text : List Char) :
    strip text = (text.dropWhile isBlank).rdropWhile isBlank := rfl

theorem bare_strip (text : List Char) : Bare (strip text) where
  first c hc := by
    -- What is left at the end is a beginning of what is left at the start.
    have hPrefix : strip text <+: text.dropWhile isBlank := List.rdropWhile_prefix _ _
    have hHead : (text.dropWhile isBlank).head? = some c := by
      obtain ⟨rest, hRest⟩ := hPrefix
      rw [← hRest, List.head?_append, hc]
      rfl
    have hNot := List.head?_dropWhile_not isBlank text
    rw [hHead] at hNot
    simpa using hNot
  last c hc := by
    have hNe : (text.dropWhile isBlank).rdropWhile isBlank ≠ [] := by
      intro hNil
      rw [strip_eq, hNil] at hc
      cases hc
    have hLast := List.rdropWhile_last_not isBlank (text.dropWhile isBlank) hNe
    rw [strip_eq, List.getLast?_eq_some_getLast hNe] at hc
    obtain rfl := Option.some.inj hc
    simpa using hLast

theorem length_strip_le (text : List Char) : (strip text).length ≤ text.length := by
  have hPrefix : strip text <+: text.dropWhile isBlank := List.rdropWhile_prefix _ _
  exact hPrefix.length_le.trans (List.length_dropWhile_le _ _)

/-- Stripping leaves a text alone exactly when there is no blank at either end. -/
theorem strip_eq_self_iff {text : List Char} : strip text = text ↔ Bare text := by
  constructor
  · intro h
    rw [← h]
    exact bare_strip text
  · intro h
    have hFirst : text.dropWhile isBlank = text := by
      cases text with
      | nil => rfl
      | cons c rest =>
          have hc : ¬isBlank c = true := by simp [h.first c rfl]
          exact List.dropWhile_cons_of_neg hc
    rw [strip_eq, hFirst, List.rdropWhile_eq_self_iff]
    intro hNonempty
    have hLast := h.last _ (List.getLast?_eq_some_getLast hNonempty)
    simp [hLast]

end Triage.Text
