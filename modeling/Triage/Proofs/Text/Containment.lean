import Mathlib.Data.List.Infix
import Triage.Text.Search

/-!
# Text that occurs in text

A text occurs in another if it is a contiguous piece of it up to the case of ASCII letters
(`OccursIn`).
-/

namespace Triage.Text

theorem contains_iff {part whole : List Char} : contains part whole = true ↔ part <:+: whole := by
  induction whole with
  | nil => simp [contains, List.infix_nil]
  | cons c rest ih =>
      rw [contains, Bool.or_eq_true, ih, List.isPrefixOf_iff_prefix, List.infix_cons_iff]

/-- A text occurs in another, where the case of ASCII letters makes no difference. -/
def OccursIn (part whole : String) : Prop :=
  part.toList.map foldAscii <:+: whole.toList.map foldAscii

instance (part whole : String) : Decidable (OccursIn part whole) :=
  decidable_of_iff _ contains_iff

end Triage.Text
