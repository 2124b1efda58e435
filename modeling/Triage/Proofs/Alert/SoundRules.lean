import Triage.Alert.Management
import Triage.Proofs.Deployment.Conduct
import Triage.Proofs.Text.Stripping

/-!
# Sound rules

What it takes for the rule of an alert to be sound, and that checking it finds exactly this
(`Rule.flaw?_eq_none`).  A new rule is checked as it is given, and its name is stripped afterwards;
in an edit the name is stripped first.  Either way the rule that is stored is sound
(`NewRule.sound`, `RuleEdit.sound`), because stripping leaves no blank at an end and makes no name
longer.
-/

namespace Triage

namespace Rule

theorem strippedName_toList (name : String) : (strippedName name).toList = Text.strip name.toList :=
  String.toList_ofList

theorem strippedName_bare (name : String) : Text.Bare (strippedName name).toList := by
  rw [strippedName_toList]
  exact Text.bare_strip _

theorem length_strippedName_le (name : String) : (strippedName name).length ≤ name.length := by
  rw [← String.length_toList, ← String.length_toList, strippedName_toList]
  exact Text.length_strip_le _

theorem strippedName_empty : strippedName "" = "" := rfl

/-- The checks of a rule, in their order. -/
theorem flaw?_eq_none {name : String} {threshold condition timeframe : Int} :
    flaw? name threshold condition timeframe = none ↔
      strippedName name ≠ "" ∧ name.length ≤ maxNameLength ∧ 1 ≤ threshold ∧
        (Condition.ofCode? condition).isSome = true ∧ (Timeframe.ofCode? timeframe).isSome = true := by
  have hCheck : ∀ {bad : Prop} [Decidable bad] {flaw : Flaw} {rest : Option Flaw},
      (if bad then some flaw else rest) = none ↔ ¬bad ∧ rest = none := by
    intro bad _ flaw rest
    split <;> simp [*]
  simp only [flaw?, hCheck, String.isEmpty_iff, Nat.not_lt, Int.not_lt, Option.isNone_iff_eq_none,
    ← Option.isSome_iff_ne_none, and_true, ne_eq]

end Rule

/-- An alert with a sound rule: its name says something, is not too long and has no blanks around
it, its threshold is positive, its codes are known, and it is described by its own fields. -/
structure Alert.SoundRule (a : Alert) : Prop where
  named : a.ruleName ≠ ""
  short : a.ruleName.length ≤ Rule.maxNameLength
  bare : Text.Bare a.ruleName.toList
  positive : 1 ≤ a.threshold
  condition : (Condition.ofCode? a.condition).isSome = true
  timeframe : (Timeframe.ofCode? a.timeframe).isSome = true
  described : ∃ text, Rule.describe a.threshold a.condition a.timeframe = .ok text ∧
    a.description = some text

namespace Alerts

/-- A new rule that has passed its check is sound once its name is stripped. -/
theorem NewRule.sound {rule : NewRule} {text : String}
    (hChecked : Rule.flaw? rule.name rule.threshold rule.condition rule.timeframe = none)
    (hText : Rule.describe rule.threshold rule.condition rule.timeframe = .ok text) {a : Alert}
    (hName : a.ruleName = Rule.strippedName rule.name) (hThreshold : a.threshold = rule.threshold)
    (hCondition : a.condition = rule.condition) (hTimeframe : a.timeframe = rule.timeframe)
    (hDescription : a.description = some text) : a.SoundRule := by
  obtain ⟨hNamed, hShort, hPositive, hKnown, hKnown'⟩ := Rule.flaw?_eq_none.mp hChecked
  constructor
  · rwa [hName]
  · rw [hName]
    exact (Rule.length_strippedName_le _).trans hShort
  · rw [hName]
    exact Rule.strippedName_bare _
  · rwa [hThreshold]
  · rwa [hCondition]
  · rwa [hTimeframe]
  · rw [hThreshold, hCondition, hTimeframe]
    exact ⟨text, hText, hDescription⟩

/-- An edit of an alert with a sound rule leaves a sound rule, if it passes the check. -/
theorem RuleEdit.sound (edit : RuleEdit) (a : Alert) (hSound : a.SoundRule) (text : String)
    (time : Instant)
    (hChecked : Rule.flaw? (edit.applyTo a).ruleName (edit.applyTo a).threshold
      (edit.applyTo a).condition (edit.applyTo a).timeframe = none)
    (hText : Rule.describe (edit.applyTo a).threshold (edit.applyTo a).condition
      (edit.applyTo a).timeframe = .ok text) :
    Alert.SoundRule { edit.applyTo a with description := some text, updatedAt := time } := by
  obtain ⟨hNamed, hShort, hPositive, hKnown, hKnown'⟩ := Rule.flaw?_eq_none.mp hChecked
  have hNonempty : (edit.applyTo a).ruleName ≠ "" := by
    intro hEmpty
    rw [hEmpty] at hNamed
    exact hNamed Rule.strippedName_empty
  have hBare : Text.Bare (edit.applyTo a).ruleName.toList := by
    unfold applyTo
    cases edit.name with
    | none => exact hSound.bare
    | some name => exact Rule.strippedName_bare name
  exact ⟨hNonempty, hShort, hBare, hPositive, hKnown, hKnown', text, hText, rfl⟩

end Alerts
end Triage
