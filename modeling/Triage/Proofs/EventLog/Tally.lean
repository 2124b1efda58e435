import Mathlib.Algebra.BigOperators.Group.List.Lemmas
import Mathlib.Algebra.GroupWithZero.Nat
import Triage.Proofs.EventLog.Metrics
import Triage.Proofs.Ranking

/-!
# Counting by keys

The counts of a tally add up to the keys that were counted (`sum_tally_filter`).  Texts and tags are
ranked, and so are counted keys: by their counts, and those with equal counts by the keys
(`Ranks.countBefore`).  So a sorted tally does not depend on the order of the keys
(`mergeSort_tally_eq_of_perm`).
-/

namespace Triage

theorem EventLog.ranks_textBefore : Ranks textBefore where
  trans a b c hab hbc :=
    decide_eq_true (String.le_trans (of_decide_eq_true hab) (of_decide_eq_true hbc))
  total a b := by
    rw [Bool.or_eq_true, textBefore, textBefore, decide_eq_true_eq, decide_eq_true_eq]
    exact String.le_total a b
  antisymm a b hab hba := String.le_antisymm (of_decide_eq_true hab) (of_decide_eq_true hba)

theorem EventLog.lt_iff_textBefore {a b : String} : a < b ↔ a ≠ b ∧ textBefore a b = true := by
  rw [textBefore, decide_eq_true_eq]
  refine ⟨fun h => ⟨?_, ?_⟩, fun h => ?_⟩
  · rintro rfl
    exact String.lt_irrefl _ h
  · exact String.not_lt.mp fun h' => String.lt_irrefl _ (String.lt_trans h h')
  · exact String.not_le.mp fun h' => h.1 (String.le_antisymm h.2 h')

theorem EventLog.ranks_tagBefore : Ranks tagBefore := by
  refine ranks_textBefore.lex ranks_textBefore Tag.key Tag.value ?_ fun a b => ?_
  · rintro ⟨key, value⟩ ⟨_, _⟩ rfl rfl
    rfl
  · simp only [tagBefore, Bool.or_eq_true, Bool.and_eq_true, decide_eq_true_eq, beq_iff_eq, ne_eq,
      lt_iff_textBefore]

/-- The order of counted keys: the largest counts first, and then by the keys. -/
def EventLog.countBefore (before : κ → κ → Bool) (a b : κ × Nat) : Bool :=
  decide (b.2 < a.2) || (a.2 == b.2 && before a.1 b.1)

/-- Where keys are ranked, counted keys are. -/
theorem Ranks.countBefore {before : κ → κ → Bool} (h : Ranks before) :
    Ranks (EventLog.countBefore before) := by
  refine ranks_le.flip.lex h Prod.snd Prod.fst ?_ fun a b => ?_
  · rintro ⟨key, count⟩ ⟨_, _⟩ rfl rfl
    rfl
  · have hLt : b.2 < a.2 ↔ a.2 ≠ b.2 ∧ b.2 ≤ a.2 := by omega
    simp [EventLog.countBefore, hLt]

/-- The order of hours of projects: by hour, then by project. -/
def EventLog.hourBefore (a b : Instant × Int) : Bool :=
  decide (a.1 < b.1) || (decide (a.1 = b.1) && decide (a.2 ≤ b.2))

theorem EventLog.ranks_hourBefore : Ranks hourBefore := by
  refine ranks_instant.lex ranks_le Prod.fst Prod.snd ?_ fun a b => ?_
  · rintro ⟨hour, projectId⟩ ⟨_, _⟩ rfl rfl
    rfl
  · simp [hourBefore, Instant.lt_iff_ne_and_le]

/-- Sorting a tally by its keys is counting the sorted keys. -/
theorem mergeSort_tally [BEq κ] (before : κ → κ → Bool) (keys : List κ) :
    (tally keys).mergeSort (fun a b => before a.1 b.1) =
      (keys.eraseDups.mergeSort before).map fun key => (key, keys.count key) := by
  rw [tally, List.map_mergeSort (r := before) (s := fun a b => before a.1 b.1)]
  exact fun _ _ _ _ => rfl

section

variable [BEq κ] [LawfulBEq κ] {keys keys' : List κ}

theorem mem_tally {row : κ × Nat} :
    row ∈ tally keys ↔ row.1 ∈ keys ∧ row.2 = keys.count row.1 := by
  rw [tally, List.mem_map]
  constructor
  · rintro ⟨key, hKey, rfl⟩
    exact ⟨List.mem_eraseDups.mp hKey, rfl⟩
  · rintro ⟨hKey, hCount⟩
    exact ⟨row.1, List.mem_eraseDups.mpr hKey, Prod.ext rfl hCount.symm⟩

theorem nodup_tally (keys : List κ) : (tally keys).Nodup :=
  (nodup_eraseDups keys).map fun _ _ h => congrArg Prod.fst h

theorem eraseDups_perm (h : keys.Perm keys') : keys.eraseDups.Perm keys'.eraseDups := by
  rw [List.perm_ext_iff_of_nodup (nodup_eraseDups keys) (nodup_eraseDups keys')]
  intro key
  rw [List.mem_eraseDups, List.mem_eraseDups]
  exact h.mem_iff

/-- A tally counts the same keys, whatever their order. -/
theorem tally_perm (h : keys.Perm keys') : (tally keys).Perm (tally keys') := by
  have hCount : (fun key => (key, keys.count key)) = fun key => (key, keys'.count key) :=
    funext fun key => by rw [h.count_eq key]
  rw [tally, tally, hCount]
  exact (eraseDups_perm h).map _

/-- The counts of the keys of some kind add up to the keys of this kind that were counted. -/
theorem sum_tally_filter (p : κ → Bool) (keys : List κ) :
    (((tally keys).filter fun row => p row.1).map Prod.snd).sum = keys.countP p := by
  classical
  obtain rfl := lawful_beq_subsingleton ‹BEq κ› instBEqOfDecidableEq
  have hDistinct : keys.eraseDups.Perm keys.dedup := by
    rw [List.perm_ext_iff_of_nodup (nodup_eraseDups keys) (List.nodup_dedup keys)]
    intro key
    rw [List.mem_eraseDups, List.mem_dedup]
  rw [← List.sum_map_count_dedup_filter_eq_countP p keys, tally, List.filter_map, List.map_map]
  exact ((hDistinct.filter p).map _).sum_eq

/-- A tally sorted by a ranking of its keys does not depend on the order of the keys. -/
theorem mergeSort_tally_eq_of_perm {before : κ → κ → Bool} (hRanks : Ranks before)
    (h : keys.Perm keys') :
    (tally keys).mergeSort (fun a b => before a.1 b.1) =
      (tally keys').mergeSort (fun a b => before a.1 b.1) := by
  rw [mergeSort_tally, mergeSort_tally, hRanks.mergeSort_eq_of_perm (eraseDups_perm h)]
  exact List.map_congr_left fun key _ => by rw [h.count_eq key]

/-- Counted keys are ranked alike however the keys come. -/
theorem mostFrequent_tally_eq_of_perm {before : κ → κ → Bool} (hRanks : Ranks before)
    (h : keys.Perm keys') :
    EventLog.mostFrequent before (tally keys) = EventLog.mostFrequent before (tally keys') :=
  hRanks.countBefore.mergeSort_eq_of_perm (tally_perm h)

end

namespace EventLog

theorem perDay_eq (log : EventLog) (c : IssueCriteria) :
    log.perDay c =
      ((tally ((log.ofIssue c).map fun e => e.createdAt.startOfDay)).mergeSort
        fun a b => decide (b.1 ≤ a.1)).map fun row => ⟨row.1, c.groupId, row.2⟩ := rfl

theorem perHour_eq (log : EventLog) (c : ProjectsCriteria) :
    log.perHour c =
      (((tally ((log.ofProjects c Window.opens).map fun e =>
        (e.createdAt.startOfHour, e.record.projectId))).mergeSort
          fun a b => hourBefore a.1 b.1).take maxHourRows).map
            fun row => ⟨row.1.1, row.1.2, row.2⟩ := rfl

end EventLog
end Triage
