import Mathlib.Data.Finset.Card
import Triage.Alert.Worker

/-!
# Metrics against the events themselves

The query for metrics lists groups; a rule is about the events of a group.  An alert is breached by
the metrics of a query exactly if among the events that the query finds there is a group whose
events, counted one by one, are above the threshold (`isBreached_metrics`).
-/

namespace Triage

theorem nodup_eraseDups [BEq α] [LawfulBEq α] (xs : List α) : xs.eraseDups.Nodup := by
  induction hLength : xs.length using Nat.strong_induction_on generalizing xs with
  | _ n ih =>
      cases xs with
      | nil => simp
      | cons x rest =>
          rw [List.eraseDups_cons, List.nodup_cons]
          constructor
          · simp [List.mem_eraseDups]
          · refine ih _ ?_ _ rfl
            rw [← hLength, List.length_cons]
            exact Nat.lt_succ_of_le (List.length_filter_le _ _)

/-- As many entries are left without repetitions as there are distinct ones. -/
theorem length_eraseDups [DecidableEq α] (xs : List α) : xs.eraseDups.length = xs.toFinset.card := by
  rw [← List.toFinset_card_of_nodup (nodup_eraseDups xs)]
  congr 1
  ext x
  simp [List.mem_eraseDups]

/-- The events of a group. -/
def ofGroup (events : List StoredEvent) (groupId : Int) : List StoredEvent :=
  events.filter fun e => decide (e.record.groupId = groupId)

/-- The distinct users of some events, where an empty text is no user. -/
def distinctUsers (events : List StoredEvent) : Finset String :=
  (events.map fun e => e.record.user).toFinset.erase ""

namespace Alert

/-- What an alert counts of some events: their distinct users under that condition, or else the
events. -/
def measure (a : Alert) (events : List StoredEvent) : Int :=
  if Condition.ofCode? a.condition = some .users then (distinctUsers events).card
  else events.length

/-- Among some events there is a group of which an alert counts more than its threshold. -/
def BreachedBy (a : Alert) (events : List StoredEvent) : Prop :=
  ∃ e ∈ events, a.threshold < a.measure (ofGroup events e.record.groupId)

instance (a : Alert) (events : List StoredEvent) : Decidable (a.BreachedBy events) :=
  inferInstanceAs (Decidable (∃ e ∈ events,
    a.threshold < a.measure (ofGroup events e.record.groupId)))

end Alert

namespace EventLog

theorem userCount_metricsOf (groupId : Int) (first : StoredEvent) (rest : List StoredEvent) :
    (metricsOf groupId first rest).userCount = (distinctUsers (first :: rest)).card := by
  simp only [metricsOf, distinctUsers, length_eraseDups, List.toFinset_filter]
  congr 1
  ext user
  simp [and_comm]

theorem metric_metricsOf (a : Alert) (groupId : Int) (first : StoredEvent)
    (rest : List StoredEvent) :
    Rule.metric a.condition (metricsOf groupId first rest).timesSeen
      (metricsOf groupId first rest).userCount = a.measure (first :: rest) := by
  rw [userCount_metricsOf]
  rfl

/-- The events that a query for metrics finds. -/
def found (log : EventLog) (c : IssuesCriteria) : List StoredEvent :=
  log.visible.filter fun e => c.groupIds.contains e.record.groupId
    && c.window.covers e.createdAt && c.projectIds.contains e.record.projectId

theorem metrics_eq (log : EventLog) (c : IssuesCriteria) :
    log.metrics c =
      (((log.found c).map fun e => e.record.groupId).eraseDups.mergeSort
        fun a b => decide (a ≤ b)).filterMap fun groupId =>
          match ofGroup (log.found c) groupId with
          | [] => none
          | first :: rest => some (metricsOf groupId first rest) := rfl

/-- The metrics of a query are those of the groups among the events that it finds. -/
theorem mem_metrics {log : EventLog} {c : IssuesCriteria} {m : IssueMetrics} :
    m ∈ log.metrics c ↔ ∃ e ∈ log.found c, ∃ first rest,
      ofGroup (log.found c) e.record.groupId = first :: rest ∧
        m = metricsOf e.record.groupId first rest := by
  simp only [metrics_eq, List.mem_filterMap, List.mem_mergeSort, List.mem_eraseDups,
    List.mem_map]
  constructor
  · rintro ⟨_, ⟨e, he, rfl⟩, hMetrics⟩
    split at hMetrics
    · cases hMetrics
    next first rest hGroup => exact ⟨e, he, first, rest, hGroup, (Option.some.inj hMetrics).symm⟩
  · rintro ⟨e, he, first, rest, hGroup, rfl⟩
    exact ⟨_, ⟨e, he, rfl⟩, by rw [hGroup]⟩

/-- An alert is breached by the metrics of a query exactly if it is breached by the events that the
query finds. -/
theorem isBreached_metrics (log : EventLog) (c : IssuesCriteria) (a : Alert) :
    a.isBreached (log.metrics c) = true ↔ a.BreachedBy (log.found c) := by
  simp only [Alert.isBreached, List.any_eq_true, decide_eq_true_eq, mem_metrics]
  constructor
  · rintro ⟨_, ⟨e, he, first, rest, hGroup, rfl⟩, hAbove⟩
    rw [metric_metricsOf, ← hGroup] at hAbove
    exact ⟨e, he, hAbove⟩
  · rintro ⟨e, he, hAbove⟩
    cases hGroup : ofGroup (log.found c) e.record.groupId with
    | nil =>
        -- The group of an event that was found holds at least that event.
        have hMem : e ∈ ofGroup (log.found c) e.record.groupId :=
          List.mem_filter.mpr ⟨he, decide_eq_true rfl⟩
        rw [hGroup] at hMem
        cases hMem
    | cons first rest =>
        refine ⟨_, ⟨e, he, first, rest, hGroup, rfl⟩, ?_⟩
        rw [metric_metricsOf, ← hGroup]
        exact hAbove

end EventLog
end Triage
