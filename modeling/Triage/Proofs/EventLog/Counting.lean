import Mathlib.Algebra.BigOperators.Group.Finset.Piecewise
import Triage.Proofs.EventLog.Tally

/-!
# Three ways of counting

The events of an issue are counted in one number, by day, and with those of the other issues of the
project by hour.  The days add up to the number, and as long as no hour is cut off, the hours of a
day add up to what the issues of the project have on that day (`counting_views_agree`).  What makes
the views comparable is that all three select events by the same half-open window, and that an hour
lies in one day.
-/

namespace Triage

/-- The start of an hour is on the same day as the hour. -/
theorem Instant.startOfDay_startOfHour (t : Instant) : t.startOfHour.startOfDay = t.startOfDay := by
  have hHour : (0 : Int) ≤ 3600 * 1000000 := by decide
  have hDay : (0 : Int) ≤ 86400 * 1000000 := by decide
  simp only [startOfDay, startOfHour, dayMicros, second, Int.fmod_eq_emod_of_nonneg _ hHour,
    Int.fmod_eq_emod_of_nonneg _ hDay, mk.injEq]
  omega

/-- What rows by day count on a day. -/
def countOn (day : Instant) (rows : List DayCount) : Nat :=
  ((rows.filter fun row => row.day = day).map DayCount.count).sum

/-- What rows by hour count in the hours of a day. -/
def countWithin (day : Instant) (rows : List HourCount) : Nat :=
  ((rows.filter fun row => row.hour.startOfDay = day).map HourCount.count).sum

/-- Entries that belong to one of some groups are counted group by group. -/
theorem countP_by_group {groups : List Int} (hNodup : groups.Nodup) (group : α → Int)
    (p : α → Bool) {xs : List α} (hGroups : ∀ x ∈ xs, group x ∈ groups) :
    (groups.map fun g => (xs.filter fun x => group x = g).countP p).sum = xs.countP p := by
  induction xs with
  | nil => simp
  | cons x rest ih =>
      have hRest := ih fun y hy => hGroups y (List.mem_cons_of_mem x hy)
      -- The first entry is counted in its own group and in no other.
      have hSplit : ∀ g, ((x :: rest).filter fun y => group y = g).countP p =
          (if g = group x then (if p x then 1 else 0) else 0) +
            (rest.filter fun y => group y = g).countP p := by
        intro g
        rw [List.filter_cons]
        by_cases hGroup : group x = g
        · simp [hGroup, List.countP_cons, Nat.add_comm]
        · simp [hGroup, Ne.symm hGroup]
      have hOwn : (groups.map fun g => if g = group x then (if p x then 1 else 0) else 0).sum =
          if p x then 1 else 0 := by
        have hMem := List.mem_toFinset.mpr (hGroups x List.mem_cons_self)
        rw [← List.sum_toFinset _ hNodup, Finset.sum_ite_eq', if_pos hMem]
      simp only [hSplit, List.sum_map_add, hOwn, hRest, List.countP_cons]
      exact Nat.add_comm _ _

/-- Sorting a tally does not change what it counts. -/
theorem sum_sorted_tally [BEq κ] [LawfulBEq κ] (before : κ × Nat → κ × Nat → Bool) (p : κ → Bool)
    (keys : List κ) :
    ((((tally keys).mergeSort before).filter fun row => p row.1).map Prod.snd).sum =
      keys.countP p := by
  rw [← sum_tally_filter]
  exact (((List.mergeSort_perm _ before).filter _).map _).sum_eq

namespace EventLog

variable {log : EventLog}

theorem matching_eq_ofIssue (c : IssueCriteria) (limit offset : Int) :
    log.matching ⟨[c.projectId], c.groupId, c.window, "", [], limit, offset⟩ = log.ofIssue c := by
  refine List.filter_congr fun e _ => ?_
  rw [Bool.eq_iff_iff]
  simp [and_assoc, and_comm]

theorem countOn_perDay (day : Instant) (c : IssueCriteria) :
    countOn day (log.perDay c) =
      (log.ofIssue c).countP fun e => e.createdAt.startOfDay = day := by
  have hSum := sum_sorted_tally (fun a b => decide (b.1 ≤ a.1)) (fun d => decide (d = day))
    ((log.ofIssue c).map fun e => e.createdAt.startOfDay)
  rw [List.countP_map] at hSum
  rw [countOn, perDay_eq, List.filter_map, List.map_map]
  exact hSum

theorem sum_perDay (c : IssueCriteria) (limit offset : Int) :
    ((log.perDay c).map DayCount.count).sum =
      log.countEvents ⟨[c.projectId], c.groupId, c.window, "", [], limit, offset⟩ := by
  have hSum := sum_sorted_tally (fun a b => decide (b.1 ≤ a.1)) (fun _ => true)
    ((log.ofIssue c).map fun e => e.createdAt.startOfDay)
  rw [List.filter_eq_self.mpr fun _ _ => rfl, List.countP_true, List.length_map] at hSum
  rw [countEvents, matching_eq_ofIssue, perDay_eq, List.map_map]
  exact hSum

theorem perDay_decreasing (c : IssueCriteria) :
    (log.perDay c).Pairwise fun later earlier => earlier.day < later.day := by
  rw [perDay_eq, mergeSort_tally fun a b : Instant => decide (b ≤ a), List.pairwise_map, List.pairwise_map]
  refine (ranks_instant.flip.pairwise_ne_mergeSort (nodup_eraseDups _)).imp ?_
  rintro later earlier ⟨hBefore, hNe⟩
  refine Instant.not_le.mp fun hLater => hNe ?_
  exact ranks_instant.antisymm _ _ (decide_eq_true hLater) hBefore

/-- Where fewer rows are answered than fit, there are no others. -/
theorem perHour_complete {c : ProjectsCriteria} (h : (log.perHour c).length < maxHourRows) :
    log.perHour c =
      ((tally ((log.ofProjects c Window.opens).map fun e =>
        (e.createdAt.startOfHour, e.record.projectId))).mergeSort
          fun a b => hourBefore a.1 b.1).map fun row => ⟨row.1.1, row.1.2, row.2⟩ := by
  rw [perHour_eq] at h ⊢
  rw [List.length_map, List.length_take] at h
  rw [List.take_of_length_le (by omega)]

theorem countWithin_perHour {c : ProjectsCriteria} (h : (log.perHour c).length < maxHourRows)
    (day : Instant) :
    countWithin day (log.perHour c) =
      (log.ofProjects c Window.opens).countP fun e => e.createdAt.startOfDay = day := by
  have hSum := sum_sorted_tally (fun a b => hourBefore a.1 b.1)
    (fun key => decide (key.1.startOfDay = day))
    ((log.ofProjects c Window.opens).map fun e => (e.createdAt.startOfHour, e.record.projectId))
  rw [List.countP_map] at hSum
  rw [countWithin, perHour_complete h, List.filter_map, List.map_map]
  refine hSum.trans (List.countP_congr fun e _ => ?_)
  simp [Instant.startOfDay_startOfHour]

/-- The hours of one project come in their order, each of them once. -/
theorem perHour_increasing {projectId : Int} {window : Window} {limit : Int}
    (h : (log.perHour ⟨[projectId], window, limit⟩).length < maxHourRows) :
    (log.perHour ⟨[projectId], window, limit⟩).Pairwise fun earlier later =>
      earlier.hour < later.hour := by
  rw [perHour_complete h, mergeSort_tally, List.pairwise_map, List.pairwise_map]
  have hSorted := ranks_hourBefore.pairwise_ne_mergeSort (nodup_eraseDups
    ((log.ofProjects ⟨[projectId], window, limit⟩ Window.opens).map fun e =>
      (e.createdAt.startOfHour, e.record.projectId)))
  have hProject : ∀ key ∈ (((log.ofProjects ⟨[projectId], window, limit⟩ Window.opens).map fun e =>
      (e.createdAt.startOfHour, e.record.projectId)).eraseDups.mergeSort hourBefore),
      key.2 = projectId := by
    intro key hKey
    rw [List.mem_mergeSort, List.mem_eraseDups] at hKey
    obtain ⟨e, he, rfl⟩ := List.mem_map.mp hKey
    have hFound := (List.mem_filter.mp he).2
    simp only [Bool.and_eq_true, List.contains_iff_mem, List.mem_singleton] at hFound
    exact hFound.1
  refine hSorted.imp_of_mem fun {earlier later} hEarlier hLater hBefore => ?_
  have hSame : earlier.2 = later.2 := (hProject _ hEarlier).trans (hProject _ hLater).symm
  obtain ⟨hBefore, hNe⟩ := hBefore
  have hHour : earlier.1 < later.1 ∨ earlier.1 = later.1 := by
    simpa [hourBefore, hSame] using hBefore
  exact hHour.resolve_right fun hHour => hNe (Prod.ext hHour hSame)

/-- The events of a project on a day are those of its issues. -/
theorem countP_ofProjects {projectId : Int} {window : Window} {limit : Int} {issues : List Int}
    (hNodup : issues.Nodup)
    (hIssues : ∀ e ∈ log.visible, e.record.projectId = projectId → e.record.groupId ∈ issues)
    (eventId : String) (p : StoredEvent → Bool) :
    (issues.map fun groupId =>
        (log.ofIssue ⟨projectId, groupId, window, eventId⟩).countP p).sum =
      (log.ofProjects ⟨[projectId], window, limit⟩ Window.opens).countP p := by
  have hGroups : ∀ e ∈ log.ofProjects ⟨[projectId], window, limit⟩ Window.opens,
      e.record.groupId ∈ issues := by
    intro e he
    obtain ⟨hVisible, hFound⟩ := List.mem_filter.mp he
    simp only [Bool.and_eq_true, List.contains_iff_mem, List.mem_singleton] at hFound
    exact hIssues e hVisible hFound.1
  rw [← countP_by_group hNodup (fun e => e.record.groupId) p hGroups]
  refine congrArg List.sum (List.map_congr_left fun groupId _ => ?_)
  rw [ofProjects, List.filter_filter, ofIssue]
  refine congrArg (List.countP p) (List.filter_congr fun e _ => ?_)
  rw [Bool.eq_iff_iff]
  simp [and_assoc]

/-- In a log with its tables, the days of an issue come newest first, each of them once, and their
counts add up to the number of events of the issue; and unless there are as many hours of a project
as are ever given, they come oldest first, each of them once, and the counts of those in a day add up
to what the issues of the project count on that day. -/
theorem counting_views_agree (hTables : log.dropped = false) (projectId : Int) (window : Window)
    (eventId : String) (limit offset : Int) :
    ∃ (days : Int → List DayCount) (hours : List HourCount),
      (∀ groupId, (log.run (.perDay ⟨projectId, groupId, window, eventId⟩)).1 = .ok (days groupId)) ∧
      (log.run (.perHour ⟨[projectId], window, limit⟩)).1 = .ok hours ∧
      (∀ groupId, (days groupId).Pairwise (fun later earlier => earlier.day < later.day) ∧
        (log.run (.countEvents ⟨[projectId], groupId, window, "", [], limit, offset⟩)).1 =
          .ok ((days groupId).map DayCount.count).sum) ∧
      (hours.length < maxHourRows →
        hours.Pairwise (fun earlier later => earlier.hour < later.hour) ∧
        ∀ issues : List Int, issues.Nodup →
          (∀ e ∈ log.visible, e.record.projectId = projectId → e.record.groupId ∈ issues) →
          ∀ day, countWithin day hours =
            (issues.map fun groupId => countOn day (days groupId)).sum) := by
  refine ⟨fun groupId => log.perDay ⟨projectId, groupId, window, eventId⟩,
    log.perHour ⟨[projectId], window, limit⟩, ?_, ?_, ?_, ?_⟩
  · intro groupId
    simp [run, hTables, apply]
  · simp [run, hTables, apply]
  · intro groupId
    refine ⟨perDay_decreasing _, ?_⟩
    rw [sum_perDay _ limit offset]
    simp [run, hTables, apply]
  · intro hComplete
    refine ⟨perHour_increasing hComplete, fun issues hNodup hIssues day => ?_⟩
    rw [countWithin_perHour hComplete, ← countP_ofProjects hNodup hIssues eventId]
    exact congrArg List.sum (List.map_congr_left fun groupId _ => (countOn_perDay day _).symm)

/-- A log with events of two issues of a project in the last hour of a day and at the start of the
next day. -/
def midnightLog : EventLog :=
  let event (groupId micros : Int) : StoredEvent :=
    EventRecord.stored ⟨"", 1, groupId, ⟨micros⟩, 90, "python", "error", "prod", "1.0", "", "", "", "",
      "boom", "boom", "", "", "", [], []⟩ 0
  ⟨[event 7 (Instant.dayMicros - 1), event 8 (Instant.dayMicros - 1), event 7 Instant.dayMicros,
    event 8 (Instant.dayMicros + 1)], false⟩

/-- A window that ends in the first hour of the second day. -/
def midnightWindow : Window := ⟨⟨0⟩, ⟨Instant.dayMicros + 1⟩⟩

theorem midnight_views_agree :
    ∃ (days : Int → List DayCount) (hours : List HourCount),
      (∀ groupId, (midnightLog.run (.perDay ⟨1, groupId, midnightWindow, ""⟩)).1 =
        .ok (days groupId)) ∧
      (midnightLog.run (.perHour ⟨[1], midnightWindow, 1000⟩)).1 = .ok hours ∧
      (midnightLog.run (.countEvents ⟨[1], 7, midnightWindow, "", [], 1000, 0⟩)).1 =
        .ok ((days 7).map DayCount.count).sum ∧
      hours.Pairwise (fun earlier later => earlier.hour < later.hour) ∧
      ∀ day, countWithin day hours = ([7, 8].map fun groupId => countOn day (days groupId)).sum := by
  have hTables : midnightLog.dropped = false := rfl
  obtain ⟨days, hours, hDays, hHours, hCounts, hAgree⟩ :=
    counting_views_agree hTables 1 midnightWindow "" 1000 0
  have hAnswer : midnightLog.perHour ⟨[1], midnightWindow, 1000⟩ = hours := Except.ok.inj hHours
  have hFew : hours.length < maxHourRows := by
    rw [← hAnswer, perHour_eq, List.length_map, List.length_take, List.length_mergeSort]
    decide +kernel
  obtain ⟨hIncreasing, hSums⟩ := hAgree hFew
  exact ⟨days, hours, hDays, hHours, (hCounts 7).2, hIncreasing,
    hSums [7, 8] (by decide) (by decide +kernel)⟩

end EventLog
end Triage
