import Triage.Event.IssueCache

/-!
# What issue caches hold

Looking a key up only drops entries, and what it finds is an entry of the key (`find_cases`).
Adding an entry drops others and adds no second one (`mem_add`).

A cache is `Orderly` when the oldest entries come first and there are not too many.  Only the old
end is looked at when room is made, so it is this order that makes every entry fresh once one was
added (`Orderly.fresh_add`), and each change keeps it.
-/

namespace Triage.IssueCache

variable {c : IssueCache} {policy : CachePolicy} {now : Int} {key : String} {e : CachedIssue}

theorem mem_makeRoom {entries : List CachedIssue} (he : e ∈ makeRoom policy now entries) :
    e ∈ entries := by
  induction entries with
  | nil => cases he
  | cons oldest rest ih =>
      unfold makeRoom at he
      split at he
      · exact List.mem_cons_of_mem _ (ih he)
      · exact he

/-- What a cache remembers under a key stands under the key. -/
theorem find_cases (c : IssueCache) (policy : CachePolicy) (now : Int) (key : String) :
    (∀ e ∈ (c.find policy now key).2.entries, e ∈ c.entries) ∧
      ∀ e, (c.find policy now key).1 = some e → e ∈ c.entries ∧ e.key = key := by
  unfold find
  split
  · exact ⟨fun e he => he, fun e hNone => by cases hNone⟩
  next found hFind =>
    split
    · exact ⟨fun e he => (List.mem_filter.mp he).1, fun e hNone => by cases hNone⟩
    · refine ⟨fun e he => he, fun e hSome => ?_⟩
      cases hSome
      exact ⟨List.mem_of_find?_eq_some hFind, by simpa using List.find?_some hFind⟩

/-- Besides the entry that is added, a cache holds what it held before. -/
theorem mem_add {issueId : Int} {issueUuid : String}
    (he : e ∈ (c.add policy now key issueId issueUuid).entries) :
    e ∈ c.entries ∨ e = ⟨key, issueId, issueUuid, now⟩ := by
  rcases List.mem_append.mp he with hOld | hNew
  · exact .inl (List.mem_filter.mp (mem_makeRoom hOld)).1
  · exact .inr (List.mem_singleton.mp hNew)

/-- Not too many entries, the oldest ones first, and none of them from a time to come. -/
structure Orderly (c : IssueCache) (policy : CachePolicy) (now : Int) : Prop where
  few : (c.entries.length : Int) ≤ policy.maxEntries
  oldestFirst : c.entries.Pairwise fun older younger => older.since ≤ younger.since
  past : ∀ e ∈ c.entries, e.since ≤ now

theorem isExpired_eq_false : isExpired policy now e = false ↔ now - e.since ≤ policy.lifetime := by
  simp [isExpired]

/-- What a cache answers with has not expired. -/
theorem fresh_find (h : (c.find policy now key).1 = some e) : now - e.since ≤ policy.lifetime := by
  unfold find at h
  split at h
  · cases h
  next found _ =>
    split at h
    · cases h
    next hFresh =>
      obtain rfl := Option.some.inj h
      exact isExpired_eq_false.mp (by simpa using hFresh)

theorem makeRoom_suffix (policy : CachePolicy) (now : Int) (entries : List CachedIssue) :
    makeRoom policy now entries <:+ entries := by
  induction entries with
  | nil => exact List.suffix_rfl
  | cons oldest rest ih =>
      unfold makeRoom
      split
      · exact ih.trans (List.suffix_cons _ _)
      · exact List.suffix_rfl

/-- There is room for one more. -/
theorem length_makeRoom (hRoom : 1 ≤ policy.maxEntries) (now : Int) (entries : List CachedIssue) :
    ((makeRoom policy now entries).length : Int) + 1 ≤ policy.maxEntries := by
  induction entries with
  | nil => simpa [makeRoom] using hRoom
  | cons oldest rest ih =>
      unfold makeRoom
      split
      · exact ih
      next hStop =>
        simp only [Bool.or_eq_true, decide_eq_true_eq, not_or] at hStop
        rw [List.length_cons]
        omega

/-- What is left has not expired: the oldest entry has not, and the others are younger. -/
theorem fresh_makeRoom {entries : List CachedIssue}
    (hOrder : entries.Pairwise fun older younger => older.since ≤ younger.since)
    (he : e ∈ makeRoom policy now entries) : now - e.since ≤ policy.lifetime := by
  induction entries with
  | nil => cases he
  | cons oldest rest ih =>
      obtain ⟨hOldest, hRest⟩ := List.pairwise_cons.mp hOrder
      unfold makeRoom at he
      split at he
      · exact ih hRest he
      next hStop =>
        have hFresh : now - oldest.since ≤ policy.lifetime := by
          rw [← isExpired_eq_false]
          simp only [Bool.or_eq_true, not_or, Bool.not_eq_true] at hStop
          exact hStop.1
        rcases List.mem_cons.mp he with rfl | hYounger
        · exact hFresh
        · have hSince := hOldest e hYounger
          omega

namespace Orderly

/-- A cache that holds nothing is in order. -/
theorem of_nil (hNil : c.entries = []) (hRoom : 1 ≤ policy.maxEntries) : c.Orderly policy now where
  few := by
    rw [hNil, List.length_nil]
    omega
  oldestFirst := hNil ▸ List.Pairwise.nil
  past := hNil ▸ List.forall_mem_nil _

theorem later (h : c.Orderly policy now) {time : Int} (hLater : now ≤ time) :
    c.Orderly policy time :=
  ⟨h.few, h.oldestFirst, fun e he => Int.le_trans (h.past e he) hLater⟩

/-- Dropping entries keeps the order of the others. -/
theorem of_sublist (h : c.Orderly policy now) {fewer : IssueCache}
    (hFewer : fewer.entries.Sublist c.entries) : fewer.Orderly policy now where
  few := by
    have hLength := hFewer.length_le
    have hFew := h.few
    omega
  oldestFirst := h.oldestFirst.sublist hFewer
  past e he := h.past e (hFewer.subset he)

theorem forget (h : c.Orderly policy now) (key : String) : (c.forget key).Orderly policy now :=
  h.of_sublist List.filter_sublist

/-- Looking a key up keeps the order, by whatever policy and at whatever time. -/
theorem find (h : c.Orderly policy now) (other : CachePolicy) (time : Int) (key : String) :
    (c.find other time key).2.Orderly policy now := by
  unfold IssueCache.find
  split
  · exact h
  · split
    · exact h.forget key
    · exact h

/-- Adding an entry keeps the order: it is the youngest one and stands at the young end. -/
theorem add (h : c.Orderly policy now) (hRoom : 1 ≤ policy.maxEntries) (key : String)
    (issueId : Int) (issueUuid : String) :
    (c.add policy now key issueId issueUuid).Orderly policy now := by
  have hLeft : (makeRoom policy now (c.forget key).entries).Sublist (c.forget key).entries :=
    (makeRoom_suffix _ _ _).sublist
  have hPast : ∀ e ∈ makeRoom policy now (c.forget key).entries, e.since ≤ now := fun e he =>
    (h.forget key).past e (hLeft.subset he)
  -- Everything that was there is from the past, so the new entry is the youngest one.
  refine ⟨?_, ?_, ?_⟩
  · have hLength := length_makeRoom hRoom now (c.forget key).entries
    simpa [IssueCache.add] using hLength
  · refine List.pairwise_append.mpr ⟨(h.forget key).oldestFirst.sublist hLeft, by simp, ?_⟩
    intro older hOlder younger hYounger
    obtain rfl := List.mem_singleton.mp hYounger
    exact hPast older hOlder
  · intro e he
    rcases List.mem_append.mp he with hOld | hNew
    · exact hPast e hOld
    · obtain rfl := List.mem_singleton.mp hNew
      exact Int.le_refl _

/-- Once an entry was added, none has expired. -/
theorem fresh_add (h : c.Orderly policy now) (hLifetime : 0 ≤ policy.lifetime) {issueId : Int}
    {issueUuid : String} (he : e ∈ (c.add policy now key issueId issueUuid).entries) :
    now - e.since ≤ policy.lifetime := by
  rcases List.mem_append.mp he with hOld | hNew
  · exact fresh_makeRoom (h.forget key).oldestFirst hOld
  · obtain rfl := List.mem_singleton.mp hNew
    simpa using hLifetime

end Orderly

/-- The entry that was added is the youngest one. -/
theorem getLast?_add (c : IssueCache) (policy : CachePolicy) (now : Int) (key : String)
    (issueId : Int) (issueUuid : String) :
    (c.add policy now key issueId issueUuid).entries.getLast? =
      some ⟨key, issueId, issueUuid, now⟩ := by
  simp [add]

end Triage.IssueCache
