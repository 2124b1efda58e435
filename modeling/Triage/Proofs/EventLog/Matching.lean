import Triage.EventLog.Calls
import Triage.Proofs.Text.Finding

/-!
# Which events a query finds

Tags are looked for by their hashes.  In a log that only ever had records appended and events marked
as deleted, an event carries a tag with the hash of a given one exactly if its record has that tag,
as long as no stored tag collides with it (`hasTag_iff`).  So a query finds the events of its issue
and projects in its window that have the tags it requires and none that it forbids, and in whose
message its text is found (`matching_eq`).  These are the wanted events exactly when the text is found
in the messages that contain it and in no others (`findsWanted_iff`).  It may be otherwise with a NUL
character in the text, which then has to stand at the end of the message, or in the message, which is
not read behind it.
-/

namespace Triage

/-- Tags are looked for by their hashes. -/
theorem StoredEvent.hasTag_iff_hash {e : StoredEvent} {tag : Tag}
    (h : e.tags = e.record.tags.map Tag.stored) :
    e.hasTag tag = true ↔ ∃ t ∈ e.record.tags, t.hash = tag.hash := by
  rw [StoredEvent.hasTag, h, List.any_map, List.any_eq_true]
  exact exists_congr fun t => and_congr_right fun _ => decide_eq_true_iff

/-- A filter asks for a tag or for its absence. -/
theorem StoredEvent.meets_iff {e : StoredEvent} {f : Search.TagFilter} :
    e.meets f = true ↔ (e.hasTag f.tag = true ↔ f.negated = false) := by
  rw [StoredEvent.meets]
  cases e.hasTag f.tag <;> cases f.negated <;> decide

namespace EventLog

/-- The logs that come about: events are appended, and marked as deleted. -/
inductive Reached : EventLog → Prop where
  | empty : Reached .empty
  | append {log : EventLog} (before : Reached log) (record : EventRecord) :
      Reached (log.append record)
  | markDeleted {log : EventLog} (before : Reached log) (eventId : String) :
      Reached (log.markDeleted eventId)

variable {log : EventLog}

/-- Events keep the hashes of the tags of their records. -/
theorem Reached.tags_eq (h : log.Reached) {e : StoredEvent} (he : e ∈ log.events) :
    e.tags = e.record.tags.map Tag.stored := by
  induction h generalizing e with
  | empty => cases he
  | append _ record ih =>
      rcases List.mem_append.mp he with hOld | hNew
      · exact ih hOld
      · obtain rfl := List.mem_singleton.mp hNew
        rfl
  | markDeleted _ eventId ih =>
      obtain ⟨before, hBefore, rfl⟩ := List.mem_map.mp he
      split
      · exact ih (e := before) hBefore
      · exact ih hBefore

theorem Reached.dropped_eq (h : log.Reached) : log.dropped = false := by
  induction h with
  | empty => rfl
  | append _ _ ih => exact ih
  | markDeleted _ _ ih => exact ih

/-- Every call on a log that came about is answered. -/
theorem Reached.run_eq (h : log.Reached) (call : EventLogCall) :
    log.run call = (.ok (log.apply call).1, (log.apply call).2) := by
  rw [run, h.dropped_eq]
  rfl

/-- No call leaves the logs that come about. -/
theorem Reached.run (h : log.Reached) (call : EventLogCall) : (log.run call).2.Reached := by
  rw [h.run_eq]
  cases call with
  | append record => exact h.append record
  | _ => exact h

/-- No stored tag collides with a given one. -/
def TellsApart (log : EventLog) (tag : Tag) : Prop :=
  ∀ e ∈ log.events, ∀ t ∈ e.record.tags, t.hash = tag.hash → t = tag

instance (log : EventLog) (tag : Tag) : Decidable (log.TellsApart tag) :=
  inferInstanceAs (Decidable (∀ e ∈ log.events, ∀ t ∈ e.record.tags, t.hash = tag.hash → t = tag))

theorem Reached.hasTag_iff (h : log.Reached) {tag : Tag} (hTag : log.TellsApart tag)
    {e : StoredEvent} (he : e ∈ log.events) : e.hasTag tag = true ↔ tag ∈ e.record.tags := by
  rw [StoredEvent.hasTag_iff_hash (h.tags_eq he)]
  constructor
  · rintro ⟨t, hMem, hHash⟩
    exact hTag e he t hMem hHash ▸ hMem
  · exact fun hMem => ⟨tag, hMem, rfl⟩

theorem Reached.meets_iff (h : log.Reached) {f : Search.TagFilter} (hTag : log.TellsApart f.tag)
    {e : StoredEvent} (he : e ∈ log.events) :
    e.meets f = true ↔ (f.tag ∈ e.record.tags ↔ f.negated = false) := by
  rw [StoredEvent.meets_iff, h.hasTag_iff hTag he]

end EventLog

namespace EventsCriteria

variable {log : EventLog}

/-- All that criteria ask of an event besides the text. -/
structure Selects (c : EventsCriteria) (e : StoredEvent) : Prop where
  group : e.record.groupId = c.groupId
  project : e.record.projectId ∈ c.projectIds
  start : c.window.start ≤ e.createdAt
  stop : e.createdAt < c.window.stop
  tags : ∀ f ∈ c.filters, f.tag ∈ e.record.tags ↔ f.negated = false

/-- What criteria ask of an event: it is selected, and its message contains the text. -/
def Wants (c : EventsCriteria) (e : StoredEvent) : Prop :=
  c.Selects e ∧ Text.OccursIn c.message e.record.message

/-- What the log makes of that: the event is selected, and the text is found in its message. -/
def Admits (c : EventsCriteria) (e : StoredEvent) : Prop :=
  c.Selects e ∧ Text.FoundIn c.message e.record.message

theorem selects_iff {c : EventsCriteria} {e : StoredEvent} :
    (e.record.groupId = c.groupId ∧ e.record.projectId ∈ c.projectIds ∧
      c.window.start ≤ e.createdAt ∧ e.createdAt < c.window.stop ∧
      ∀ f ∈ c.filters, f.tag ∈ e.record.tags ↔ f.negated = false) ↔ c.Selects e :=
  ⟨fun ⟨group, project, start, stop, tags⟩ => ⟨group, project, start, stop, tags⟩,
    fun h => ⟨h.group, h.project, h.start, h.stop, h.tags⟩⟩

instance (c : EventsCriteria) (e : StoredEvent) : Decidable (c.Selects e) :=
  decidable_of_iff _ selects_iff

instance (c : EventsCriteria) (e : StoredEvent) : Decidable (c.Wants e) :=
  inferInstanceAs (Decidable (_ ∧ _))

instance (c : EventsCriteria) (e : StoredEvent) : Decidable (c.Admits e) :=
  inferInstanceAs (Decidable (_ ∧ _))

end EventsCriteria

namespace EventLog

variable {log : EventLog} {c : EventsCriteria}

/-- The events that are wanted, in the order of the log. -/
def wanted (log : EventLog) (c : EventsCriteria) : List StoredEvent :=
  log.visible.filter fun e => c.Wants e

theorem mem_events_of_visible {e : StoredEvent} (he : e ∈ log.visible) : e ∈ log.events :=
  (List.mem_filter.mp he).1

/-- The events that a query finds are those that it admits. -/
theorem Reached.matching_eq (h : log.Reached) (hTags : ∀ f ∈ c.filters, log.TellsApart f.tag) :
    log.matching c = log.visible.filter fun e => c.Admits e := by
  refine List.filter_congr fun e he => ?_
  have hFilters : c.filters.all e.meets = true ↔
      ∀ f ∈ c.filters, f.tag ∈ e.record.tags ↔ f.negated = false := by
    rw [List.all_eq_true]
    exact forall₂_congr fun f hf => h.meets_iff (hTags f hf) (mem_events_of_visible he)
  rw [Bool.eq_iff_iff, decide_eq_true_eq]
  simp only [Bool.and_eq_true, Text.isEmpty_or_isFoundIn_iff, hFilters, decide_eq_true_eq,
    List.contains_iff_mem, Window.opens]
  constructor
  · rintro ⟨⟨⟨⟨group, start, stop⟩, text⟩, tags⟩, project⟩
    exact ⟨⟨group, project, start, stop, tags⟩, text⟩
  · rintro ⟨⟨group, project, start, stop, tags⟩, text⟩
    exact ⟨⟨⟨⟨group, start, stop⟩, text⟩, tags⟩, project⟩

/-- Everything that is wanted, and nothing else, is counted, and listed on a page that has room for
it. -/
def FindsWanted (log : EventLog) (c : EventsCriteria) : Prop :=
  (log.run (.countEvents c)).1 = .ok (log.wanted c).length ∧
    ∀ offset limit : Int, offset ≤ 0 → (limit < 0 ∨ (log.wanted c).length ≤ limit) →
      ∃ found, (log.run (.listEvents { c with offset, limit })).1 = .ok found ∧
        found.Perm (log.wanted c)

/-- A page with room for everything holds everything. -/
theorem page_eq_self {offset limit : Int} {xs : List α} (hOffset : offset ≤ 0)
    (hLimit : limit < 0 ∨ xs.length ≤ limit) : page offset limit xs = xs := by
  unfold page
  rw [Int.toNat_of_nonpos hOffset, List.drop_zero]
  split
  · rfl
  · exact List.take_of_length_le (by omega)

theorem Reached.run_countEvents (h : log.Reached) (c : EventsCriteria) :
    (log.run (.countEvents c)).1 = .ok (log.matching c).length := by
  rw [h.run_eq]
  rfl

/-- A page with room for everything lists all events that a query finds. -/
theorem Reached.run_listEvents (h : log.Reached) {offset limit : Int} (hOffset : offset ≤ 0)
    (hLimit : limit < 0 ∨ (log.matching c).length ≤ limit) :
    ∃ found, (log.run (.listEvents { c with offset, limit })).1 = .ok found ∧
      found.Perm (log.matching c) := by
  have hPerm : (newestFirst StoredEvent.createdAt StoredEvent.id (log.matching c)).Perm
      (log.matching c) := List.mergeSort_perm _ _
  refine ⟨_, ?_, hPerm⟩
  rw [h.run_eq]
  exact congrArg Except.ok (page_eq_self hOffset (hPerm.length_eq ▸ hLimit))

/-- A query finds exactly the wanted events if, among the selected ones, its text is found in the
messages that contain it and in no others, and only then. -/
theorem findsWanted_iff (h : log.Reached) (hTags : ∀ f ∈ c.filters, log.TellsApart f.tag) :
    log.FindsWanted c ↔
      ∀ e ∈ log.visible, c.Selects e →
        (Text.OccursIn c.message e.record.message ↔
          Text.FoundIn c.message e.record.message) := by
  constructor
  · rintro ⟨-, hList⟩ e he hSelects
    -- Without a limit, the page holds what the query finds and, up to order, what is wanted.
    obtain ⟨found, hFound, hWanted⟩ := hList 0 (-1) (Int.le_refl 0) (.inl (by decide))
    obtain ⟨found', hFound', hMatching⟩ :=
      h.run_listEvents (c := c) (Int.le_refl 0) (.inl (by decide : (-1 : Int) < 0))
    obtain rfl : found = found' := Except.ok.inj (hFound.symm.trans hFound')
    have hMem : e ∈ log.wanted c ↔ e ∈ log.matching c := (hWanted.symm.trans hMatching).mem_iff
    rw [h.matching_eq hTags, wanted, List.mem_filter, List.mem_filter, decide_eq_true_eq,
      decide_eq_true_eq, and_congr_right_iff] at hMem
    exact (and_congr_right_iff.mp (hMem he)) hSelects
  · intro hSame
    have hWanted : log.wanted c = log.matching c := by
      rw [h.matching_eq hTags]
      refine List.filter_congr fun e he => ?_
      rw [Bool.eq_iff_iff, decide_eq_true_eq, decide_eq_true_eq]
      exact and_congr_right (hSame e he)
    rw [FindsWanted, hWanted]
    exact ⟨h.run_countEvents c, fun offset limit => h.run_listEvents⟩

/-- A query finds exactly the wanted events if and only if, among the selected ones, its text is found
in the messages that contain it and in no others; and so it is if text and messages are plain. -/
theorem wanted_events_found (h : log.Reached) (hTags : ∀ f ∈ c.filters, log.TellsApart f.tag) :
    (log.FindsWanted c ↔
        ∀ e ∈ log.visible, c.Selects e →
          (Text.OccursIn c.message e.record.message ↔
            Text.FoundIn c.message e.record.message)) ∧
      (Text.Plain c.message → (∀ e ∈ log.visible, Text.Plain e.record.message) →
        log.FindsWanted c) := by
  refine ⟨findsWanted_iff h hTags, fun hText hMessages => ?_⟩
  exact (findsWanted_iff h hTags).mpr fun e he _ =>
    (Text.foundIn_iff_occursIn hText (hMessages e he)).symm

/-- A record with a message and tags, and little else. -/
def taggedRecord (message : String) (tags : List Tag) : EventRecord :=
  ⟨"e1", 1, 7, ⟨1000⟩, 90, "python", "error", "", "", "", "", "", "", message, "", "", "", "", [],
    tags⟩

/-- A query about the issue of such records. -/
def taggedCriteria (message : String) (filters : List Search.TagFilter) : EventsCriteria :=
  ⟨[1], 7, ⟨⟨1000⟩, ⟨2000⟩⟩, message, filters, 50, 0⟩

/-- Two events whose tags differ in where the key ends. -/
def disksLog : EventLog :=
  (EventLog.empty.append (taggedRecord "Disk full" [⟨"a=b", "c"⟩])).append
    (taggedRecord "disk full" [⟨"a", "b=c"⟩])

/-- The one tag is required and the other forbidden. -/
def disksCriteria : EventsCriteria :=
  taggedCriteria "DISK" [⟨⟨"a=b", "c"⟩, false⟩, ⟨⟨"a", "b=c"⟩, true⟩]

/-- Plain texts, and tags that an equals sign in a key does not mix up. -/
theorem disks_found_by_tags :
    (∀ f ∈ disksCriteria.filters, disksLog.TellsApart f.tag) ∧
      disksLog.FindsWanted disksCriteria ∧ (disksLog.wanted disksCriteria).length = 1 := by
  have hReached : disksLog.Reached := (Reached.empty.append _).append _
  have hTags : ∀ f ∈ disksCriteria.filters, disksLog.TellsApart f.tag := by decide +kernel
  have hMessages : ∀ e ∈ disksLog.visible, Text.Plain e.record.message := by decide +kernel
  exact ⟨hTags, (wanted_events_found hReached hTags).2 (by decide +kernel) hMessages,
    by decide +kernel⟩

/-- An event with a NUL character in its message. -/
def nulLog : EventLog := EventLog.empty.append (taggedRecord "disk\x00full" [])

/-- A text behind a NUL character is wanted but not found. -/
theorem text_behind_nul_not_found :
    nulLog.Reached ∧ (nulLog.matching (taggedCriteria "full" [])).length = 0 ∧
      (nulLog.wanted (taggedCriteria "full" [])).length = 1 ∧
      ¬nulLog.FindsWanted (taggedCriteria "full" []) := by
  have hReached : nulLog.Reached := .append .empty _
  have hFound : (nulLog.matching (taggedCriteria "full" [])).length = 0 := by decide +kernel
  have hWanted : (nulLog.wanted (taggedCriteria "full" [])).length = 1 := by decide +kernel
  refine ⟨hReached, hFound, hWanted, fun hFinds => ?_⟩
  have hCount : (nulLog.matching (taggedCriteria "full" [])).length =
      (nulLog.wanted (taggedCriteria "full" [])).length :=
    Except.ok.inj ((hReached.run_countEvents _).symm.trans hFinds.1)
  rw [hFound, hWanted] at hCount
  cases hCount

end EventLog
end Triage
