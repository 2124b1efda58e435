import Triage.EventLog.Calls

/-!
# Looking an event up

An event is looked up in its project and issue by its identifier, whatever the window is.  Hyphens
in the identifier that is asked for do not count, but those in a stored identifier do: so what was
stored under an identifier of its own is shown again exactly when that identifier has no hyphen
(`lookup_repeats_iff`), and an event whose identifier has one is never found under it
(`hyphenated_event_not_found`).
-/

namespace Triage

/-- An event shows what a record holds: identifier, time, environment, release, user, message, title,
errors, and the tags in their order. -/
structure StoredEvent.Repeats (e : StoredEvent) (r : EventRecord) : Prop where
  eventId : e.record.eventId = r.eventId
  createdAt : e.createdAt = r.createdAt
  env : e.record.env = r.env
  release : e.record.release = r.release
  user : e.record.user = r.user
  userEmail : e.record.userEmail = r.userEmail
  userName : e.record.userName = r.userName
  userUsername : e.record.userUsername = r.userUsername
  message : e.record.message = r.message
  title : e.record.title = r.title
  exception : e.record.exception = r.exception
  tags : e.tags.map StoredTag.tag = r.tags

/-- A record is shown as it was stored. -/
theorem EventRecord.repeats_stored (r : EventRecord) (number : Int) :
    (r.stored number).Repeats r where
  eventId := rfl
  createdAt := rfl
  env := rfl
  release := rfl
  user := rfl
  userEmail := rfl
  userName := rfl
  userUsername := rfl
  message := rfl
  title := rfl
  exception := rfl
  tags := by
    have hTag : StoredTag.tag ∘ Tag.stored = id := rfl
    simp [EventRecord.stored, hTag]

/-- A text without its hyphens is the text itself exactly when it has none. -/
theorem ofList_filter_hyphen_iff {text : String} :
    String.ofList (text.toList.filter (· != '-')) = text ↔ '-' ∉ text.toList := by
  constructor
  · intro hSame hMem
    have hChars := congrArg String.toList hSame
    rw [String.toList_ofList, List.filter_eq_self] at hChars
    simpa using hChars '-' hMem
  · intro hNone
    have hAll : text.toList.filter (· != '-') = text.toList := by
      rw [List.filter_eq_self]
      intro c hc
      have hOther : c ≠ '-' := fun hEq => hNone (hEq ▸ hc)
      simpa using hOther
    rw [hAll, String.ofList_toList]

namespace EventLog

variable {log : EventLog} {r : EventRecord}

/-- Appending succeeds where the tables are there, and nowhere else. -/
theorem run_append_eq_ok {after : EventLog} (h : log.run (.append r) = (.ok (), after)) :
    log.dropped = false ∧ after = log.append r := by
  cases hDropped : log.dropped with
  | true => simp [run, hDropped, EventLogCall.needsTables] at h
  | false =>
      simp only [run, hDropped, Bool.false_and, Bool.false_eq_true, if_false, apply] at h
      exact ⟨rfl, (Prod.mk.inj h).2.symm⟩

/-- What an appended event is looked up by: it is visible, and comes after all that were. -/
theorem visible_append (log : EventLog) (r : EventRecord) :
    (log.append r).visible = log.visible ++ [r.stored (nextId (log.events.map StoredEvent.id))] := by
  simp [visible, append, EventRecord.stored]

/-- Whatever is found by an identifier was stored under it without its hyphens. -/
theorem eventId_of_issueEvent {c : IssueCriteria} (hId : c.eventId ≠ "") {e : StoredEvent}
    (h : log.issueEvent c = some e) :
    e.record.eventId = String.ofList (c.eventId.toList.filter (· != '-')) := by
  have hNamed : c.eventId.isEmpty = false := by simpa [String.isEmpty_iff] using hId
  simp only [issueEvent, hNamed, Bool.false_eq_true, if_false] at h
  have hMem := List.mem_of_mem_head? h
  rw [oldestFirst, List.mem_mergeSort, List.mem_filter] at hMem
  simp only [Bool.and_eq_true, decide_eq_true_eq] at hMem
  exact hMem.2.2

/-- An event under an identifier of its own, without hyphens, is found. -/
theorem issueEvent_append (hId : r.eventId ≠ "") (hPlain : '-' ∉ r.eventId.toList)
    (hFresh : ∀ e ∈ log.events, e.record.projectId = r.projectId → e.record.groupId = r.groupId →
      e.record.eventId ≠ r.eventId) (window : Window) :
    (log.append r).issueEvent ⟨r.projectId, r.groupId, window, r.eventId⟩ =
      some (r.stored (nextId (log.events.map StoredEvent.id))) := by
  have hNamed : r.eventId.isEmpty = false := by simpa [String.isEmpty_iff] using hId
  have hOthers : log.visible.filter (fun e => e.record.groupId = r.groupId
      && e.record.projectId = r.projectId && e.record.eventId = r.eventId) = [] := by
    rw [List.filter_eq_nil_iff]
    intro e he hMeant
    simp only [Bool.and_eq_true, decide_eq_true_eq] at hMeant
    exact hFresh e (List.mem_filter.mp he).1 hMeant.1.2 hMeant.1.1 hMeant.2
  simp only [issueEvent, hNamed, Bool.false_eq_true, if_false, ofList_filter_hyphen_iff.mpr hPlain,
    visible_append, List.filter_append, hOthers]
  simp [EventRecord.stored, oldestFirst]

/-- What the log has accepted under an identifier that was not in use in the project and issue is
shown again under this identifier, whatever the window, exactly when the identifier has no hyphen. -/
theorem lookup_repeats_iff {after : EventLog} (hStored : log.run (.append r) = (.ok (), after))
    (hId : r.eventId ≠ "")
    (hFresh : ∀ e ∈ log.events, e.record.projectId = r.projectId → e.record.groupId = r.groupId →
      e.record.eventId ≠ r.eventId) (window : Window) :
    (∃ e, after.run (.issueEvent ⟨r.projectId, r.groupId, window, r.eventId⟩) = (.ok (some e), after) ∧
        e.Repeats r) ↔ '-' ∉ r.eventId.toList := by
  obtain ⟨hThere, rfl⟩ := run_append_eq_ok hStored
  have hAnswer : ∀ c : IssueCriteria, (log.append r).run (.issueEvent c) =
      (.ok ((log.append r).issueEvent c), log.append r) := by
    intro c
    have hStill : (log.append r).dropped = false := hThere
    simp [run, hStill, apply]
  rw [hAnswer]
  constructor
  · rintro ⟨e, hFound, hRepeats⟩
    have hSome : (log.append r).issueEvent ⟨r.projectId, r.groupId, window, r.eventId⟩ = some e :=
      Except.ok.inj (Prod.mk.inj hFound).1
    have hPlain := eventId_of_issueEvent (c := ⟨r.projectId, r.groupId, window, r.eventId⟩) hId hSome
    rw [hRepeats.eventId] at hPlain
    exact ofList_filter_hyphen_iff.mp hPlain.symm
  · intro hPlain
    exact ⟨_, by rw [issueEvent_append hId hPlain hFresh window], r.repeats_stored _⟩

/-- A record with an identifier, an error and a repeated tag. -/
def namedRecord (eventId : String) (groupId : Int) : EventRecord :=
  ⟨eventId, 1, groupId, ⟨1000⟩, 90, "python", "error", "prod", "1.0", "id:1", "ann@example.com", "Ann",
    "ann", "boom", "ValueError: boom", "", "", "", [.obj [("type", .str "ValueError")]],
    [⟨"os", "Linux"⟩, ⟨"env", "prod"⟩, ⟨"os", "Linux"⟩]⟩

/-- The same identifier in another issue does not stand in the way. -/
theorem event_read_back :
    ∃ e, ((EventLog.empty.append (namedRecord "Event 1" 8)).append (namedRecord "Event 1" 7)).run
        (.issueEvent ⟨1, 7, ⟨⟨0⟩, ⟨0⟩⟩, "Event 1"⟩) =
          (.ok (some e), (EventLog.empty.append (namedRecord "Event 1" 8)).append
            (namedRecord "Event 1" 7)) ∧
      e.Repeats (namedRecord "Event 1" 7) := by
  have hStored : (EventLog.empty.append (namedRecord "Event 1" 8)).run
      (.append (namedRecord "Event 1" 7)) = (.ok (), _) := rfl
  refine (lookup_repeats_iff hStored (by decide) ?_ ⟨⟨0⟩, ⟨0⟩⟩).mpr (by decide)
  intro e he _ hGroup
  obtain rfl := List.mem_singleton.mp he
  exact absurd hGroup (by decide)

/-- An event that was stored under an identifier with a hyphen is not found under it, though it is
listed under it. -/
theorem hyphenated_event_not_found :
    EventLog.empty.run (.append (namedRecord "event-1" 7)) =
        (.ok (), EventLog.empty.append (namedRecord "event-1" 7)) ∧
      (EventLog.empty.append (namedRecord "event-1" 7)).issueEvent
        ⟨1, 7, ⟨⟨1000⟩, ⟨2000⟩⟩, "event-1"⟩ = none ∧
      ((EventLog.empty.append (namedRecord "event-1" 7)).listEvents
        ⟨[1], 7, ⟨⟨1000⟩, ⟨2000⟩⟩, "", [], 50, 0⟩).map (fun e => e.record.eventId) = ["event-1"] := by
  refine ⟨rfl, ?_, ?_⟩
  · decide +kernel
  · decide +kernel

end EventLog
end Triage
