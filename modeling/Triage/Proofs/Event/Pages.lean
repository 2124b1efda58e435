import Triage.Proofs.Event.Searching
import Triage.Proofs.Registry.Paging

/-!
# The events of a query, page after page

Counting and listing are two questions to the event log, but both are about the events that answer
the query (`run_list_eq`, `mem_matching_query`).  These have numbers of their own, so that they stand
strictly one after the other even where many happened at the same time, and the pages of one size
divide them up (`query_in_pages`).

Nothing is said of events that are appended or deleted between two pages.
-/

namespace Triage

/-- Events that came about one after the other have numbers of their own. -/
theorem EventLog.Reached.nodup_ids {log : EventLog} (h : log.Reached) :
    (log.events.map StoredEvent.id).Nodup := by
  induction h with
  | empty => exact List.nodup_nil
  | append _ _ ih => exact map_key_append ih (nextId_notMem _)
  | markDeleted _ eventId ih =>
      -- Marking changes no number.
      rw [EventLog.markDeleted, List.map_map]
      refine (congrArg List.Nodup (List.map_congr_left fun e _ => ?_)).mpr ih
      rw [Function.comp_apply]
      split <;> rfl

namespace Events

open Search

/-- What a query about an issue asks of an event of that issue in the window: the phrase is found in
its message, and the hash of a tag is among those stored with it if the tag is required, and is not if
the tag is forbidden. -/
structure Answers (projectId issueId : Int) (query : String) (window : Window) (e : StoredEvent) :
    Prop where
  kept : e.deleted = false
  project : e.record.projectId = projectId
  issue : e.record.groupId = issueId
  start : window.start ≤ e.createdAt
  stop : e.createdAt < window.stop
  phrase : Text.FoundIn (compile query).phrase e.record.message
  filters : ∀ f ∈ (compile query).filters,
    f.tag.hash ∈ e.tags.map StoredTag.hash ↔ f.negated = false

variable {d : Deployment} {projectId issueId : Int} {query : String} {window : Window}

/-- A filter asks for the hash of its tag among those of the stored tags, or for its absence. -/
theorem meets_iff_hash {e : StoredEvent} {f : TagFilter} :
    e.meets f = true ↔ (f.tag.hash ∈ e.tags.map StoredTag.hash ↔ f.negated = false) := by
  rw [StoredEvent.meets_iff]
  simp [StoredEvent.hasTag]

/-- What is counted and listed are the events that answer the query, whatever page is asked for. -/
theorem mem_matching_query {log : EventLog} {offset limit : Int} {e : StoredEvent} :
    e ∈ log.matching (queryCriteria projectId issueId query window offset limit) ↔
      e ∈ log.events ∧ Answers projectId issueId query window e := by
  rw [EventLog.mem_matching, EventLog.visible, List.mem_filter, Bool.not_eq_true']
  constructor
  · rintro ⟨⟨hMem, hKept⟩, hIssue, hTime, hPhrase, hFilters, hProject⟩
    rw [Window.opens, Bool.and_eq_true, decide_eq_true_eq, decide_eq_true_eq] at hTime
    exact ⟨hMem, hKept, List.mem_singleton.mp hProject, hIssue, hTime.1, hTime.2, hPhrase,
      fun f hf => meets_iff_hash.mp (hFilters f hf)⟩
  · rintro ⟨hMem, h⟩
    have hTime : window.opens e.createdAt = true := by
      rw [Window.opens, decide_eq_true h.start, decide_eq_true h.stop]
      rfl
    exact ⟨⟨hMem, h.kept⟩, h.issue, hTime, h.phrase, fun f hf => meets_iff_hash.mpr (h.filters f hf),
      List.mem_singleton.mpr h.project⟩

/-- The events that answer a query, the newest first. -/
def answersIn (log : EventLog) (projectId issueId : Int) (query : String) (window : Window) :
    List StoredEvent :=
  newestFirst StoredEvent.createdAt StoredEvent.id
    (log.matching (queryCriteria projectId issueId query window 0 0))

theorem mem_answersIn {log : EventLog} {e : StoredEvent} :
    e ∈ answersIn log projectId issueId query window ↔
      e ∈ log.events ∧ Answers projectId issueId query window e :=
  (newestFirst_perm _ _ _).mem_iff.trans mem_matching_query

theorem pairwise_answersIn {log : EventLog} (hIds : (log.events.map StoredEvent.id).Nodup) :
    (answersIn log projectId issueId query window).Pairwise
      (ComesBefore StoredEvent.createdAt StoredEvent.id) := by
  refine pairwise_newestFirst (hIds.sublist (List.Sublist.map _ ?_))
  exact List.filter_sublist.trans List.filter_sublist

/-- A listing is a page of the events that answer the query, and tells how many they are. -/
theorem run_list_eq (hStaged : d.staged = []) (hThere : d.events.dropped = false)
    (offset limit : Int) :
    d.run (list (queryCriteria projectId issueId query window offset limit)) =
      (.ok ((answersIn d.events projectId issueId query window).length,
        page offset limit (answersIn d.events projectId issueId query window)), d) := by
  let c := queryCriteria projectId issueId query window offset limit
  have hCount := run_eventLog hStaged hThere (.countEvents c) fun _ => nofun
  have hList := run_eventLog hStaged hThere (.listEvents c) fun _ => nofun
  have hTotal : (answersIn d.events projectId issueId query window).length =
      d.events.countEvents c := (newestFirst_perm _ _ _).length_eq
  have hRun : d.run (list c) = d.run (listCounted c (d.events.countEvents c)) :=
    Program.run_bind hCount
  rw [hRun, ← hTotal, listCounted]
  split
  next hNone =>
    -- The second question is not asked, as there is nothing to list.
    rw [List.eq_nil_of_length_eq_zero hNone, page, List.drop_nil, List.take_nil, ite_self]
    rfl
  next => exact Program.run_bind hList

/-- The events that answer a query come in pages of any size.  No page is larger than that, and every
page tells how many events there are.  From the first page up to the first empty one, the events stand
strictly one after the other, the newest first and of those of one time the one with the larger number,
and each event of the log that answers the query stands there once. -/
theorem query_in_pages (hStaged : d.staged = []) (hThere : d.events.dropped = false)
    (hIds : (d.events.events.map StoredEvent.id).Nodup) (projectId issueId : Int) (query : String)
    (window : Window) {size : Nat} (hSize : 0 < size) :
    ∃ (pages : Nat → List StoredEvent) (total : Nat),
      (∀ k : Nat, d.run (list (queryCriteria projectId issueId query window (k * size) size)) =
        (.ok (total, pages k), d)) ∧
      (∀ k, (pages k).length ≤ size) ∧
      ∃ n, EndsAfter pages n ∧
        ((List.range n).flatMap pages).Pairwise
          (ComesBefore StoredEvent.createdAt StoredEvent.id) ∧
        ((List.range n).flatMap pages).Nodup ∧
        (∀ e, e ∈ (List.range n).flatMap pages ↔
          e ∈ d.events.events ∧ Answers projectId issueId query window e) ∧
        ((List.range n).flatMap pages).length = total := by
  let all := answersIn d.events projectId issueId query window
  let pages (k : Nat) : List StoredEvent := page ((k : Int) * size) size all
  obtain ⟨n, hEnds⟩ : ∃ n, EndsAfter pages n := exists_endsAfter_page hSize all
  have hAll : (List.range n).flatMap pages = all := hEnds.flatMap_page hSize
  have hOrdered : all.Pairwise (ComesBefore StoredEvent.createdAt StoredEvent.id) :=
    pairwise_answersIn hIds
  refine ⟨pages, all.length, fun k => run_list_eq hStaged hThere _ _, fun k => ?_, n, hEnds, ?_⟩
  · change (page ((k : Int) * size) size all).length ≤ size
    rw [page_mul]
    exact List.length_take_le _ _
  · rw [hAll]
    refine ⟨hOrdered, hOrdered.imp fun {a b} hBefore hSame => ?_, fun e => mem_answersIn, rfl⟩
    subst hSame
    exact hBefore.asymm hBefore

/-- Four events, of which the first three happened at the same time and one says something else. -/
def fourEvents : Deployment :=
  loggedDeployment [EventLog.taggedRecord "disk full" [], EventLog.taggedRecord "timeout" [],
    EventLog.taggedRecord "Disk slow" [], EventLog.taggedRecord "disk" []]

/-- Three events answer the query; on pages of two they are counted on every page. -/
theorem disks_in_pages :
    ∃ pages : Nat → List StoredEvent,
      (∀ k : Nat, fourEvents.run (list (queryCriteria 1 7 "disk" ⟨⟨1000⟩, ⟨2000⟩⟩ (k * 2) 2)) =
        (.ok (3, pages k), fourEvents)) ∧
      ∃ n, EndsAfter pages n ∧ ((List.range n).flatMap pages).length = 3 := by
  have hReached : fourEvents.events.Reached :=
    (((EventLog.Reached.empty.append _).append _).append _).append _
  have hCount :
      fourEvents.events.countEvents (queryCriteria 1 7 "disk" ⟨⟨1000⟩, ⟨2000⟩⟩ 0 2) = 3 := by
    decide +kernel
  obtain ⟨pages, total, hRuns, -, n, hEnds, -, -, -, hTotal⟩ :=
    query_in_pages (d := fourEvents) rfl rfl hReached.nodup_ids 1 7 "disk" ⟨⟨1000⟩, ⟨2000⟩⟩
      Nat.two_pos
  obtain ⟨events, hFirst⟩ := run_list (d := fourEvents) rfl rfl
    (queryCriteria 1 7 "disk" ⟨⟨1000⟩, ⟨2000⟩⟩ 0 2)
  have hSame : total = 3 := by
    have hZero : (Except.ok (_, events) : Except Failure _) = .ok (total, pages 0) :=
      hFirst.symm.trans (congrArg Prod.fst (hRuns 0))
    exact (congrArg Prod.fst (Except.ok.inj hZero)).symm.trans hCount
  rw [hSame] at hRuns hTotal
  exact ⟨pages, hRuns, n, hEnds, hTotal⟩

end Events
end Triage
