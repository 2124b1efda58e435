import Triage.Proofs.Event.Grouping
import Triage.Proofs.Registry.AlertRows

/-!
# How issues are marked as seen

An issue has been seen first and last at two times, its span (`Registry.span?`).  A request marks an
issue as seen if it updates it or stores it (`Moment.marks?`).  A task that takes in a report reads
the clock once, and each time that it marks an issue with is the one that it has read
(`Errand.marking_keeps`).  Of all that such a task asks, what marks an issue moves the end of its span
to that time, or begins its span with it, and nothing else changes a span (`span_perform`).
-/

namespace Triage

namespace Registry

variable {r s : Registry} {now : Instant} {freshUuid : String}

/-- The row of an issue. -/
def issue? (r : Registry) (id : Int) : Option Issue := r.issues.find? fun i => i.id = id

/-- When an issue was seen first and last. -/
def span? (r : Registry) (id : Int) : Option (Instant × Instant) :=
  (r.issue? id).map fun i => (i.firstSeen, i.lastSeen)

theorem span?_congr (h : s.issues = r.issues) (id : Int) : s.span? id = r.span? id := by
  rw [span?, issue?, h]
  rfl

/-- The span of a row. -/
theorem Keyed.span?_eq (h : r.Keyed) {i : Issue} (hMem : i ∈ r.issues) :
    r.span? i.id = some (i.firstSeen, i.lastSeen) := by
  rw [span?, issue?, find?_key_eq_some h.issues hMem]
  rfl

/-- Each span is that of a row. -/
theorem span?_eq_some {id : Int} {first last : Instant} (h : r.span? id = some (first, last)) :
    ∃ i ∈ r.issues, i.id = id ∧ i.firstSeen = first ∧ i.lastSeen = last := by
  obtain ⟨i, hFind, hIs⟩ := Option.map_eq_some_iff.mp h
  obtain ⟨hFirst, hLast⟩ := Prod.mk.inj hIs
  exact ⟨i, List.mem_of_find?_eq_some hFind, by simpa using List.find?_some hFind, hFirst, hLast⟩

/-- Marking an issue as seen moves the end of its span. -/
theorem updateLastSeen_span {id : Int} {change : IssueChange}
    (hRun : r.run now freshUuid (.updateLastSeen id change) = (.ok (), s)) :
    ∃ first last, r.span? id = some (first, last) ∧ ∀ other, s.span? other =
      if other = id then some (first, change.lastSeen) else r.span? other := by
  unfold run at hRun
  split at hRun
  · cases hRun
  simp only [apply, written] at hRun
  split at hRun
  next issues hUpdated =>
    obtain ⟨row, new, hFind, hNew, rfl⟩ := updatedRows_eq_ok.mp hUpdated
    obtain rfl := Except.ok.inj hNew
    obtain ⟨-, rfl⟩ := Prod.mk.inj hRun
    have hId : row.id = id := by simpa using List.find?_some hFind
    subst hId
    refine ⟨row.firstSeen, row.lastSeen, by rw [span?, issue?, hFind]; rfl, fun other => ?_⟩
    let marked : Issue := { row with
      lastSeen := change.lastSeen, message := change.message <|> row.message
      errorType := change.errorType <|> row.errorType, view := change.view <|> row.view }
    have hFound := @find?_key_update _ _ _ Issue.id _ marked _ hFind other
    simp only [span?, issue?, decide_eq_true_eq]
    rw [hFound]
    split <;> rfl
  · cases hRun

/-- Storing an issue begins its span. -/
theorem storeIssue_span {draft : IssueDraft} {i : Issue}
    (hRun : r.run now freshUuid (.storeIssue draft) = (.ok i, s)) :
    r.span? i.id = none ∧ ∀ other, s.span? other =
      if other = i.id then some (i.firstSeen, i.lastSeen) else r.span? other := by
  obtain ⟨rfl, -, hFree, -⟩ := storeIssue_eq hRun
  have hNone : r.issues.find? (fun row => decide (row.id = i.id)) = none := by
    rw [List.find?_eq_none]
    intro row hRow hId
    exact hFree (of_decide_eq_true hId ▸ List.mem_map_of_mem hRow)
  refine ⟨by rw [span?, issue?, hNone]; rfl, fun other => ?_⟩
  simp only [span?, issue?, List.find?_append]
  by_cases hOther : other = i.id
  · subst hOther
    simp [hNone]
  · simp [hOther, Ne.symm hOther]

end Registry

/-- The time with which an issue is marked as seen by a request: it is updated, or stored. -/
def Request.marks? (issueId : Int) : (q : Request) → Except Failure q.Reply → Option Instant
  | .registry (.updateLastSeen id change), .ok _ =>
    if id = issueId then some change.lastSeen else none
  | .registry (.storeIssue _), .ok issue =>
    if Issue.id issue = issueId then some (Issue.lastSeen issue) else none
  | _, _ => none

/-- The time with which an issue is marked as seen in a moment. -/
def Moment.marks? (m : Moment ι) (issueId : Int) : Option Instant :=
  m.request.marks? issueId m.reply

namespace Events

open Program Conduct

/-- What a request tells a task about the time. -/
def noteReading (s : Option Instant) (_ : Deployment) :
    (q : Request) → Except Failure q.Reply → Option Instant
  | .now, .ok time => some time
  | _, _ => s

/-- A task reads the clock once, and marks issues with the time that it has read only.  It does not
wait. -/
def mayMark (s : Option Instant) : Request → Prop
  | .now => s = none
  | .pause _ => False
  | .registry (.updateLastSeen _ change) => s = some change.lastSeen
  | .registry (.storeIssue draft) => ∃ time, s = some time ∧ draft.firstSeen = some time ∧
    draft.lastSeen = some time
  | .registry call => .issues ∉ call.writes
  | _ => True

/-- The conduct of a task as to times. -/
def marking : Conduct (Option Instant) := ⟨noteReading, mayMark⟩

variable {s : Option Instant} {time : Instant}

theorem Aside.marking {q : Request} (h : Aside q) : marking.Passes s q := by
  cases h <;> exact ⟨trivial, fun _ _ => rfl⟩

theorem report_marking (severity : Log.Severity) (component : Log.Component) (message : String)
    (subjects : List (String × Json)) (failure : Option Failure) :
    (report severity component message subjects failure).Asks (marking.Passes s) :=
  asks_request (Aside.record _).marking

theorem touch_marking (issueId : Int) : (touch issueId time).Asks (marking.Passes (some time)) :=
  asks_request ⟨rfl, fun _ _ => rfl⟩

theorem getIssue_marking (projectId : Int) (fingerprint : String) :
    (registry (.getIssue projectId fingerprint)).Asks (marking.Passes s) :=
  asks_request ⟨by simp [marking, mayMark, RegistryCall.writes], fun _ _ => rfl⟩

/-- The issue of a report is marked with the time that has been read. -/
theorem resolveIssue_marking (projectId : Int) (r : Report) :
    (resolveIssue projectId r time).Asks (marking.Passes (some time)) := by
  have hTouch : ∀ issue : Issue, (do touch issue.id time; return (issue, false) :
      Program (Issue × Bool)).Asks (marking.Passes (some time)) := fun issue =>
    (touch_marking issue.id).bind fun _ => asks_pure _
  have hFind : (findIssue projectId r.fingerprint).Asks (marking.Passes (some time)) := by
    unfold findIssue
    refine (getIssue_marking _ _).attempt_bind (fun _ => asks_pure _) fun e => ?_
    dsimp only
    split
    · exact asks_pure _
    · exact asks_throw _
  unfold resolveIssue
  refine hFind.bind fun found => ?_
  cases found with
  | some issue => exact hTouch issue
  | none =>
      refine Asks.attempt_bind (asks_request ⟨⟨time, rfl, rfl, rfl⟩, fun _ _ => rfl⟩)
        (fun issue => (report_marking ..).bind fun _ => asks_pure _) fun e => ?_
      dsimp only
      split
      · exact (asks_throw _).bind fun _ => (getIssue_marking ..).bind hTouch
      · exact (getIssue_marking ..).bind hTouch

theorem identifyIssue_marking (service : Intake) (projectId : Int) (r : Report) :
    (identifyIssue service projectId r time).Asks (marking.Passes (some time)) := by
  unfold identifyIssue
  refine (asks_request ⟨trivial, fun _ _ => rfl⟩).bind fun remembered => ?_
  cases (remembered : Option CachedIssue) with
  | some known => exact (touch_marking known.issueId).bind fun _ => asks_pure _
  | none =>
      refine (asks_request (Aside.guard service _).marking).bind fun _ => ?_
      refine ((resolveIssue_marking projectId r).ensure
        (asks_request (Aside.release service _).marking)).bind fun found => ?_
      exact (asks_request ⟨trivial, fun _ _ => rfl⟩).bind fun _ => asks_pure _

/-- Taking in a report reads the clock once, first of all. -/
theorem ingest_marking (service : Intake) (projectId : Int) (r : Report) (retentionDays : Int) :
    marking.Keeps (fun _ _ => True) none (ingest service projectId r retentionDays) := by
  unfold ingest inScope
  refine Keeps.bind (keeps_of_asks (asks_request (Aside.enter none).marking) ?_)
  rintro (e | before)
  · trivial
  refine Keeps.ensure_of_asks (Keeps.mono ?_ fun _ _ (_ : True) =>
    ⟨asks_request (Aside.leave before).marking, trivial, fun _ => trivial⟩)
  refine Keeps.bind (keeps_request rfl ?_)
  rintro before' (e | time)
  · trivial
  refine keeps_of_asks ?_ fun _ => trivial
  refine (identifyIssue_marking service projectId r).bind fun found => ?_
  refine (asks_request ⟨trivial, fun _ _ => rfl⟩).bind fun _ => ?_
  exact (report_marking ..).bind fun _ => asks_pure _

theorem Errand.marking_keeps (e : Errand) : marking.Keeps (fun _ _ => True) none e.program := by
  cases e with
  | takeIn service projectId r retentionDays =>
      refine Keeps.bind ((ingest_marking service projectId r retentionDays).mono ?_)
      rintro (e | receipt) s' - <;> trivial
  | flush =>
      refine keeps_of_asks ?_ fun _ => trivial
      exact (asks_request ⟨trivial, fun _ _ => rfl⟩).bind fun _ => asks_pure _

/-- An issue that is stored with a time is seen first and last at that time. -/
theorem complete_times {draft : IssueDraft} {id : Int} {now : Instant} {freshUuid : String}
    {i : Issue} (hRow : draft.complete id now freshUuid = .ok i) (hFirst : draft.firstSeen = some time)
    (hLast : draft.lastSeen = some time) : i.firstSeen = time ∧ i.lastSeen = time := by
  obtain ⟨_, _, _ | projectId, _ | fingerprint⟩ := draft
  case some.some =>
    obtain rfl := Except.ok.inj hRow
    dsimp only at hFirst hLast ⊢
    rw [hFirst, hLast]
    exact ⟨rfl, rfl⟩
  all_goals cases hRow

variable {d : Deployment} {q : Request}

/-- What a task has read does not change any more, and it reads the present time. -/
theorem noteReading_cases (hMay : mayMark s q) :
    noteReading s d q (d.perform q).1 = s ∧ q ≠ .now ∨
      q = .now ∧ s = none ∧ noteReading s d q (d.perform q).1 = some d.now := by
  cases q with
  | now => exact .inr ⟨rfl, hMay, rfl⟩
  | _ => exact .inl ⟨rfl, nofun⟩

/-- Of what a task asks, what marks an issue moves the end of its span to the time that was read, or
begins its span with it, and nothing else changes the span. -/
theorem span_perform (hUnit : d.openUnit = none) (hMay : mayMark s q) (issueId : Int) :
    q.marks? issueId (d.perform q).1 = none ∧
        (d.perform q).2.registry.span? issueId = d.registry.span? issueId ∨
      ∃ time first, s = some time ∧ q.marks? issueId (d.perform q).1 = some time ∧
        (d.perform q).2.registry.span? issueId = some (first, time) ∧
        (d.registry.span? issueId = none ∧ first = time ∨
          ∃ last, d.registry.span? issueId = some (first, last)) := by
  cases q with
  | registry call =>
      obtain ⟨e, hReply, hSame⟩ | ⟨reply, freshUuid, hReply, hRun⟩ := d.perform_call hUnit call
      · rw [hReply, hSame]
        exact .inl ⟨by cases call <;> rfl, rfl⟩
      rw [hReply]
      cases call with
      | updateLastSeen id change =>
          obtain ⟨first, last, hBefore, hAfter⟩ := Registry.updateLastSeen_span hRun
          by_cases hId : id = issueId
          · subst hId
            refine .inr ⟨change.lastSeen, first, hMay, if_pos rfl, ?_, .inr ⟨last, hBefore⟩⟩
            rw [hAfter, if_pos rfl]
          · refine .inl ⟨if_neg hId, ?_⟩
            rw [hAfter, if_neg (Ne.symm hId)]
      | storeIssue draft =>
          -- A new issue had no span, and its span begins and ends with the time that was read.
          obtain ⟨hFree, hAfter⟩ := Registry.storeIssue_span hRun
          obtain ⟨-, hRow, -, -⟩ := Registry.storeIssue_eq hRun
          obtain ⟨time, hRead, hFirst, hLast⟩ := hMay
          obtain ⟨hFirst', hLast'⟩ := complete_times hRow hFirst hLast
          by_cases hId : Issue.id reply = issueId
          · subst hId
            refine .inr ⟨time, time, hRead, ?_, ?_, .inl ⟨hFree, rfl⟩⟩
            · rw [Request.marks?, if_pos rfl, hLast']
            · rw [hAfter, if_pos rfl, hFirst', hLast']
          · refine .inl ⟨if_neg hId, ?_⟩
            rw [hAfter, if_neg (Ne.symm hId)]
      | _ =>
          have hRows := d.registry.run_sameRows d.now freshUuid _ (t := .issues) (by exact hMay)
          rw [hRun] at hRows
          exact .inl ⟨rfl, Registry.span?_congr hRows issueId⟩
  | _ => exact .inl ⟨rfl, congrArg (Registry.span? · issueId) (d.perform_registry hUnit rfl)⟩

end Events
end Triage
