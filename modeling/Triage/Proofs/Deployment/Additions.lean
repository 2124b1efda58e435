import Triage.Proofs.Deployment.Effects
import Triage.Proofs.Event.Remembering

/-!
# What a request adds

Events and cached issues are each added by requests of one kind: an append adds its record, which is
stored at once or put off, and remembering an issue adds an entry to the cache of a service.  All
other requests leave at most less (`perform_adds`).
-/

namespace Triage

theorem EventLog.mem_append {log : EventLog} {record : EventRecord} {e : StoredEvent}
    (h : e ∈ (log.run (.append record)).2.events) : e ∈ log.events ∨ e.record = record := by
  unfold EventLog.run at h
  split at h
  · exact .inl h
  · rcases List.mem_append.mp h with hOld | hNew
    · exact .inl hOld
    · obtain rfl := List.mem_singleton.mp hNew
      exact .inr rfl

namespace Deployment

variable {d : Deployment}

/-- A registry call changes nothing besides the tables, the unit of work on them and the count of
named issues. -/
theorem callRegistry_frame (d : Deployment) (call : RegistryCall) :
    ∃ registry openUnit issuesNamed,
      (d.callRegistry call).2 = { d with registry, openUnit, issuesNamed } := by
  unfold callRegistry
  dsimp only
  split
  · exact ⟨_, _, _, rfl⟩
  · cases call.takesUuid <;> split <;> try split
    all_goals exact ⟨_, _, _, rfl⟩

/-- The events that are stored or wait to be. -/
def eventRecords (d : Deployment) : List EventRecord :=
  d.events.events.map StoredEvent.record ++ d.waiting.map WaitingAppend.record

theorem mem_eventRecords {x : EventRecord} :
    x ∈ d.eventRecords ↔ (∃ e ∈ d.events.events, e.record = x) ∨ ∃ w ∈ d.waiting, w.record = x := by
  simp only [eventRecords, List.mem_append, List.mem_map]

/-- An append changes nothing besides the staged failures and the log, where it adds its record. -/
theorem appendEvent_frame (d : Deployment) (record : EventRecord) :
    ∃ staged events, (d.appendEvent record).2 = { d with staged, events } ∧
      ∀ e ∈ events.events, e ∈ d.events.events ∨ e.record = record := by
  obtain ⟨staged, hAfter⟩ := d.takeStaged_eq "analytics._insert"
  unfold appendEvent
  split
  next hTaken =>
    rw [hTaken] at hAfter
    exact ⟨staged, d.events, hAfter, fun e => .inl⟩
  next after hTaken =>
    rw [hTaken] at hAfter
    obtain rfl : after = { d with staged } := hAfter
    exact ⟨staged, _, rfl, fun e he => EventLog.mem_append he⟩

/-- Carrying out what was put off adds its record, and the failure of that is logged. -/
theorem carryOut_frame (d : Deployment) (w : WaitingAppend) :
    ∃ staged events records, d.carryOut w = { d with staged, events, records } ∧
      ∀ e ∈ events.events, e ∈ d.events.events ∨ e.record = w.record := by
  obtain ⟨staged, events, hAppend, hEvents⟩ := d.appendEvent_frame w.record
  unfold carryOut
  split <;> rename_i hEq <;> rw [hEq] at hAppend <;> dsimp only at hAppend <;> subst hAppend
  · exact ⟨_, _, _, rfl, hEvents⟩
  · exact ⟨_, _, _, rfl, hEvents⟩

/-- Flushing stores nothing that did not wait to be stored. -/
theorem flush_frame (d : Deployment) :
    ∃ staged events records, d.flush = { d with staged, events, records, waiting := [] } ∧
      ∀ e ∈ events.events, e ∈ d.events.events ∨ ∃ w ∈ d.waiting, e.record = w.record := by
  have hAll : ∀ (waiting : List WaitingAppend) (d : Deployment),
      ∃ staged events records, waiting.foldl carryOut d = { d with staged, events, records } ∧
        ∀ e ∈ events.events, e ∈ d.events.events ∨ ∃ w ∈ waiting, e.record = w.record := by
    intro waiting
    induction waiting with
    | nil => exact fun d => ⟨_, _, _, rfl, fun e => .inl⟩
    | cons w waiting ih =>
        intro d
        obtain ⟨_, _, _, hFirst, hNew⟩ := d.carryOut_frame w
        obtain ⟨_, _, _, hRest, hMore⟩ := ih (d.carryOut w)
        refine ⟨_, _, _, by rw [List.foldl_cons, hRest, hFirst], fun e he => ?_⟩
        rw [hFirst] at hMore
        rcases hMore e he with hBefore | ⟨v, hv, hRecord⟩
        · exact (hNew e hBefore).imp_right fun hRecord => ⟨w, List.mem_cons_self, hRecord⟩
        · exact .inr ⟨v, List.mem_cons_of_mem _ hv, hRecord⟩
  obtain ⟨_, _, _, hFlush, hEvents⟩ := hAll d.waiting { d with waiting := [] }
  exact ⟨_, _, _, hFlush, hEvents⟩

theorem noteChange_frame (d : Deployment) (change : RowChange) :
    ∃ registry, d.noteChange change = { d with registry } := by
  unfold noteChange
  split
  · exact ⟨_, rfl⟩
  · split <;> exact ⟨_, rfl⟩

theorem sendPost_frame (d : Deployment) (p : Webhook.Post) :
    ∃ posts outcomes, (d.sendPost p).2 = { d with posts, outcomes } := by
  unfold sendPost
  split
  · exact ⟨_, _, rfl⟩
  · split <;> exact ⟨_, _, rfl⟩

/-- An append that does not wait is carried out at once. -/
theorem callEventLog_append (hWait : d.appendsWait = false) (record : EventRecord) :
    d.callEventLog (.append record) = d.appendEvent record := by
  simp only [callEventLog, hWait, Bool.false_eq_true]
  rfl

theorem callEventLog_now (d : Deployment) (call : EventLogCall) :
    (d.callEventLog call).2.now = d.now := by
  cases call with
  | append record =>
      obtain ⟨staged, events, hAfter, -⟩ := d.appendEvent_frame record
      cases hWait : d.appendsWait with
      | true =>
          simp only [callEventLog, hWait]
          rfl
      | false => rw [callEventLog_append hWait, hAfter]
  | _ => rfl

/-- Time passes only in a pause. -/
theorem carryOutRequest_now (d : Deployment) (q : Request) :
    (d.carryOutRequest q).2.now = d.now ∨ ∃ micros, q = .pause micros ∧
      (d.carryOutRequest q).2.now = d.now.shift micros := by
  cases q with
  | registry call =>
      obtain ⟨registry, openUnit, issuesNamed, hCall⟩ := d.callRegistry_frame call
      rw [carryOutRequest, hCall]
      exact .inl rfl
  | eventLog call => exact .inl (d.callEventLog_now call)
  | flushEvents =>
      obtain ⟨staged, events, records, hFlush, -⟩ := d.flush_frame
      rw [carryOutRequest, hFlush]
      exact .inl rfl
  | noteChange change =>
      obtain ⟨registry, hNote⟩ := d.noteChange_frame change
      rw [carryOutRequest, hNote]
      exact .inl rfl
  | post p =>
      obtain ⟨posts, outcomes, hPost⟩ := d.sendPost_frame p
      rw [carryOutRequest, hPost]
      exact .inl rfl
  | startWorker instanceId =>
      simp only [carryOutRequest]
      split <;> exact .inl rfl
  | pause micros => exact .inr ⟨micros, rfl, rfl⟩
  | _ => exact .inl rfl

/-- A request that is no pause backwards does not let the time go back. -/
theorem perform_now_le (d : Deployment) {q : Request}
    (hPause : ∀ micros, q = .pause micros → 0 ≤ micros) : d.now ≤ (d.perform q).2.now := by
  obtain ⟨e, staged, hFail⟩ | ⟨staged, hDone⟩ := d.perform_eq q
  · rw [hFail]
    exact Int.le_refl _
  · rw [hDone]
    obtain hSame | ⟨micros, hEq, hLater⟩ := { d with staged }.carryOutRequest_now q
    · rw [hSame]
      exact Int.le_refl _
    · rw [hLater]
      exact Int.le_add_of_nonneg_right (hPause micros hEq)

/-- What is in a deployment after a request was there before, or the request has added it. -/
structure Adds (q : Request) (d after : Deployment) : Prop where
  records : ∀ x ∈ after.eventRecords, x ∈ d.eventRecords ∨ q = .eventLog (.append x)
  entries : ∀ n, ∀ e ∈ (after.caches n).entries, e ∈ (d.caches n).entries ∨
    ∃ service, service.number = n ∧ q = .addCached service e.key e.issueId e.issueUuid

/-- A deployment with the same events and caches. -/
theorem Adds.of_same {q : Request} {after : Deployment} (hEvents : after.events = d.events)
    (hWaiting : after.waiting = d.waiting) (hCaches : after.caches = d.caches) : Adds q d after where
  records x hx := by
    rw [eventRecords, hEvents, hWaiting] at hx
    exact .inl hx
  entries n e he := by
    rw [hCaches] at he
    exact .inl he

/-- A deployment with the same caches. -/
theorem Adds.of_records {q : Request} {after : Deployment}
    (hRecords : ∀ x ∈ after.eventRecords, x ∈ d.eventRecords ∨ q = .eventLog (.append x))
    (hCaches : after.caches = d.caches) : Adds q d after :=
  ⟨hRecords, fun _ _ he => .inl (hCaches ▸ he)⟩

theorem callEventLog_adds (d : Deployment) (call : EventLogCall) :
    Adds (.eventLog call) d (d.callEventLog call).2 := by
  cases call with
  | append record =>
      cases hWait : d.appendsWait with
      | true =>
          simp only [callEventLog, hWait]
          refine .of_records (fun x hx => ?_) rfl
          rw [mem_eventRecords] at hx ⊢
          rcases hx with hStored | ⟨w, hw, hRecord⟩
          · exact .inl (.inl hStored)
          · rcases List.mem_append.mp hw with hOld | hNew
            · exact .inl (.inr ⟨w, hOld, hRecord⟩)
            · obtain rfl := List.mem_singleton.mp hNew
              exact .inr (hRecord ▸ rfl)
      | false =>
          obtain ⟨staged, events, hAfter, hEvents⟩ := d.appendEvent_frame record
          rw [callEventLog_append hWait, hAfter]
          refine .of_records (fun x hx => ?_) rfl
          rw [mem_eventRecords] at hx ⊢
          rcases hx with ⟨e, he, rfl⟩ | hWaiting
          · rcases hEvents e he with hOld | hNew
            · exact .inl (.inl ⟨e, hOld, rfl⟩)
            · exact .inr (by rw [hNew])
          · exact .inl (.inr hWaiting)
  | _ =>
      refine .of_same ?_ rfl rfl
      simp only [callEventLog, EventLog.run]
      split <;> rfl

theorem flush_adds (d : Deployment) : Adds .flushEvents d d.flush := by
  obtain ⟨staged, events, records, hFlush, hEvents⟩ := d.flush_frame
  refine .of_records (fun x hx => .inl ?_) (by rw [hFlush])
  rw [hFlush, mem_eventRecords] at hx
  rw [mem_eventRecords]
  rcases hx with ⟨e, he, rfl⟩ | ⟨w, hw, -⟩
  · exact (hEvents e he).imp (fun hOld => ⟨e, hOld, rfl⟩) fun ⟨w, hw, hRecord⟩ =>
      ⟨w, hw, hRecord.symm⟩
  · cases hw

/-- A change to the cache of one service. -/
theorem withCache_adds {q : Request} (d : Deployment) (service : Intake)
    (change : IssueCache → IssueCache)
    (hChange : ∀ e ∈ (change (d.caches service.number)).entries,
      e ∈ (d.caches service.number).entries ∨ q = .addCached service e.key e.issueId e.issueUuid) :
    Adds q d (d.withCache service change) where
  records x hx := .inl hx
  entries n e he := by
    simp only [withCache] at he
    split at he
    next hService =>
      subst hService
      exact (hChange e he).imp_right fun hNew => ⟨service, rfl, hNew⟩
    next => exact .inl he

theorem carryOutRequest_adds (d : Deployment) (q : Request) :
    Adds q d (d.carryOutRequest q).2 := by
  cases q with
  | registry call =>
      obtain ⟨registry, openUnit, issuesNamed, hCall⟩ := d.callRegistry_frame call
      rw [carryOutRequest, hCall]
      exact .of_same rfl rfl rfl
  | eventLog call => exact d.callEventLog_adds call
  | flushEvents => exact d.flush_adds
  | noteChange change =>
      obtain ⟨registry, hNote⟩ := d.noteChange_frame change
      rw [carryOutRequest, hNote]
      exact .of_same rfl rfl rfl
  | post p =>
      obtain ⟨posts, outcomes, hPost⟩ := d.sendPost_frame p
      rw [carryOutRequest, hPost]
      exact .of_same rfl rfl rfl
  | findCached service key =>
      have hFewer := (IssueCache.find_cases (d.caches service.number) service.policy d.elapsed key).1
      exact d.withCache_adds service (fun _ => _) fun e he => .inl (hFewer e he)
  | addCached service key issueId issueUuid =>
      refine d.withCache_adds service (·.add service.policy d.elapsed key issueId issueUuid)
        fun e he => ?_
      rcases IssueCache.mem_add he with hOld | rfl
      · exact .inl hOld
      · exact .inr rfl
  | guardKey service key => exact d.withCache_adds service (·.guard key) fun e he => .inl he
  | releaseKey service key => exact d.withCache_adds service (·.release key) fun e he => .inl he
  | startWorker instanceId =>
      simp only [carryOutRequest]
      split <;> exact .of_same rfl rfl rfl
  | _ => exact .of_same rfl rfl rfl

/-- Every request adds at most what it asks to be added. -/
theorem perform_adds (d : Deployment) (q : Request) : Adds q d (d.perform q).2 := by
  obtain ⟨e, staged, hFail⟩ | ⟨staged, hDone⟩ := d.perform_eq q
  · rw [hFail]
    exact .of_same rfl rfl rfl
  · rw [hDone]
    obtain ⟨hRecords, hEntries⟩ := { d with staged }.carryOutRequest_adds q
    exact ⟨hRecords, hEntries⟩

end Deployment
end Triage
