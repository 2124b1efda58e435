import Triage.Proofs.Deployment.Conduct
import Triage.Proofs.Registry.Issues

/-!
# What taking in a report asks

Taking in a report, followed request by request.  A `Clue` is what the replies tell: identifiers of
the issue of the report, from a look-up, a cache or the issue that was just stored, and whether it
was just stored.  Only issues of the report's own group are looked up, stored and remembered, and
only identifiers that were told are remembered and written into the event (`Errand.program_keeps`).
Nothing is assumed of the replies, so this holds among other tasks as well.
-/

namespace Triage.Events

open Program Conduct

/-- What taking in a report asks besides the stores and the entries of the cache. -/
inductive Aside : Request → Prop
  | enter (id : Option String) : Aside (.enterScope id)
  | leave (before : Option String) : Aside (.leaveScope before)
  | record (entry : Log.Entry) : Aside (.record entry)
  | guard (service : Intake) (key : String) : Aside (.guardKey service key)
  | release (service : Intake) (key : String) : Aside (.releaseKey service key)

/-- What a task of the event services does: it takes in a report, or has the appends carried out
that were put off. -/
inductive Errand where
  | takeIn (service : Intake) (projectId : Int) (report : Report) (retentionDays : Int)
  | flush

/-- What the requests of a task tell about it: identifiers of the issue of its report, and whether
it has stored the issue itself. -/
structure Clue where
  told : List (Int × String)
  created : Bool

namespace Clue

/-- Nothing has been asked yet. -/
def initial : Clue := ⟨[], false⟩

/-- What is known after a request and its reply. -/
def note (s : Clue) (_ : Deployment) : (q : Request) → Except Failure q.Reply → Clue
  | .registry (.getIssue ..), .ok issue =>
    { s with told := (Issue.id issue, Issue.uuid issue) :: s.told }
  | .registry (.storeIssue _), .ok issue => ⟨(Issue.id issue, Issue.uuid issue) :: s.told, true⟩
  | .findCached .., .ok (some known) => { s with told := (known.issueId, known.issueUuid) :: s.told }
  | _, _ => s

/-- The reply to a request tells the identifiers of an issue. -/
inductive Tells : (q : Request) → Except Failure q.Reply → Int × String → Prop
  | found (projectId : Int) (fingerprint : String) (issue : Issue) :
      Tells (.registry (.getIssue projectId fingerprint)) (.ok issue) (issue.id, issue.uuid)
  | stored (draft : IssueDraft) (issue : Issue) :
      Tells (.registry (.storeIssue draft)) (.ok issue) (issue.id, issue.uuid)
  | remembered (service : Intake) (key : String) (known : CachedIssue) :
      Tells (.findCached service key) (.ok (some known)) (known.issueId, known.issueUuid)

/-- Nothing is known but what was told. -/
theorem mem_told_note {s : Clue} {d : Deployment} {q : Request} {reply : Except Failure q.Reply}
    {t : Int × String} (ht : t ∈ (s.note d q reply).told) : t ∈ s.told ∨ Tells q reply t := by
  unfold note at ht
  split at ht
  · rcases List.mem_cons.mp ht with rfl | hOld
    · exact .inr (.found _ _ _)
    · exact .inl hOld
  · rcases List.mem_cons.mp ht with rfl | hOld
    · exact .inr (.stored _ _)
    · exact .inl hOld
  · rcases List.mem_cons.mp ht with rfl | hOld
    · exact .inr (.remembered _ _ _)
    · exact .inl hOld
  · exact .inl ht

end Clue

namespace Errand

/-- The program of an errand; only a report that is taken in has a receipt. -/
def program : Errand → Program (Option Receipt)
  | .takeIn service projectId r retentionDays => do
    return some (← ingest service projectId r retentionDays)
  | .flush => do
    request .flushEvents
    return none

/-- The project and the fingerprint of the report. -/
def group? : Errand → Option (Int × String)
  | .takeIn _ projectId r _ => some (projectId, r.fingerprint)
  | .flush => none

/-- The service that takes in the report. -/
def service? : Errand → Option Intake
  | .takeIn service .. => some service
  | .flush => none

/-- The event of the report in an issue. -/
def event? (e : Errand) (issueId : Int) (issueUuid : String) : Option EventRecord :=
  match e with
  | .takeIn _ projectId r retentionDays => some (eventOf projectId issueId issueUuid r retentionDays)
  | .flush => none

/-- What may be asked on an errand. -/
def mayAsk (e : Errand) (s : Clue) : Request → Prop
  | .registry (.getIssue projectId fingerprint) => e.group? = some (projectId, fingerprint)
  | .registry (.storeIssue draft) => ∃ projectId fingerprint, e.group? = some (projectId, fingerprint) ∧
    draft.projectId = some projectId ∧ draft.fingerprint = some fingerprint
  | .registry (.updateLastSeen ..) => True
  | .registry _ => False
  | .eventLog (.append record) => ∃ issueId issueUuid, (issueId, issueUuid) ∈ s.told ∧
    e.event? issueId issueUuid = some record
  | .findCached _ key => ∃ projectId fingerprint, e.group? = some (projectId, fingerprint) ∧
    key = cacheKey projectId fingerprint
  | .addCached service key issueId issueUuid => (issueId, issueUuid) ∈ s.told ∧
    e.service? = some service ∧ ∃ projectId fingerprint,
      e.group? = some (projectId, fingerprint) ∧ key = cacheKey projectId fingerprint
  | .flushEvents => e = .flush
  | q => q = .now ∨ Aside q

/-- The conduct on an errand. -/
def conduct (e : Errand) : Conduct Clue := ⟨Clue.note, e.mayAsk⟩

variable {service : Intake} {projectId : Int} {r : Report} {retentionDays : Int} {e : Errand} {s : Clue}

theorem aside_passes {q : Request} (h : Aside q) : e.conduct.Passes s q := by
  cases h <;> exact ⟨.inr (by constructor), fun _ _ => rfl⟩

/-- What a registry call tells is an issue of the group of the errand, which was in the tables, or
is the first one of its group. -/
theorem told_by_call {call : RegistryCall} {reply : call.Reply} {r tables : Registry}
    {now : Instant} {freshUuid : String} {t : Int × String} (hMay : e.mayAsk s (.registry call))
    (hRun : r.run now freshUuid call = (.ok reply, tables))
    (hTells : Clue.Tells (.registry call) (.ok reply) t) :
    ∃ x ∈ tables.identities, (x.id, x.uuid) = t ∧ e.group? = some x.group ∧
      (x ∈ r.identities ∨ x.group ∉ r.identities.map Issue.Identity.group) := by
  cases hTells with
  | found projectId fingerprint issue =>
      obtain ⟨rfl, hMem, hGroup⟩ := Registry.getIssue_eq hRun
      exact ⟨issue.identity, hMem, rfl, hMay.trans (congrArg some hGroup.symm), .inl hMem⟩
  | stored draft issue =>
      obtain ⟨rfl, hRow, -, hFree⟩ := Registry.storeIssue_eq hRun
      obtain ⟨-, -, hProject, hPrint⟩ := IssueDraft.complete_identity hRow
      obtain ⟨projectId, fingerprint, hGroup, hProject', hPrint'⟩ := hMay
      obtain rfl := Option.some.inj (hProject'.symm.trans hProject)
      obtain rfl := Option.some.inj (hPrint'.symm.trans hPrint)
      exact ⟨issue.identity, List.mem_map_of_mem List.mem_concat_self, rfl, hGroup, .inr hFree⟩

theorem touch_passes (issueId : Int) (time : Instant) :
    (touch issueId time).Asks (e.conduct.Passes s) :=
  asks_request ⟨trivial, fun _ _ => rfl⟩

theorem report_passes (severity : Log.Severity) (component : Log.Component) (message : String)
    (subjects : List (String × Json)) (failure : Option Failure) :
    (report severity component message subjects failure).Asks (e.conduct.Passes s) :=
  asks_request (aside_passes (.record _))

/-- An issue that is looked up has been told. -/
theorem getIssue_keeps :
    (takeIn service projectId r retentionDays).conduct.Keeps
      (fun outcome s' => ∀ issue : Issue, outcome = .ok issue → (issue.id, issue.uuid) ∈ s'.told) s
      (registry (.getIssue projectId r.fingerprint)) := by
  refine keeps_request rfl ?_
  rintro before (failure | found) issue hOk
  · cases hOk
  · obtain rfl := Except.ok.inj hOk
    exact List.mem_cons_self

theorem findIssue_keeps :
    (takeIn service projectId r retentionDays).conduct.Keeps
      (fun outcome s' => ∀ issue, outcome = .ok (some issue) → (issue.id, issue.uuid) ∈ s'.told) s
      (findIssue projectId r.fingerprint) := by
  unfold findIssue
  refine Keeps.bind (Keeps.attempt (getIssue_keeps.mono ?_))
  rintro (failure | found) s' hTold
  · dsimp only
    split <;> exact fun issue hOk => by cases hOk
  · intro issue hOk
    obtain rfl := Option.some.inj (Except.ok.inj hOk)
    exact hTold _ rfl

/-- The issue that is found or stored has been told, and it was stored if it counts as created. -/
theorem resolveIssue_keeps (time : Instant) :
    (takeIn service projectId r retentionDays).conduct.Keeps
      (fun outcome s' => ∀ found, outcome = .ok found →
        (found.1.id, found.1.uuid) ∈ s'.told ∧ (found.2 = true → s'.created = true)) s
      (resolveIssue projectId r time) := by
  -- An issue that was told is marked as seen and is not a created one.
  have hTouch : ∀ {s : Clue} (issue : Issue), (issue.id, issue.uuid) ∈ s.told →
      (takeIn service projectId r retentionDays).conduct.Keeps
        (fun outcome s' => ∀ found, outcome = .ok found →
          (found.1.id, found.1.uuid) ∈ s'.told ∧ (found.2 = true → s'.created = true)) s
        (do touch issue.id time; return (issue, false)) := fun issue hTold => by
    refine Keeps.bind (keeps_of_asks (touch_passes issue.id time) ?_)
    rintro (failure | _) found hOk
    · cases hOk
    · obtain rfl := Except.ok.inj hOk
      exact ⟨hTold, fun hCreated => by cases hCreated⟩
  unfold resolveIssue
  refine Keeps.bind (findIssue_keeps.mono ?_)
  rintro (failure | _ | issue) s' hTold
  · exact fun found hOk => by cases hOk
  · refine Keeps.bind (Keeps.attempt (keeps_request ⟨projectId, r.fingerprint, rfl, rfl, rfl⟩ ?_))
    rintro before (failure | issue)
    · dsimp only
      split
      · exact Keeps.bind (fun found hOk => by cases hOk)
      · refine Keeps.bind (getIssue_keeps.mono ?_)
        rintro (failure | issue) s'' hTold'
        · exact fun found hOk => by cases hOk
        · exact hTouch issue (hTold' issue rfl)
    · refine Keeps.bind (keeps_of_asks (report_passes ..) ?_)
      rintro (failure | _) found hOk
      · cases hOk
      · obtain rfl := Except.ok.inj hOk
        exact ⟨List.mem_cons_self, fun _ => rfl⟩
  · exact hTouch issue (hTold issue rfl)

theorem identifyIssue_keeps (time : Instant) :
    (takeIn service projectId r retentionDays).conduct.Keeps
      (fun outcome s' => ∀ found, outcome = .ok found →
        (found.1, found.2.1) ∈ s'.told ∧ (found.2.2 = true → s'.created = true)) s
      (identifyIssue service projectId r time) := by
  unfold identifyIssue
  refine Keeps.bind (keeps_request ⟨projectId, r.fingerprint, rfl, rfl⟩ ?_)
  rintro before (failure | _ | known)
  · exact fun found hOk => by cases hOk
  · refine Keeps.bind (keeps_of_asks (asks_request (aside_passes (.guard service _))) ?_)
    rintro (failure | _)
    · exact fun found hOk => by cases hOk
    refine Keeps.bind (Keeps.ensure ((resolveIssue_keeps time).mono fun outcome s' hFound => ?_))
    refine keeps_of_asks (asks_request (aside_passes (.release service _))) ?_
    rintro (failure | _)
    · exact fun found hOk => by cases hOk
    dsimp only
    cases outcome with
    | error failure => exact fun found hOk => by cases hOk
    | ok resolved =>
        obtain ⟨hTold, hCreated⟩ := hFound resolved rfl
        refine Keeps.bind (keeps_request ⟨hTold, rfl, projectId, r.fingerprint, rfl, rfl⟩ ?_)
        rintro before (failure | _) found hOk
        · cases hOk
        · obtain rfl := Except.ok.inj hOk
          exact ⟨hTold, hCreated⟩
  · refine Keeps.bind (keeps_of_asks (touch_passes known.issueId time) ?_)
    rintro (failure | _) found hOk
    · cases hOk
    · obtain rfl := Except.ok.inj hOk
      exact ⟨List.mem_cons_self, fun hCreated => by cases hCreated⟩

/-- Only who has stored the issue of a report has a receipt that says so. -/
theorem ingest_keeps :
    (takeIn service projectId r retentionDays).conduct.Keeps
      (fun outcome s' => ∀ receipt, outcome = .ok receipt → receipt.createdIssue = true →
        s'.created = true) s
      (ingest service projectId r retentionDays) := by
  unfold ingest inScope
  refine Keeps.bind (keeps_of_asks (asks_request (aside_passes (.enter none))) ?_)
  rintro (failure | before)
  · exact fun receipt hOk => by cases hOk
  -- Leaving the scope changes nothing that is known.
  refine Keeps.ensure_of_asks (Keeps.mono ?_ fun outcome s' hReceipt =>
    ⟨asks_request (aside_passes (.leave before)), hReceipt, fun e receipt hOk => by cases hOk⟩)
  refine Keeps.bind (keeps_of_asks (asks_request ⟨.inl rfl, fun _ _ => rfl⟩) ?_)
  rintro (failure | time)
  · exact fun receipt hOk => by cases hOk
  refine Keeps.bind ((identifyIssue_keeps time).mono ?_)
  rintro (failure | found) s' hFound
  · exact fun receipt hOk => by cases hOk
  obtain ⟨hTold, hCreated⟩ := hFound found rfl
  refine Keeps.bind (keeps_request ⟨found.1, found.2.1, hTold, rfl⟩ ?_)
  rintro before' (failure | _)
  · exact fun receipt hOk => by cases hOk
  refine Keeps.bind (keeps_of_asks (report_passes ..) ?_)
  rintro (failure | _) receipt hOk
  · cases hOk
  · obtain rfl := Except.ok.inj hOk
    exact hCreated

/-- Every errand keeps to its conduct. -/
theorem program_keeps (e : Errand) :
    e.conduct.Keeps (fun outcome s' => ∀ receipt, outcome = .ok (some receipt) →
      receipt.createdIssue = true → s'.created = true) s e.program := by
  cases e with
  | takeIn service projectId r retentionDays =>
      refine Keeps.bind (ingest_keeps.mono ?_)
      rintro (failure | receipt) s' hReceipt found hOk
      · cases hOk
      · obtain rfl := Option.some.inj (Except.ok.inj hOk)
        exact hReceipt _ rfl
  | flush =>
      refine Keeps.bind (keeps_of_asks (asks_request ⟨rfl, fun _ _ => rfl⟩) ?_)
      rintro (failure | _) receipt hOk <;> cases hOk

end Errand
end Triage.Events
