import Triage.Alert.Worker
import Triage.Event.Ingestion
import Triage.Proofs.Deployment.Running
import Triage.Proofs.Event.Errands
import Triage.Proofs.Event.Remembering

/-!
# How events are filed

Every stored event belongs to an issue of its project that was last seen no earlier than the event
happened, whether the issue was looked up, created or remembered (`Deployment.Coherent`).  Taking in
a report keeps this, provided that the report is not from the future (`Coherent.ingest`), because
the issue is marked as seen before the event is appended.
-/

namespace Triage

open Program Events

namespace Deployment

/-- What holds between the issues, the events and the caches when nothing is on its way. -/
structure Coherent (d : Deployment) : Prop extends d.Quiet where
  waits : d.appendsWait = false
  logThere : d.events.dropped = false
  keyed : d.registry.Keyed
  evaluated : ∀ a ∈ d.registry.alerts, a.isEvaluated = true
  seen : ∀ i ∈ d.registry.issues, i.lastSeen ≤ d.now
  filed : ∀ e ∈ d.events.events, e.deleted = false ∧ ∃ i ∈ d.registry.issues,
    i.id = e.record.groupId ∧ i.projectId = e.record.projectId ∧ e.createdAt ≤ i.lastSeen
  cached : ∀ n, ∀ e ∈ (d.caches n).entries, ∃ i ∈ d.registry.issues,
    i.id = e.issueId ∧ cacheKey i.projectId i.fingerprint = e.key

/-- An issue stands under a key. -/
def Holds (d : Deployment) (key : String) (id : Int) : Prop :=
  ∃ i ∈ d.registry.issues, i.id = id ∧ cacheKey i.projectId i.fingerprint = key

/-- An issue stands under a key and was seen just now. -/
def Saw (d : Deployment) (key : String) (id : Int) : Prop :=
  ∃ i ∈ d.registry.issues, i.id = id ∧ cacheKey i.projectId i.fingerprint = key ∧
    i.lastSeen = d.now

end Deployment

/-- Run by itself, a program leaves a coherent deployment at the same time, and what it returns is
good. -/
def Program.Files (p : Program α) (d : Deployment) (good : α → Deployment → Prop) : Prop :=
  p.Ends d fun outcome after =>
    after.Coherent ∧ after.now = d.now ∧ ∀ a, outcome = .ok a → good a after

/-- Issues after a change that forgets none, moves none to another key and takes no time back. -/
def Issue.Kept (before after : List Issue) : Prop :=
  ∀ i ∈ before, ∃ j ∈ after, j.id = i.id ∧ j.projectId = i.projectId ∧
    j.fingerprint = i.fingerprint ∧ i.lastSeen ≤ j.lastSeen

theorem Issue.Kept.rfl {issues : List Issue} : Issue.Kept issues issues :=
  fun i hi => ⟨i, hi, Eq.refl _, Eq.refl _, Eq.refl _, Int.le_refl _⟩

/-- Writing over an issue with one of the same key that was seen no earlier. -/
theorem Issue.Kept.overwritten {issues : List Issue} {id : Int} {row new : Issue}
    (hKeys : (issues.map Issue.id).Nodup)
    (hFind : issues.find? (fun i => decide (i.id = id)) = some row) (hId : new.id = row.id)
    (hProject : new.projectId = row.projectId) (hPrint : new.fingerprint = row.fingerprint)
    (hLater : row.lastSeen ≤ new.lastSeen) :
    Issue.Kept issues (issues.map fun i => if decide (i.id = id) then new else i) := by
  intro i hi
  refine ⟨_, List.mem_map_of_mem hi, ?_⟩
  by_cases hMeant : i.id = id
  · obtain rfl := eq_of_find?_key hKeys hFind hi hMeant
    rw [if_pos (decide_eq_true hMeant)]
    exact ⟨hId, hProject, hPrint, hLater⟩
  · rw [if_neg (by simpa using hMeant)]
    exact ⟨Eq.refl _, Eq.refl _, Eq.refl _, Int.le_refl _⟩

namespace Program

variable {d : Deployment}

theorem Files.bind {good : α → Deployment → Prop} {better : β → Deployment → Prop} {p : Program α}
    {f : α → Program β} (hp : p.Files d good)
    (hNext : ∀ a after, after.Coherent → after.now = d.now → good a after →
      (f a).Files after better) : (p >>= f).Files d better := by
  refine Ends.bind hp (fun e after h => ⟨h.1, h.2.1, fun b hOk => by cases hOk⟩) ?_
  intro a after h
  refine (hNext a after h.1 h.2.1 (h.2.2 a rfl)).mono fun outcome final hFinal => ?_
  exact ⟨hFinal.1, hFinal.2.1.trans h.2.1, hFinal.2.2⟩

theorem files_pure {good : α → Deployment → Prop} {a : α} (h : d.Coherent) (hGood : good a d) :
    (pure a : Program α).Files d good :=
  ⟨h, rfl, fun b hOk => by cases hOk; exact hGood⟩

theorem files_throw {good : α → Deployment → Prop} (h : d.Coherent) (e : Failure) :
    (throw e : Program α).Files d good :=
  ⟨h, rfl, fun b hOk => by cases hOk⟩

theorem Files.attempt {good : α → Deployment → Prop} {p : Program α} (hp : p.Files d good) :
    p.attempt.Files d fun outcome after => ∀ a, outcome = .ok a → good a after :=
  Ends.attempt (hp.mono fun outcome after h => ⟨h.1, h.2.1, fun o hOk => by cases hOk; exact h.2.2⟩)

/-- A last step that leaves what is good as it is. -/
theorem Files.ensure {good : α → Deployment → Prop} {p : Program α} {last : Program Unit}
    (hp : p.Files d good)
    (hLast : ∀ after : Deployment, after.Coherent →
      last.Files after fun _ final => ∀ a, good a after → good a final) :
    (p.ensure last).Files d good := by
  refine Ends.ensure hp fun outcome after h => (hLast after h.1).mono fun ended final hFinal => ?_
  cases ended with
  | error e => exact ⟨hFinal.1, hFinal.2.1.trans h.2.1, fun a hOk => by cases hOk⟩
  | ok _ =>
      refine ⟨hFinal.1, hFinal.2.1.trans h.2.1, fun a hOk => ?_⟩
      exact hFinal.2.2 () rfl a (h.2.2 a hOk)

end Program

namespace Deployment.Coherent

variable {d : Deployment}

/-- A deployment with another registry. -/
theorem withRegistry (h : d.Coherent) {registry : Registry} (issuesNamed : Nat)
    (hThere : registry.dropped = false) (hKeyed : registry.Keyed)
    (hEvaluated : ∀ a ∈ registry.alerts, a.isEvaluated = true)
    (hSeen : ∀ i ∈ registry.issues, i.lastSeen ≤ d.now)
    (hKept : Issue.Kept d.registry.issues registry.issues) :
    ({ d with registry, issuesNamed } : Deployment).Coherent where
  unit := h.unit
  staged := h.staged
  waits := h.waits
  there := hThere
  logThere := h.logThere
  keyed := hKeyed
  evaluated := hEvaluated
  seen := hSeen
  filed e he := by
    obtain ⟨hDeleted, i, hi, hId, hProject, hTime⟩ := h.filed e he
    obtain ⟨j, hj, hId', hProject', -, hLater⟩ := hKept i hi
    exact ⟨hDeleted, j, hj, hId'.trans hId, hProject'.trans hProject, Int.le_trans hTime hLater⟩
  cached n e he := by
    obtain ⟨i, hi, hId, hKey⟩ := h.cached n e he
    obtain ⟨j, hj, hId', hProject', hPrint, -⟩ := hKept i hi
    exact ⟨j, hj, hId'.trans hId, by rw [hProject', hPrint, hKey]⟩

/-- A deployment with fewer entries, or entries under the keys of their issues. -/
theorem withCaches (h : d.Coherent) {caches : Nat → IssueCache}
    (hCached : ∀ n, ∀ e ∈ (caches n).entries, e ∈ (d.caches n).entries ∨ d.Holds e.key e.issueId) :
    ({ d with caches } : Deployment).Coherent where
  unit := h.unit
  staged := h.staged
  waits := h.waits
  there := h.there
  logThere := h.logThere
  keyed := h.keyed
  evaluated := h.evaluated
  seen := h.seen
  filed := h.filed
  cached n e he := (hCached n e he).elim (h.cached n e) id

/-- A registry call: one that fails changes nothing that matters here, and one that succeeds has to
leave what follows from its effect on the tables. -/
theorem call_files (h : d.Coherent) (call : RegistryCall) {good : call.Reply → Deployment → Prop}
    (hDone : ∀ freshUuid reply registry issuesNamed,
      d.registry.apply d.now freshUuid call = (.ok reply, registry) → registry.Keyed →
        registry.dropped = false →
          ({ d with registry, issuesNamed } : Deployment).Coherent ∧
            good reply { d with registry, issuesNamed }) :
    (Program.registry call).Files d good := by
  refine ends_request ?_
  obtain ⟨issuesNamed, hPerform⟩ := h.toQuiet.perform_call call
  rw [hPerform]
  cases hApply : d.registry.apply d.now d.nextUuid call with
  | mk reply registry =>
      cases reply with
      | error e =>
          exact ⟨h.withRegistry issuesNamed h.there h.keyed h.evaluated h.seen .rfl, rfl,
            fun a hOk => by cases hOk⟩
      | ok reply =>
          have hKeyed := h.keyed.run d.now d.nextUuid call
          have hThere := d.registry.run_dropped d.now d.nextUuid call
          rw [Registry.run_eq_apply h.there, hApply] at hKeyed hThere
          obtain ⟨hCoherent, hGood⟩ := hDone d.nextUuid reply registry issuesNamed hApply hKeyed
            (hThere.trans h.there)
          exact ⟨hCoherent, rfl, fun a hOk => by cases hOk; exact hGood⟩

/-- Marking an issue as seen. -/
theorem touch_files (h : d.Coherent) {key : String} {id : Int} (hHolds : d.Holds key id) :
    (touch id d.now).Files d fun _ after => after.Saw key id := by
  refine h.call_files _ fun freshUuid reply registry issuesNamed hApply hKeyed hThere => ?_
  simp only [Registry.apply, Registry.written] at hApply
  split at hApply
  next issues hUpdated =>
    obtain ⟨-, rfl⟩ := Prod.mk.inj hApply
    obtain ⟨row, new, hFind, hNew, rfl⟩ := updatedRows_eq_ok.mp hUpdated
    have hSame : new.id = row.id ∧ new.projectId = row.projectId ∧
        new.fingerprint = row.fingerprint ∧ new.lastSeen = d.now := by
      obtain rfl := Except.ok.inj hNew
      exact ⟨rfl, rfl, rfl, rfl⟩
    obtain ⟨hId, hProject, hPrint, hNow⟩ := hSame
    have hRow : row ∈ d.registry.issues := List.mem_of_find?_eq_some hFind
    have hKept := Issue.Kept.overwritten h.keyed.issues hFind hId hProject hPrint
      (hNow ▸ h.seen row hRow)
    refine ⟨h.withRegistry issuesNamed hThere hKeyed h.evaluated ?_ hKept, ?_⟩
    · intro j hj
      obtain ⟨i, hi, rfl⟩ := List.mem_map.mp hj
      split
      · exact hNow ▸ Int.le_refl _
      · exact h.seen i hi
    · obtain ⟨i, hi, hMeant, hKey⟩ := hHolds
      obtain rfl := eq_of_find?_key h.keyed.issues hFind hi hMeant
      refine ⟨new, ?_, hId.trans hMeant, by rw [hProject, hPrint, hKey], hNow⟩
      exact List.mem_map.mpr ⟨i, hi, if_pos (decide_eq_true hMeant)⟩
  · cases hApply

/-- Looking an issue up. -/
theorem getIssue_files (h : d.Coherent) (projectId : Int) (fingerprint : String) :
    (Program.registry (.getIssue projectId fingerprint)).Files d fun (i : Issue) after =>
      after.Holds (cacheKey projectId fingerprint) i.id := by
  refine h.call_files _ fun freshUuid reply registry issuesNamed hApply hKeyed hThere => ?_
  simp only [Registry.apply, foundRow] at hApply
  split at hApply
  · cases hApply
  next row hFind =>
    obtain ⟨hReply, rfl⟩ := Prod.mk.inj hApply
    obtain rfl := Except.ok.inj hReply
    have hRow : row.projectId = projectId ∧ row.fingerprint = fingerprint := by
      simpa using List.find?_some hFind
    exact ⟨h.withRegistry issuesNamed hThere hKeyed h.evaluated h.seen .rfl, row,
      List.mem_of_find?_eq_some hFind, rfl, by rw [hRow.1, hRow.2]⟩

/-- Creating the issue of a report. -/
theorem storeIssue_files (h : d.Coherent) (projectId : Int) (r : Report) :
    (Program.registry (.storeIssue (newIssue projectId r d.now))).Files d fun (i : Issue) after =>
      after.Saw (cacheKey projectId r.fingerprint) i.id := by
  refine h.call_files _ fun freshUuid reply registry issuesNamed hApply hKeyed hThere => ?_
  simp only [Registry.apply, Registry.changed] at hApply
  split at hApply
  next row hAdded =>
    obtain ⟨hRow, -, -⟩ := addedRow_eq_ok.mp hAdded
    obtain ⟨hReply, rfl⟩ := Prod.mk.inj hApply
    obtain rfl := Except.ok.inj hReply
    have hSame : row.projectId = projectId ∧ row.fingerprint = r.fingerprint ∧
        row.lastSeen = d.now := by
      obtain rfl := Except.ok.inj hRow
      exact ⟨rfl, rfl, rfl⟩
    obtain ⟨hProject, hPrint, hNow⟩ := hSame
    refine ⟨h.withRegistry issuesNamed hThere hKeyed h.evaluated ?_ ?_, ?_⟩
    · intro i hi
      rcases List.mem_append.mp hi with hOld | hLast
      · exact h.seen i hOld
      · obtain rfl := List.mem_singleton.mp hLast
        exact hNow ▸ Int.le_refl _
    · exact fun i hi => ⟨i, List.mem_append_left _ hi, rfl, rfl, rfl, Int.le_refl _⟩
    · exact ⟨row, List.mem_append_right _ (List.mem_singleton_self _), rfl,
        by rw [hProject, hPrint], hNow⟩
  · cases hApply

/-- A change to the cache of one service. -/
theorem withCache (h : d.Coherent) (service : Intake) (change : IssueCache → IssueCache)
    (hChange : ∀ e ∈ (change (d.caches service.number)).entries,
      e ∈ (d.caches service.number).entries ∨ d.Holds e.key e.issueId) :
    (d.withCache service change).Coherent := by
  refine h.withCaches fun n e he => ?_
  split at he
  next hService =>
    subst hService
    exact hChange e he
  next => exact .inl he

/-- A request that leaves the tables, the clock and the entries of the caches alone. -/
theorem aside_files (h : d.Coherent) {q : Request} (hAside : Aside q) :
    (request q).Files d fun _ after => ∀ key id, d.Saw key id → after.Saw key id := by
  refine ends_request ?_
  rw [perform_unstaged h.staged]
  cases hAside with
  | guard service key =>
      exact ⟨h.withCache service (·.guard key) fun e he => .inl he, rfl, fun _ _ _ _ => id⟩
  | release service key =>
      exact ⟨h.withCache service (·.release key) fun e he => .inl he, rfl, fun _ _ _ _ => id⟩
  | enter | leave | record =>
      exact ⟨⟨⟨h.unit, h.staged, h.there⟩, h.waits, h.logThere, h.keyed, h.evaluated, h.seen, h.filed,
        h.cached⟩, rfl, fun _ _ _ _ => id⟩

/-- Remembering the issue of a key. -/
theorem addCached_files (h : d.Coherent) (service : Intake) {key : String} {id : Int}
    (uuid : String) (hSaw : d.Saw key id) :
    (request (.addCached service key id uuid)).Files d fun _ after => after.Saw key id := by
  refine ends_request ?_
  rw [perform_unstaged h.staged]
  refine ⟨h.withCache service (·.add service.policy d.elapsed key id uuid) fun e he => ?_, rfl,
    fun _ _ => hSaw⟩
  rcases IssueCache.mem_add he with hOld | rfl
  · exact .inl hOld
  · obtain ⟨i, hi, hId, hKey, -⟩ := hSaw
    exact .inr ⟨i, hi, hId, hKey⟩

/-- Asking for the remembered issue of a key. -/
theorem findCached_files (h : d.Coherent) (service : Intake) (key : String) :
    (request (.findCached service key)).Files d fun (found : Option CachedIssue) after =>
      ∀ e, found = some e → after.Holds key e.issueId := by
  obtain ⟨hFewer, hFound⟩ :=
    IssueCache.find_cases (d.caches service.number) service.policy d.elapsed key
  refine ends_request ?_
  rw [perform_unstaged h.staged]
  refine ⟨h.withCache service (fun _ => _) fun e he => .inl (hFewer e he), rfl, ?_⟩
  intro found hOk e hSome
  cases hOk
  obtain ⟨hMem, rfl⟩ := hFound e hSome
  exact h.cached service.number e hMem

/-- Looking for the issue of a fingerprint. -/
theorem findIssue_files (h : d.Coherent) (projectId : Int) (fingerprint : String) :
    (findIssue projectId fingerprint).Files d fun found after =>
      ∀ i, found = some i → after.Holds (cacheKey projectId fingerprint) i.id := by
  unfold findIssue
  refine (h.getIssue_files projectId fingerprint).attempt.bind fun found after hAfter _ hFound => ?_
  cases found with
  | ok i =>
      refine files_pure hAfter fun j hj => ?_
      cases hj
      exact hFound i rfl
  | error e =>
      dsimp only
      split
      · exact files_pure hAfter fun j hj => by cases hj
      · exact files_throw hAfter e

/-- A look-up and a mark, made at a time. -/
theorem touch_at (h : d.Coherent) {time : Instant} (hTime : d.now = time) {key : String} {id : Int}
    (hHolds : d.Holds key id) : (touch id time).Files d fun _ after => after.Saw key id := by
  subst hTime
  exact h.touch_files hHolds

/-- Finding the issue of a report, or else creating it. -/
theorem resolveIssue_files (h : d.Coherent) (projectId : Int) (r : Report) :
    (resolveIssue projectId r d.now).Files d fun found after =>
      after.Saw (cacheKey projectId r.fingerprint) found.1.id := by
  unfold resolveIssue
  refine (h.findIssue_files projectId r.fingerprint).bind fun found after hAfter hNow hFound => ?_
  cases found with
  | some issue =>
      refine (hAfter.touch_at hNow (hFound issue rfl)).bind fun _ final hFinal _ hSaw => ?_
      exact files_pure hFinal hSaw
  | none =>
      have hStore := hAfter.storeIssue_files projectId r
      rw [hNow] at hStore
      refine hStore.attempt.bind fun created final hFinal hNow' hSaw => ?_
      cases created with
      | ok issue =>
          refine (hFinal.aside_files (.record _)).bind fun _ last hLast _ hStill => ?_
          exact files_pure hLast (hStill _ _ (hSaw issue rfl))
      | error e =>
          dsimp only
          split
          · exact (files_throw hFinal e).bind fun _ _ _ _ (hFalse : False) => hFalse.elim
          -- The issue is there already after all, and is looked up again.
          · refine (hFinal.getIssue_files projectId r.fingerprint).bind
              fun issue last hLast hNow'' hHolds => ?_
            refine (hLast.touch_at (hNow''.trans (hNow'.trans hNow)) hHolds).bind
              fun _ finish hEnd _ hSaw' => ?_
            exact files_pure hEnd hSaw'

/-- Finding the issue of a report where it is remembered, or else in the tables. -/
theorem identifyIssue_files (h : d.Coherent) (service : Intake) (projectId : Int) (r : Report) :
    (identifyIssue service projectId r d.now).Files d fun found after =>
      after.Saw (cacheKey projectId r.fingerprint) found.1 := by
  unfold identifyIssue
  refine (h.findCached_files service _).bind fun remembered after hAfter hNow hFound => ?_
  cases remembered with
  | some known =>
      refine (hAfter.touch_at hNow (hFound known rfl)).bind fun _ final hFinal _ hSaw => ?_
      exact files_pure hFinal hSaw
  | none =>
      refine (hAfter.aside_files (.guard service _)).bind fun _ guarded hGuarded hNow' _ => ?_
      -- No time passes, so the issue is marked with the time that was read at first.
      have hResolve := hGuarded.resolveIssue_files projectId r
      rw [hNow', hNow] at hResolve
      have hRelease := fun (last : Deployment) (hLast : last.Coherent) =>
        hLast.aside_files (.release service (cacheKey projectId r.fingerprint))
      refine (hResolve.ensure fun last hLast => (hRelease last hLast).mono
        fun outcome final hFinal => ⟨hFinal.1, hFinal.2.1, fun a hOk found => ?_⟩).bind ?_
      · exact hFinal.2.2 a hOk _ _
      intro found final hFinal _ hSaw
      refine (hFinal.addCached_files service _ hSaw).bind fun _ last hLast _ hSaw' => ?_
      exact files_pure hLast hSaw'

/-- Appending the event of a report that is not from the future to an issue that was seen just
now. -/
theorem append_files (h : d.Coherent) {projectId : Int} {r : Report} {issueId : Int}
    (hSaw : d.Saw (cacheKey projectId r.fingerprint) issueId) (hTime : r.timestamp ≤ d.now)
    (issueUuid : String) (retentionDays : Int) :
    (Program.eventLog (.append (eventOf projectId issueId issueUuid r retentionDays))).Files d
      fun _ _ => True := by
  refine ends_request ?_
  have hPerform : d.perform (.eventLog (.append (eventOf projectId issueId issueUuid r retentionDays)))
      = (.ok (), { d with
          events := d.events.append (eventOf projectId issueId issueUuid r retentionDays) }) := by
    rw [perform_unstaged h.staged]
    simp [carryOutRequest, callEventLog, h.waits, appendEvent, takeStaged_unstaged h.staged,
      EventLog.run, h.logThere, EventLog.apply]
    rfl
  rw [hPerform]
  refine ⟨⟨⟨h.unit, h.staged, h.there⟩, h.waits, h.logThere, h.keyed, h.evaluated, h.seen, ?_,
    h.cached⟩, rfl, fun _ _ => trivial⟩
  intro e he
  rcases List.mem_append.mp he with hOld | hNew
  · exact h.filed e hOld
  · obtain rfl := List.mem_singleton.mp hNew
    -- The key of the issue names its project, and the report is not from after the mark.
    obtain ⟨i, hi, hId, hKey, hSeen⟩ := hSaw
    exact ⟨rfl, i, hi, hId, (cacheKey_injective hKey).1, hSeen ▸ hTime⟩

theorem now_files (h : d.Coherent) : Program.now.Files d fun time after => time = after.now :=
  ends_request ⟨h, rfl, fun time hOk => by cases hOk; rfl⟩

/-- Taking in a report that is not from the future. -/
theorem ingest (h : d.Coherent) (service : Intake) (projectId : Int) {r : Report}
    (hTime : r.timestamp ≤ d.now) (retentionDays : Int) :
    (d.run (Events.ingest service projectId r retentionDays)).2.Coherent := by
  have hIngest : (Events.ingest service projectId r retentionDays).Files d fun _ _ => True := by
    unfold Events.ingest inScope
    refine (h.aside_files (.enter none)).bind fun before entered hEntered hNow _ => ?_
    refine Files.ensure ?_ fun last hLast =>
      (hLast.aside_files (.leave before)).mono fun _ _ hEnd =>
        ⟨hEnd.1, hEnd.2.1, fun _ _ _ _ => trivial⟩
    refine hEntered.now_files.bind fun time after hAfter hNow' hEq => ?_
    subst hEq
    refine (hAfter.identifyIssue_files service projectId r).bind fun found final hFinal hNow'' hSaw =>
      ?_
    have hPast : r.timestamp ≤ final.now := by
      rw [hNow'', hNow', hNow]
      exact hTime
    refine (hFinal.append_files hSaw hPast _ _).bind fun _ last hLast _ _ => ?_
    refine (hLast.aside_files (.record _)).bind fun _ finish hEnd _ _ => ?_
    exact files_pure hEnd trivial
  exact hIngest.1

/-- Creating an alert that is active or triggered. -/
theorem createAlert (h : d.Coherent) {draft : AlertDraft}
    (hStatus : ∀ status ∈ draft.status, status = Alert.active ∨ status = Alert.triggered) :
    (d.run (Program.registry (.createAlert draft))).2.Coherent := by
  have hFiles : (Program.registry (.createAlert draft)).Files d fun _ _ => True := by
    refine h.call_files _ fun freshUuid reply registry issuesNamed hApply hKeyed hThere => ?_
    simp only [Registry.apply, Registry.changed] at hApply
    split at hApply
    next a hAdded =>
      obtain ⟨hRow, -, -⟩ := addedRow_eq_ok.mp hAdded
      obtain ⟨-, rfl⟩ := Prod.mk.inj hApply
      refine ⟨h.withRegistry issuesNamed hThere hKeyed ?_ h.seen .rfl, trivial⟩
      intro x hx
      rcases List.mem_append.mp hx with hOld | hNew
      · exact h.evaluated x hOld
      · obtain rfl := List.mem_singleton.mp hNew
        have hGiven := AlertDraft.complete_status hRow
        rw [Alert.isEvaluated, hGiven]
        cases hDraft : draft.status with
        | none => rfl
        | some status => simpa using hStatus status hDraft
    · cases hApply
  exact hFiles.1

/-- Granting or refusing a lease. -/
theorem acquireLease (h : d.Coherent) (draft : LeaseDraft) :
    (d.run (Program.registry (.acquireLease draft))).2.Coherent := by
  have hFiles : (Program.registry (.acquireLease draft)).Files d fun _ _ => True := by
    refine h.call_files _ fun freshUuid reply registry issuesNamed hApply hKeyed hThere => ?_
    simp only [Registry.apply] at hApply
    split at hApply
    · cases hApply
    · obtain ⟨-, rfl⟩ := Prod.mk.inj hApply
      exact ⟨h.withRegistry issuesNamed hThere hKeyed h.evaluated h.seen .rfl, trivial⟩
  exact hFiles.1

/-- Time passes. -/
theorem advance (h : d.Coherent) {micros : Int} (hForward : 0 ≤ micros) :
    (d.advance micros).Coherent where
  unit := h.unit
  staged := h.staged
  waits := h.waits
  there := h.there
  logThere := h.logThere
  keyed := h.keyed
  evaluated := h.evaluated
  seen i hi := by
    have hSeen := h.seen i hi
    simp only [Instant.le_iff, Deployment.advance, Instant.shift] at hSeen ⊢
    omega
  filed := h.filed
  cached := h.cached

theorem initial (start : Instant) : (Deployment.initial start false).Coherent where
  unit := rfl
  staged := rfl
  waits := rfl
  there := rfl
  logThere := rfl
  keyed := Registry.keyed_empty
  evaluated a ha := by cases ha
  seen i hi := by cases hi
  filed e he := by cases he
  cached n e he := by cases he

end Deployment.Coherent

/-- The deployments that begin with empty stores and then, one after the other and never back in
time, take in reports of the past and present, create alerts that are active or triggered, grant
leases and let time pass. -/
inductive Deployment.Fed (start : Instant) : Deployment → Prop
  | initial : Fed start (Deployment.initial start false)
  | ingest {d : Deployment} (h : Fed start d) (service : Intake) (projectId : Int) (r : Report)
      (retentionDays : Int) (hTime : r.timestamp ≤ d.now) :
      Fed start (d.run (Events.ingest service projectId r retentionDays)).2
  | createAlert {d : Deployment} (h : Fed start d) (draft : AlertDraft)
      (hStatus : ∀ status ∈ draft.status, status = Alert.active ∨ status = Alert.triggered) :
      Fed start (d.run (Program.registry (.createAlert draft))).2
  | acquireLease {d : Deployment} (h : Fed start d) (draft : LeaseDraft) :
      Fed start (d.run (Program.registry (.acquireLease draft))).2
  | advance {d : Deployment} (h : Fed start d) (micros : Int) (hForward : 0 ≤ micros) :
      Fed start (d.advance micros)

theorem Deployment.Fed.coherent {start : Instant} {d : Deployment} (h : d.Fed start) :
    d.Coherent := by
  induction h with
  | initial => exact .initial start
  | ingest h service projectId r retentionDays hTime ih =>
      exact ih.ingest service projectId hTime retentionDays
  | createAlert h draft hStatus ih => exact ih.createAlert hStatus
  | acquireLease h draft ih => exact ih.acquireLease draft
  | advance h micros hForward ih => exact ih.advance hForward

end Triage
