import Triage.Proofs.Alert.Hitches

/-!
# A check amid delays and failures

What a check leaves depends on the moments that concern its alert and on nothing else (`Treats`).  A
transition that is stored lasts, whatever fails when it is announced; one that is not stored leaves
the alert as it was (`transition_settles`).  So an evaluation of which no deciding request fails
leaves the alert as the issues and the events say (`evaluate_settles`), and it gives its lease back
however it ends (`evaluate_treats`).  `checkAlert_treats` says so of a check of an alert that nothing
has been done about.
-/

namespace Triage

open Program

variable {alertId : Int}

/-- An alert is left as a result says if none of the deciding requests fails, and as it was if no
update of it succeeds. -/
structure Alert.Settles (a result : Alert) (moments : List (Moment Unit)) (after : Deployment) :
    Prop where
  settled : (∀ m ∈ moments, m.request.decides = true → m.failed = false) →
    after.registry.alert? a.id = some result
  unstored : (∀ m ∈ moments, m.stores a.id = false) → after.registry.alert? a.id = some a

namespace Alert.Settles

variable {a result : Alert} {moments : List (Moment Unit)} {after : Deployment}

/-- What stands before does not matter. -/
theorem prepend (first : List (Moment Unit)) (h : a.Settles result moments after) :
    a.Settles result (first ++ moments) after :=
  ⟨fun hNone => h.settled fun m hm => hNone m (List.mem_append_right _ hm),
    fun hNone => h.unstored fun m hm => hNone m (List.mem_append_right _ hm)⟩

/-- A deciding request has failed before an update. -/
theorem of_failed {m : Moment Unit} (hm : m ∈ moments) (hDecides : m.request.decides = true)
    (hFailed : m.failed = true) (hRow : after.registry.alert? a.id = some a) :
    a.Settles result moments after := by
  refine ⟨fun hNone => ?_, fun _ => hRow⟩
  rw [hNone m hm hDecides] at hFailed
  cases hFailed

/-- An update has succeeded. -/
theorem of_stored {m : Moment Unit} (hm : m ∈ moments) (hStores : m.stores a.id = true)
    (hRow : after.registry.alert? a.id = some result) : a.Settles result moments after := by
  refine ⟨fun _ => hRow, fun hNone => ?_⟩
  rw [hNone m hm] at hStores
  cases hStores

/-- There was nothing to update. -/
theorem of_row (hRow : after.registry.alert? a.id = some a) : a.Settles a moments after :=
  ⟨fun _ => hRow, fun _ => hRow⟩

/-- What retains the alert leaves it as it was settled. -/
theorem retained {before : Deployment} {later : List (Moment Unit)}
    (h : a.Settles result moments before) (hRetains : before.Retains a.id after) :
    a.Settles result (moments ++ later) after := by
  refine ⟨fun hNone => ?_, fun hNone => ?_⟩ <;> rw [hRetains.row]
  · exact h.settled fun m hm => hNone m (List.mem_append_left _ hm)
  · exact h.unstored fun m hm => hNone m (List.mem_append_left _ hm)

end Alert.Settles

/-- A deployment with another ledger. -/
def Deployment.withLeases (d : Deployment) (leases : List Lease) : Deployment :=
  { d with registry := { d.registry with leases } }

theorem Deployment.Quiet.withLeases {d : Deployment} (h : d.Quiet) (leases : List Lease) :
    (d.withLeases leases).Quiet :=
  ⟨h.unit, h.staged, h.there⟩

namespace Worker

open Deployment

variable {w : Worker} {a b : Alert} {d before : Deployment}

theorem report_unconcerned (severity : Log.Severity) (component : Log.Component) (message : String)
    (subjects : List (String × Json)) (failure : Option Failure) :
    (report severity component message subjects failure).Asks
      fun q => q.concerns alertId = false :=
  asks_request rfl

theorem failed_of_error {h : Hitch} {q : Request} {e : Failure}
    (hReply : (d.meet h q).1 = .error e) : (d.momentAmid h q).failed = true := by
  rw [Moment.failed, Deployment.momentAmid, hReply]
  rfl

theorem stores_of_ok {h : Hitch} {reply : Unit}
    (hReply : (d.meet h (.registry (.updateAlert b.draft))).1 = .ok reply) :
    (d.momentAmid h (.registry (.updateAlert b.draft))).stores b.id = true := by
  rw [Moment.stores, Deployment.momentAmid, hReply]
  simp [Alert.draft]

/-- An update with a transition fails on its way, or it is stored. -/
theorem meet_update {hitch : Hitch} (hDelays : hitch.Delays) (h : d.Quiet)
    (hRow : d.registry.alert? a.id = some a) (hFlips : a.Flips b) :
    (∃ e, d.meet hitch (.registry (.updateAlert b.draft)) = (.error e, hitch.meanwhile d)) ∨
      ∃ after, d.meet hitch (.registry (.updateAlert b.draft)) = (.ok (), after) ∧ after.Quiet ∧
        after.registry.alert? a.id = some b := by
  have hDelayed := (Retains.refl h a.id).delayed hDelays
  obtain hFail | hDone := d.meet_cases hitch (.registry (.updateAlert b.draft))
  · exact .inl hFail
  · obtain ⟨after, hStored, hCarries⟩ :=
      update_carries hDelayed.toQuiet (hDelayed.row.trans hRow) hFlips
    refine .inr ⟨after, hDone.trans hStored, hCarries.toQuiet, ?_⟩
    rw [← hFlips.id_eq]
    exact hCarries.row

/-- A transition that is stored lasts, and one that is not leaves the alert as it was. -/
theorem transition_settles (h : d.Quiet) (hRow : d.registry.alert? a.id = some a)
    (hFlips : a.Flips b) (kind : String) :
    (w.transition b kind).Fares Hitch.Delays
      (fun moments _ after => a.Settles b moments after) d := by
  unfold transition
  refine Fares.request_bind (fun hitch e _ hReply => ?_) fun hitch _ hDelays _ => ?_
  · rw [meet_sure rfl] at hReply
    cases hReply
  have hNoted := (Retains.refl h a.id).meet hDelays (Aside.noteChange (.alert b)).spares
  have hUpdate {hitch : Hitch} (hDelays : hitch.Delays) :=
    meet_update hDelays hNoted.toQuiet (hNoted.row.trans hRow) hFlips
  refine Fares.request_bind (fun hitch' e hDelays' hReply => ?_) fun hitch' _ hDelays' hReply => ?_
  · refine .of_failed (.tail _ (.head _)) rfl (failed_of_error hReply) ?_
    obtain ⟨e', hFail⟩ | ⟨after, hStored, -⟩ := hUpdate hDelays'
    · rw [hFail]
      exact (hNoted.delayed hDelays').row.trans hRow
    · rw [hStored] at hReply
      cases hReply
  · obtain ⟨e', hFail⟩ | ⟨after, hStored, hQuiet, hBecame⟩ := hUpdate hDelays'
    · rw [hFail] at hReply
      cases hReply
    -- What follows a stored transition spares the alert, so that it lasts.
    have hRest : (do
        report .info .worker ("Alert " ++ Text.intText b.id ++ " " ++ kind)
          [("alert_id", .int b.id)] none
        w.notifyTeam b kind
        return b : Program Alert).Asks (Spares a.id) :=
      (report_spares ..).bind fun _ => (notifyTeam_spares w b kind).bind fun _ => asks_pure _
    have hStores := stores_of_ok hReply
    rw [hFlips.id_eq] at hStores
    rw [hStored]
    refine ((Retains.refl hQuiet a.id).fares hRest).mono fun later _ final ⟨_, hFinal⟩ => ?_
    exact .of_stored (.tail _ (.head _)) hStores (hFinal.row.trans hBecame)

/-- A response to a verdict settles the alert. -/
theorem respond_settles (h : d.Quiet) (hRow : d.registry.alert? a.id = some a) (time : Instant)
    (breached : Bool) :
    (w.respond a time breached).Fares Hitch.Delays
      (fun moments _ after => a.Settles (a.settle time breached) moments after) d := by
  unfold respond Alert.settle
  split
  next hTriggers =>
    rw [Bool.and_eq_true, decide_eq_true_eq] at hTriggers
    exact transition_settles h hRow (.trigger time hTriggers.2) _
  next =>
    split
    next hResolves =>
      rw [Bool.and_eq_true, decide_eq_true_eq] at hResolves
      exact transition_settles h hRow (.resolve time hResolves.2) _
    next => exact fares_pure (.of_row hRow)

/-- Listing the issues of a window, if it succeeds, replies what is seen in it. -/
theorem meet_listIssues {hitch : Hitch} (hDelays : hitch.Delays) (h : d.Quiet) (projectId : Int)
    (window : Window) {issues : List Issue}
    (hReply : (d.meet hitch (.registry (.listIssues [projectId] window.start window.stop none))).1 =
      .ok issues) : issues = Registry.issuesSeen d.registry.issues projectId window := by
  have hDelayed := (Retains.refl h 0).delayed hDelays
  have hRead := hDelayed.toQuiet.run_read ((hitch.meanwhile d).registry.listIssues_eq
    (hitch.meanwhile d).now (hitch.meanwhile d).nextUuid projectId window) rfl
  rw [meet_ok hReply, ← Deployment.run_request] at hReply
  obtain rfl := Except.ok.inj (hReply.symm.trans (congrArg Prod.fst hRead))
  rw [hDelayed.issues]

/-- Asking for metrics, if it succeeds, replies what the events say. -/
theorem meet_metrics {hitch : Hitch} (hDelays : hitch.Delays) (h : d.Quiet) (c : IssuesCriteria)
    {metrics : List IssueMetrics}
    (hReply : (d.meet hitch (.eventLog (.metrics c))).1 = .ok metrics) :
    (d.events.run (.metrics c)).1 = .ok metrics := by
  have hDelayed := (Retains.refl h 0).delayed hDelays
  have hRead : (hitch.meanwhile d).run (Program.eventLog (.metrics c)) = _ :=
    run_question hDelayed.staged _ (by simp)
  rw [meet_ok hReply, ← Deployment.run_request] at hReply
  rw [← hDelayed.events]
  exact (congrArg Prod.fst hRead).symm.trans hReply

/-- An evaluation settles the alert as the issues and the events say at its time. -/
theorem evaluate_settles (h : d.Quiet) (hRow : d.registry.alert? a.id = some a) (time : Instant) :
    (w.evaluate a time).Fares Hitch.Delays (fun moments _ after =>
      a.Settles (a.evaluated d.registry.issues d.events time) moments after) d := by
  let window := a.windowAt time
  let seen := Registry.issuesSeen d.registry.issues a.projectId window
  let c : IssuesCriteria := ⟨[a.projectId], seen.map Issue.id, window⟩
  unfold evaluate
  refine requireInstant_bind (fun hStart => ?_) fun hStart => ?_
  · have hSame : a.evaluated d.registry.issues d.events time = a := by
      simp [Alert.evaluated, Alert.verdict?, Alert.windowAt, hStart]
    rw [hSame]
    exact .of_row hRow
  have hListing {hitch : Hitch} (hDelays : hitch.Delays) :=
    (Retains.refl h a.id).meet hDelays (Aside.issues [a.projectId] window.start time none).spares
  refine Fares.request_bind (fun hitch e hDelays hReply => ?_) fun hitch listed hDelays hReply => ?_
  · exact .of_failed (.head _) rfl (failed_of_error hReply) ((hListing hDelays).row.trans hRow)
  obtain rfl : listed = seen := meet_listIssues hDelays h a.projectId window hReply
  replace hListing := hListing hDelays
  have hRow' := hListing.row.trans hRow
  -- A response to the verdict settles the alert, whatever has been asked to come to it.
  have hRespond {d' : Deployment} {breached : Bool} (hAfter : d.Retains a.id d')
      (hVerdict : a.verdict? d.registry.issues d.events time = some breached) :
      (w.respond a time breached).Fares Hitch.Delays (fun moments _ after =>
        a.Settles (a.evaluated d.registry.issues d.events time) moments after) d' := by
    have hResult : a.evaluated d.registry.issues d.events time = a.settle time breached := by
      rw [Alert.evaluated, hVerdict]
      rfl
    rw [hResult]
    exact respond_settles hAfter.toQuiet (hAfter.row.trans hRow) time breached
  have hFound := Alert.verdict?_of_window hStart d.registry.issues d.events
  by_cases hNone : seen.isEmpty = true
  · replace hFound := hFound.trans (if_pos hNone)
    have hRest : (if a.status = Alert.triggered then w.resolve a time else pure a) =
        w.respond a time false := by simp [respond]
    rw [if_pos hNone, hRest]
    exact (hRespond hListing hFound).mono fun _ _ _ hSettles => hSettles.prepend [_]
  replace hFound := hFound.trans (if_neg hNone)
  rw [if_neg hNone]
  refine Fares.request_bind (fun hitch' e hDelays' hReply' => ?_)
    fun hitch' metrics hDelays' hReply' => ?_
  · refine .of_failed (.tail _ (.head _)) rfl (failed_of_error hReply') ?_
    exact (hListing.meet hDelays' (Aside.metrics c).spares).row.trans hRow
  · have hMetrics := meet_metrics hDelays' hListing.toQuiet c hReply'
    rw [hListing.events] at hMetrics
    rw [hMetrics] at hFound
    exact (hRespond (hListing.meet hDelays' (Aside.metrics c).spares) hFound).mono
      fun _ _ _ hSettles => hSettles.prepend [_, _]

/-- What a worker needs to be granted the lease on an alert at a time. -/
structure Grantable (w : Worker) (before : Deployment) (alertId : Int) (time : Instant) : Prop where
  leasable : (time.shift w.leaseMicros).representable = true
  free : ∀ l ∈ before.registry.leases, l.alertId = alertId → l.expiresAt < time

/-- What becomes of an alert in some moments of a tick.  If its lease is granted and no deciding
request of its check fails, it is left as the issues and the events say at that time.  If no update
of it succeeds, it is left as it was, and so it is if its lease is refused.  A lease on it that is
granted is given back, unless the request for that fails. -/
structure Treats (w : Worker) (before : Deployment) (alertId : Int) (moments : List (Moment Unit))
    (after : Deployment) : Prop where
  settled : ∀ time, (∃ m ∈ moments, m.grantedAt? alertId = some time) →
    (∀ m ∈ callsFor alertId moments, m.request.decides = true → m.failed = false) →
      ∃ a, before.registry.alert? alertId = some a ∧ a.isEvaluated = true ∧
        w.Grantable before alertId time ∧ after.registry.alert? alertId =
          some (a.evaluated before.registry.issues before.events time)
  unstored : (∀ m ∈ moments, m.stores alertId = false) →
    after.registry.alert? alertId = before.registry.alert? alertId
  refused : (∃ m ∈ moments, m.refuses alertId = true) → ∀ m ∈ moments, m.stores alertId = false
  released : ∀ time, (∃ m ∈ moments, m.grantedAt? alertId = some time) →
    (∀ m ∈ moments, m.failsRelease alertId = false) →
      ∀ l ∈ after.registry.leases, l.alertId ≠ alertId

namespace Treats

variable {moments : List (Moment Unit)} {after : Deployment}

/-- Where no lease is granted and nothing is stored, the alert is as it was. -/
theorem of_ungranted (hUngranted : ∀ m ∈ moments, m.grantedAt? alertId = none)
    (hUnstored : ∀ m ∈ moments, m.stores alertId = false)
    (hRow : after.registry.alert? alertId = before.registry.alert? alertId) :
    w.Treats before alertId moments after := by
  have hNever : ∀ time, ¬∃ m ∈ moments, m.grantedAt? alertId = some time := by
    rintro time ⟨m, hm, hGranted⟩
    rw [hUngranted m hm] at hGranted
    cases hGranted
  exact ⟨fun time hGranted => absurd hGranted (hNever time), fun _ => hRow, fun _ => hUnstored,
    fun time hGranted => absurd hGranted (hNever time)⟩

/-- In moments that do not concern the alert, nothing is done about it. -/
theorem of_unconcerned (hAsked : ∀ m ∈ moments, m.request.concerns alertId = false)
    (hRow : after.registry.alert? alertId = before.registry.alert? alertId) :
    w.Treats before alertId moments after :=
  of_ungranted
    (fun m hm => (Moment.unanswered (Moment.leaseOf?_of_unconcerned (hAsked m hm))).1)
    (fun m hm => Moment.stores_of_unconcerned (hAsked m hm)) hRow

/-- The lease is granted in the first moment, and no lease is asked for later. -/
theorem of_granted {asked : Moment Unit} {time : Instant} {rest : List (Moment Unit)}
    (hAsked : asked.request.leaseOf? = some alertId)
    (hGranted : asked.grantedAt? alertId = some time) (hGrants : asked.refuses alertId = false)
    (hRest : ∀ m ∈ rest, m.request.leaseOf? = none)
    (hSettled : (∀ m ∈ asked :: rest, m.request.decides = true → m.failed = false) →
      ∃ a, before.registry.alert? alertId = some a ∧ a.isEvaluated = true ∧
        w.Grantable before alertId time ∧ after.registry.alert? alertId =
          some (a.evaluated before.registry.issues before.events time))
    (hUnstored : (∀ m ∈ asked :: rest, m.stores alertId = false) →
      after.registry.alert? alertId = before.registry.alert? alertId)
    (hReleased : (∀ m ∈ asked :: rest, m.failsRelease alertId = false) →
      ∀ l ∈ after.registry.leases, l.alertId ≠ alertId) :
    w.Treats before alertId (asked :: rest) after where
  settled := by
    rintro time' ⟨m, hm, hGranted'⟩ hNone
    rw [callsFor_cons hAsked hRest] at hNone
    obtain rfl : time = time' := by
      rcases List.mem_cons.mp hm with rfl | hIs
      · exact Option.some.inj (hGranted.symm.trans hGranted')
      · rw [(Moment.unanswered (by simp [hRest m hIs])).1] at hGranted'
        cases hGranted'
    exact hSettled hNone
  unstored := hUnstored
  refused := by
    rintro ⟨m, hm, hRefused⟩
    rcases List.mem_cons.mp hm with rfl | hIs
    · rw [hGrants] at hRefused
      cases hRefused
    · rw [(Moment.unanswered (by simp [hRest m hIs])).2] at hRefused
      cases hRefused
  released := fun _ _ => hReleased

/-- Moments before that do not concern the alert do not matter. -/
theorem prepend {first : List (Moment Unit)}
    (hFirst : ∀ m ∈ first, m.request.concerns alertId = false)
    (h : w.Treats before alertId moments after) :
    w.Treats before alertId (first ++ moments) after where
  settled := by
    rintro time ⟨m, hm, hGranted⟩ hNone
    rw [callsFor_append_left fun m hm => Moment.leaseOf?_of_unconcerned (hFirst m hm)] at hNone
    exact h.settled time
      ⟨m, mem_later hFirst hm (Moment.concerns_of_granted hGranted), hGranted⟩ hNone
  unstored hNone := h.unstored fun m hm => hNone m (List.mem_append_right _ hm)
  refused := by
    rintro ⟨m, hm, hRefused⟩
    exact List.forall_mem_append.mpr ⟨fun m hm => Moment.stores_of_unconcerned (hFirst m hm),
      h.refused ⟨m, mem_later hFirst hm (Moment.concerns_of_refused hRefused), hRefused⟩⟩
  released := by
    rintro time ⟨m, hm, hGranted⟩ hNone
    exact h.released time
      ⟨m, mem_later hFirst hm (Moment.concerns_of_granted hGranted), hGranted⟩
      fun m hm => hNone m (List.mem_append_right _ hm)

/-- Moments later that do not concern the alert leave it as it is. -/
theorem append {later : List (Moment Unit)} {final : Deployment}
    (h : w.Treats before alertId moments after)
    (hLater : ∀ m ∈ later, m.request.concerns alertId = false)
    (hRetains : after.Retains alertId final) :
    w.Treats before alertId (moments ++ later) final where
  settled := by
    rintro time ⟨m, hm, hGranted⟩ hNone
    rw [hRetains.row]
    exact h.settled time
      ⟨m, mem_first hLater hm (Moment.concerns_of_granted hGranted), hGranted⟩
      fun m hm => hNone m (mem_callsFor_append hm)
  unstored hNone :=
    hRetains.row.trans (h.unstored fun m hm => hNone m (List.mem_append_left _ hm))
  refused := by
    rintro ⟨m, hm, hRefused⟩
    exact List.forall_mem_append.mpr
      ⟨h.refused ⟨m, mem_first hLater hm (Moment.concerns_of_refused hRefused), hRefused⟩,
        fun m hm => Moment.stores_of_unconcerned (hLater m hm)⟩
  released := by
    rintro time ⟨m, hm, hGranted⟩ hNone l hl hAlert
    exact h.released time
      ⟨m, mem_first hLater hm (Moment.concerns_of_granted hGranted), hGranted⟩
      (fun m hm => hNone m (List.mem_append_left _ hm)) l (hRetains.leases l hl hAlert) hAlert

end Treats

/-- Asking for a lease fails on its way, or the lease is granted or refused as the ledger says. -/
theorem meet_acquire {hitch : Hitch} (hDelays : hitch.Delays) (h : d.Quiet) (l : Lease) :
    (∃ e, d.meet hitch (.registry (.acquireLease l.draft)) = (.error e, hitch.meanwhile d)) ∨
      d.meet hitch (.registry (.acquireLease l.draft)) =
        (.ok (Registry.acquire d.registry.leases l).1,
          (hitch.meanwhile d).withLeases (Registry.acquire d.registry.leases l).2) := by
  have hDelayed := (Retains.refl h 0).delayed hDelays
  have hSame : (hitch.meanwhile d).registry.leases = d.registry.leases := by
    obtain ⟨micros, hMeanwhile⟩ := hDelays
    rw [hMeanwhile]
    rfl
  obtain hFail | hDone := d.meet_cases hitch (.registry (.acquireLease l.draft))
  · exact .inl hFail
  · have hApply := Registry.run_acquireLease hDelayed.there (hitch.meanwhile d).now
      (hitch.meanwhile d).nextUuid l
    rw [Registry.run_eq_apply hDelayed.there, hSame] at hApply
    refine .inr (hDone.trans ?_)
    rw [hDelayed.perform_eq_apply, hApply]
    rfl

/-- If it fails, nothing is written. -/
theorem acquire_failed {hitch : Hitch} (hDelays : hitch.Delays) (h : d.Quiet) {l : Lease}
    {e : Failure} (hReply : (d.meet hitch (.registry (.acquireLease l.draft))).1 = .error e) :
    (d.meet hitch (.registry (.acquireLease l.draft))).2 = hitch.meanwhile d := by
  obtain ⟨_, hFail⟩ | hDone := meet_acquire hDelays h l
  · rw [hFail]
  · rw [hDone] at hReply
    cases hReply

/-- If it is answered, the ledger is what granting or refusing leaves. -/
theorem acquire_answered {hitch : Hitch} (hDelays : hitch.Delays) (h : d.Quiet) {l : Lease}
    {granted : Bool}
    (hReply : (d.meet hitch (.registry (.acquireLease l.draft))).1 = .ok granted) :
    granted = (Registry.acquire d.registry.leases l).1 ∧
      (d.meet hitch (.registry (.acquireLease l.draft))).2 =
        (hitch.meanwhile d).withLeases (Registry.acquire d.registry.leases l).2 := by
  obtain ⟨_, hFail⟩ | hDone := meet_acquire hDelays h l
  · rw [hFail] at hReply
    cases hReply
  · rw [hDone] at hReply ⊢
    exact ⟨(Except.ok.inj hReply).symm, rfl⟩

/-- What is asked to evaluate an alert writes no lease. -/
theorem Evaluating.leases {time : Instant} {call : RegistryCall}
    (h : Evaluating a time (.registry call)) : .leases ∉ call.writes := by
  cases h with
  | notifying h => exact fun hMem => by simpa using h.writes hMem
  | _ => simp [RegistryCall.writes]

/-- Evaluating an alert leaves the leases as they are. -/
theorem evaluate_leases (h : d.Quiet) (w : Worker) (a : Alert) (time : Instant) :
    (w.evaluate a time).Fares Hitch.Delays
      (fun _ _ after => after.Quiet ∧ after.registry.leases = d.registry.leases) d := by
  let inv (after : Deployment) : Prop := after.Quiet ∧ after.registry.leases = d.registry.leases
  have hMeanwhile : ∀ d hitch, Hitch.Delays hitch → inv d → inv (hitch.meanwhile d) := by
    rintro d hitch ⟨micros, hMeanwhile⟩ ⟨hQuiet, hLeases⟩
    rw [hMeanwhile]
    exact ⟨⟨hQuiet.unit, hQuiet.staged, hQuiet.there⟩, hLeases⟩
  have hKeep : ∀ d q, Evaluating a time q → inv d → inv (d.perform q).2 := by
    rintro d q hAsked ⟨hQuiet, hLeases⟩
    refine ⟨hQuiet.perform q, ?_⟩
    obtain hSame | ⟨call, reply, freshUuid, hCall, hRun⟩ := perform_cases hQuiet.unit q
    · rwa [hSame]
    · obtain rfl := Request.eq_of_call? hCall
      have hRows := d.registry.run_sameRows (t := .leases) d.now freshUuid call hAsked.leases
      rw [hRun] at hRows
      exact Eq.trans hRows hLeases
  exact (fares_of_asks inv (evaluate_asks w a time) hMeanwhile hKeep ⟨h, rfl⟩).mono
    fun _ _ _ ⟨_, hAfter⟩ => hAfter

/-- Once all leases on an alert are those of a worker, it gives them back, unless that fails. -/
theorem releaseLease_releases (h : d.Quiet)
    (hOwn : ∀ l ∈ d.registry.leases, l.alertId = alertId → l.holder = w.instanceId) :
    (w.releaseLease alertId).Fares Hitch.Delays (fun moments _ after =>
      (∀ m ∈ moments, m.failsRelease alertId = false) →
        ∀ l ∈ after.registry.leases, l.alertId ≠ alertId) d := by
  unfold releaseLease
  refine Fares.attempt_bind
    (fares_request (q := .registry (.releaseLease alertId w.instanceId)) fun hitch hDelays => ?_)
  cases hReply : (d.meet hitch (.registry (.releaseLease alertId w.instanceId))).1 with
  | error e =>
      refine fares_report.mono fun _ _ _ _ hNone => ?_
      have hFailed := hNone _ (.head _)
      simp [Moment.failsRelease, Deployment.momentAmid, hReply] at hFailed
  | ok _ =>
      have hDelayed := (Retains.refl h alertId).delayed hDelays
      refine fares_pure fun _ l hl hAlert => ?_
      rw [meet_ok hReply, hDelayed.perform_eq_apply] at hl
      have hHolder := hOwn l (hDelayed.leases l (List.mem_of_mem_filter hl) hAlert) hAlert
      simpa [hAlert, hHolder] using (List.mem_filter.mp hl).2

/-- Once the lease on an alert is granted, the evaluation settles the alert and the lease is given
back. -/
theorem evaluate_treats {time : Instant} (h : d.Quiet) (hRow : d.registry.alert? a.id = some a)
    (hOwn : ∀ l ∈ d.registry.leases, l.alertId = a.id → l.holder = w.instanceId) :
    ((w.evaluate a time).ensure (w.releaseLease a.id)).Fares Hitch.Delays (fun moments _ after =>
      after.Quiet ∧ (∀ m ∈ moments, m.request.leaseOf? = none) ∧
        a.Settles (a.evaluated d.registry.issues d.events time) moments after ∧
        ((∀ m ∈ moments, m.failsRelease a.id = false) →
          ∀ l ∈ after.registry.leases, l.alertId ≠ a.id)) d := by
  have hUnleasing : (w.evaluate a time).Asks fun q => q.leaseOf? = none :=
    (evaluate_asks w a time).mono fun q hq => hq.leaseOf?
  -- The evaluation leaves the ledger alone, so that the lease is still the worker's when it ends.
  have hEvaluate := (evaluate_settles (w := w) h hRow time).and
    ((evaluate_leases h w a time).and (fares_asked hUnleasing d))
  refine Fares.ensure (hEvaluate.mono ?_)
  rintro evaluating outcome mid ⟨hSettles, ⟨hQuiet, hLeases⟩, hUnleased⟩
  have hRelease := ((Retains.refl hQuiet a.id).fares (w.releaseLease_spares a.id)).and
    ((releaseLease_releases hQuiet fun l hl => hOwn l (hLeases ▸ hl)).and
      (fares_asked (releaseLease_unleasing w a.id) mid))
  refine hRelease.mono ?_
  rintro releasing ended final ⟨⟨-, hRetains⟩, hReleases, hUnleased'⟩
  cases ended <;>
  · refine ⟨hRetains.toQuiet, List.forall_mem_append.mpr ⟨hUnleased, hUnleased'⟩,
      hSettles.retained hRetains, fun hNone => hReleases fun m hm => ?_⟩
    exact hNone m (List.mem_append_right _ hm)

/-- Where a lease on an alert is granted, none that there was when nothing had been done about it
runs. -/
theorem free_of_granted (hAwaits : before.Awaits a.id d)
    (hGranted : (Registry.acquire d.registry.leases (w.leaseOn a d.now)).1 = true) :
    ∀ l ∈ before.registry.leases, l.alertId = a.id → l.expiresAt < d.now := by
  intro l hl hAlert
  by_contra hRuns
  rw [Instant.not_lt] at hRuns
  have hRefused : Registry.acquire d.registry.leases (w.leaseOn a d.now) = (false, _) :=
    Registry.acquire_refused hAwaits.keyed.leases (hAwaits.kept l hl hAlert hRuns) hAlert.symm hRuns
  rw [hRefused] at hGranted
  cases hGranted

/-- A check whose lease is refused leaves the alert as it is. -/
theorem skip_treats {asked : Moment Unit} (hRefused : asked.grantedAt? a.id = none)
    (hUnstored : asked.stores a.id = false) (hQuiet : d.Quiet)
    (hRow : d.registry.alert? a.id = before.registry.alert? a.id) (time : Instant) :
    (w.proceed a time false).Fares Hitch.Delays (fun later _ after =>
      after.Quiet ∧ w.Treats before a.id (asked :: later) after) d := by
  have hSpares : (w.proceed a time false).Asks (Spares a.id) :=
    (report_spares ..).bind fun _ => asks_pure _
  have hUnconcerned : (w.proceed a time false).Asks fun q => q.concerns a.id = false :=
    (report_unconcerned ..).bind fun _ => asks_pure _
  refine (((Retains.refl hQuiet a.id).fares hSpares).and (fares_asked hUnconcerned d)).mono ?_
  rintro later - after ⟨⟨-, hRetains⟩, hNone⟩
  refine ⟨hRetains.toQuiet, .of_ungranted ?_ ?_ (hRetains.row.trans hRow)⟩
  · refine List.forall_mem_cons.mpr ⟨hRefused, fun m hm => ?_⟩
    exact (Moment.unanswered (Moment.leaseOf?_of_unconcerned (hNone m hm))).1
  · exact List.forall_mem_cons.mpr ⟨hUnstored, fun m hm => Moment.stores_of_unconcerned (hNone m hm)⟩

/-- Asking for the lease on an alert that nothing has been done about, and what follows, treats
it. -/
theorem proceed_treats (hAwaits : before.Awaits a.id d)
    (hRow : before.registry.alert? a.id = some a) (hEvaluated : a.isEvaluated = true)
    (hEnd : (d.now.shift w.leaseMicros).representable = true) :
    (registry (.acquireLease (w.leaseOn a d.now).draft) >>= w.proceed a d.now).Fares Hitch.Delays
      (fun moments _ after => after.Quiet ∧ w.Treats before a.id moments after) d := by
  refine Fares.request_bind (fun hitch e hDelays hReply => ?_)
    fun hitch granted hDelays hReply => ?_
  · have hLeft := hAwaits.delayed hDelays
    rw [acquire_failed hDelays hAwaits.toQuiet hReply]
    refine ⟨hLeft.toQuiet, .of_ungranted (List.forall_mem_singleton.mpr ?_)
      (List.forall_mem_singleton.mpr rfl) hLeft.row⟩
    rw [Moment.grantedAt?, momentAmid, hReply]
  obtain ⟨hGranted, hAfter⟩ := acquire_answered hDelays hAwaits.toQuiet hReply
  have hLeft := hAwaits.delayed hDelays
  have hQuiet := hLeft.withLeases (Registry.acquire d.registry.leases (w.leaseOn a d.now)).2
  rw [hAfter]
  cases (granted : Bool) with
  | false =>
    refine skip_treats ?_ rfl hQuiet hLeft.row d.now
    rw [Moment.grantedAt?, momentAmid, hReply]
  | true =>
    refine Fares.mono (evaluate_treats hQuiet (hLeft.row.trans hRow) fun l hl hAlert => ?_) ?_
    · rw [Registry.eq_of_mem_acquire hGranted.symm hl hAlert]
      rfl
    rintro later - after ⟨hEnd', hUnleased, hSettles, hReleases⟩
    have hGrantedAt : (d.momentAmid hitch (.registry
        (.acquireLease (w.leaseOn a d.now).draft))).grantedAt? a.id = some d.now := by
      rw [Moment.grantedAt?, momentAmid, hReply]
      exact if_pos rfl
    refine ⟨hEnd', .of_granted rfl hGrantedAt ?_ hUnleased ?_ ?_ ?_⟩
    · rw [Moment.refuses, momentAmid, hReply]
    · intro hNone
      refine ⟨a, hRow, hEvaluated, ⟨hEnd, free_of_granted hAwaits hGranted.symm⟩, ?_⟩
      rw [← hLeft.issues, ← hLeft.events]
      exact hSettles.settled fun m hm => hNone m (.tail _ hm)
    · intro hNone
      exact (hSettles.unstored fun m hm => hNone m (.tail _ hm)).trans hRow.symm
    · exact fun hNone => hReleases fun m hm => hNone m (.tail _ hm)

/-- Checking an alert that nothing has been done about treats it. -/
theorem checkAlert_treats (hAwaits : before.Awaits a.id d)
    (hRow : before.registry.alert? a.id = some a) (hEvaluated : a.isEvaluated = true) :
    (w.checkAlert a).Fares Hitch.Delays (fun moments _ after =>
      after.Quiet ∧ w.Treats before a.id moments after) d := by
  unfold checkAlert
  refine Fares.now_bind fun hitch hDelays => requireInstant_bind (fun _ => ?_) fun hEnd => ?_
  · have hRead := hAwaits.delayed hDelays
    exact ⟨hRead.toQuiet, .of_unconcerned (List.forall_mem_singleton.mpr rfl) hRead.row⟩
  · refine (proceed_treats (hAwaits.delayed hDelays) hRow hEvaluated hEnd).mono ?_
    rintro moments - after ⟨hQuiet, hTreats⟩
    have hFirst : ∀ m ∈ [d.momentAmid hitch .now], m.request.concerns a.id = false :=
      List.forall_mem_singleton.mpr rfl
    exact ⟨hQuiet, hTreats.prepend hFirst⟩

end Worker

end Triage
