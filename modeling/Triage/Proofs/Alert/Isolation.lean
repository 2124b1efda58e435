import Triage.Proofs.Alert.Treatment

/-!
# Alerts do not reach each other

A tick treats every alert (`processAlerts_treats`): the checks before its own keep aloof from it and
so do those after, so that what becomes of it depends on its own moments only.  A tick about this
alert alone, at the time of its check, leaves it in the same way (`alone_evaluated`).  Together these
are `alerts_isolated`.
-/

namespace Triage

open Program

namespace Worker

open Deployment

variable {w : Worker} {a : Alert} {d before : Deployment} {alertId : Int}

/-- What keeps aloof from an alert does not concern it. -/
theorem Aloof.unconcerned {q : Request} (h : Aloof alertId q) : q.concerns alertId = false := by
  cases h with
  | notifying h =>
      cases h with
      | aside h =>
          cases h with
          | notifier asked => cases asked <;> rfl
          | _ => rfl
      | delivery => rfl
  | acquire l hOther => simpa [Request.concerns, Lease.draft] using hOther
  | release other holder hOther => simpa [Request.concerns] using hOther
  | update b hOther => simpa [Request.concerns, Alert.draft] using hOther

/-- A program that keeps aloof from an alert leaves what has been done about it. -/
theorem Treats.then_aloof {moments : List (Moment Unit)} {after : Deployment} {p : Program α}
    (h : w.Treats before alertId moments after) (hQuiet : after.Quiet)
    (hAloof : p.Asks (Aloof alertId)) :
    p.Fares Hitch.Delays (fun later _ final =>
      final.Quiet ∧ w.Treats before alertId (moments ++ later) final) after := by
  have hSpares := hAloof.mono fun _ hq => hq.spares
  refine (((Retains.refl hQuiet alertId).fares hSpares).and (fares_asked hAloof after)).mono ?_
  rintro later - final ⟨⟨-, hRetains⟩, hAsked⟩
  exact ⟨hRetains.toQuiet, h.append (fun m hm => (hAsked m hm).unconcerned) hRetains⟩

/-- Whatever becomes of its check, attending to an alert ends well. -/
theorem fares_attend {kind : Hitch → Prop} (w : Worker) (a : Alert) (d : Deployment) :
    (w.attend a).Fares kind (fun _ outcome _ => outcome = .ok ()) d :=
  (attend_reaches w a d).mono fun _ _ _ ⟨hOk, _⟩ => hOk

/-- Attending to an alert that nothing has been done about treats it. -/
theorem attend_treats (hAwaits : before.Awaits a.id d)
    (hRow : before.registry.alert? a.id = some a) :
    (w.attend a).Fares Hitch.Delays (fun moments _ after =>
      after.Quiet ∧ w.Treats before a.id moments after) d := by
  unfold attend
  split
  next hEvaluated =>
    refine Fares.attempt_bind ((checkAlert_treats hAwaits hRow hEvaluated).mono ?_)
    rintro moments outcome after ⟨hQuiet, hTreats⟩
    refine hTreats.then_aloof hQuiet ?_
    cases outcome with
    | ok _ => exact asks_pure _
    | error e => exact report_aloof ..
  next =>
    exact fares_pure ⟨hAwaits.toQuiet, .of_unconcerned (List.forall_mem_nil _) hAwaits.row⟩

/-- Checking alerts treats each alert, whether it is among them or not: the checks before keep aloof
from it, and so do the ones after. -/
theorem checkAlerts_treats {alerts : List Alert} (hAwaits : before.Awaits alertId d)
    (hKeys : (alerts.map Alert.id).Nodup)
    (hRows : ∀ a ∈ alerts, a.id = alertId → before.registry.alert? alertId = some a) :
    (w.checkAlerts alerts).Fares Hitch.Delays (fun moments _ after =>
      after.Quiet ∧ w.Treats before alertId moments after) d := by
  induction alerts generalizing d with
  | nil => exact fares_pure ⟨hAwaits.toQuiet, .of_unconcerned (List.forall_mem_nil _) hAwaits.row⟩
  | cons b rest ih =>
      rw [List.map_cons, List.nodup_cons] at hKeys
      rw [List.forall_mem_cons] at hRows
      rw [checkAlerts_cons]
      -- Either it is its turn, and the rest keeps aloof from it; or it is that of another alert.
      by_cases hTurn : b.id = alertId
      · subst hTurn
        have hRest : (w.checkAlerts rest).Asks (Aloof b.id) := checkAlerts_aloof fun c hc hEq =>
          hKeys.1 (hEq ▸ List.mem_map_of_mem hc)
        refine Fares.bind (((attend_treats hAwaits (hRows.1 rfl)).and (fares_attend w b d)).mono ?_)
        rintro moments outcome after ⟨⟨hQuiet, hTreats⟩, rfl⟩
        exact hTreats.then_aloof hQuiet hRest
      · refine Fares.bind (((hAwaits.fares (attend_aloof hTurn)).and (fares_attend w b d)).mono ?_)
        rintro moments outcome after ⟨⟨hAloof, hStill⟩, rfl⟩
        refine (ih hStill hKeys.2 hRows.2).mono fun later _ final ⟨hQuiet, hTreats⟩ => ?_
        exact ⟨hQuiet, hTreats.prepend fun m hm => (hAloof m hm).unconcerned⟩

/-- Cleaning up expired leases does nothing about an alert. -/
theorem cleanUp_awaits (hAwaits : before.Awaits alertId d) :
    (do registry (.cleanUpLeases (← Program.now)) : Program Nat).Fares Hitch.Delays
      (fun moments _ after =>
        (∀ m ∈ moments, m.request.concerns alertId = false) ∧ before.Awaits alertId after) d := by
  refine Fares.now_bind fun h hDelays => ?_
  have hRead := hAwaits.delayed hDelays
  refine fares_request (q := .registry (.cleanUpLeases _)) fun h' hDelays' => ⟨?_, ?_⟩
  · exact List.forall_mem_cons.mpr ⟨rfl, List.forall_mem_singleton.mpr rfl⟩
  · have hLeft := hRead.delayed hDelays'
    obtain ⟨e, hFail⟩ | hDone :=
      (h.meanwhile d).meet_cases h' (.registry (.cleanUpLeases (h.meanwhile d).now))
    · rwa [hFail]
    · rw [hDone]
      exact hLeft.cleanUp ((Awaits.refl hRead.toQuiet hRead.keyed alertId).delayed hDelays').later

/-- Listing alerts does nothing about an alert, whether it fails or not. -/
theorem listAlerts_awaits {h : Hitch} (hDelays : h.Delays) (hAwaits : before.Awaits alertId d)
    (p : AlertPage) : before.Awaits alertId (d.meet h (.registry (.listAlerts p))).2 := by
  have hLeft := hAwaits.delayed hDelays
  obtain ⟨e, hFail⟩ | hDone := d.meet_cases h (.registry (.listAlerts p))
  · rwa [hFail]
  · rw [hDone]
    refine hLeft.perform_sparing (.list p) fun l hl _ _ => ?_
    rw [hLeft.perform_eq_apply]
    exact hl

/-- A tick treats every alert. -/
theorem processAlerts_treats (hQuiet : d.Quiet) (hKeyed : d.registry.Keyed) (alertId : Int) :
    (w.processAlerts).Fares Hitch.Delays (fun moments _ after =>
      after.Quiet ∧ w.Treats d alertId moments after) d := by
  unfold processAlerts
  refine Fares.attempt_bind ((cleanUp_awaits (.refl hQuiet hKeyed alertId)).mono ?_)
  rintro cleaning (e | _) mid ⟨hCleaning, hAwaits⟩
  · exact (Treats.of_unconcerned hCleaning hAwaits.row).then_aloof hAwaits.toQuiet (report_aloof ..)
  refine Fares.mono ?_ fun later _ final (h : final.Quiet ∧ w.Treats d alertId later final) =>
    ⟨h.1, h.2.prepend hCleaning⟩
  refine Fares.attempt_bind (fares_request (q := .registry (.listAlerts _)) fun h hDelays => ?_)
  have hListed := listAlerts_awaits hDelays hAwaits ⟨[], "", 0, alertBatch⟩
  have hListing : ∀ m ∈ [mid.momentAmid h (.registry (.listAlerts ⟨[], "", 0, alertBatch⟩))],
      m.request.concerns alertId = false := List.forall_mem_singleton.mpr rfl
  cases hReply : (mid.meet h (.registry (.listAlerts ⟨[], "", 0, alertBatch⟩))).1 with
  | error e =>
      exact (Treats.of_unconcerned hListing hListed.row).then_aloof hListed.toQuiet
        (report_aloof ..)
  | ok listed =>
      have hNewest : Prod.fst listed = (h.meanwhile mid).listed := by
        rw [meet_ok hReply] at hReply
        exact listAlerts_answered hReply
      have hLeft := hAwaits.delayed hDelays
      obtain ⟨hKeys, hRows⟩ := listed_rows hLeft.keyed
      rw [← hNewest] at hKeys hRows
      refine (checkAlerts_treats hListed hKeys fun a ha hId => ?_).mono ?_
      · rw [← hLeft.row, ← hId]
        exact hRows a ha
      · rintro later - final ⟨hEnd, hTreats⟩
        exact ⟨hEnd, hTreats.prepend hListing⟩

end Worker

/-- The deployment at a time, with a single alert. -/
def Deployment.alone (d : Deployment) (a : Alert) (time : Instant) : Deployment :=
  { d with now := time, registry := { d.registry with alerts := [a] } }

namespace Worker

open Deployment

variable {w : Worker} {a : Alert} {d : Deployment} {time : Instant}

/-- Where its lease can be granted, a check leaves an alert as the issues and the events say. -/
theorem checkAlert_carries (h : d.Quiet) (hRow : d.registry.alert? a.id = some a)
    (hGrantable : w.Grantable d a.id d.now) :
    (w.checkAlert a).Ends d fun _ after => d.Carries (d.evaluated a) after := by
  obtain ⟨hLease, -⟩ | ⟨⟨l, hMem, hAlert, hRuns⟩, -⟩ | ⟨-, -, hLeads⟩ := checkAlert_cases h w a
  · simp [hGrantable.leasable] at hLease
  · exact absurd (hGrantable.free l hMem hAlert) (Instant.not_lt.mpr hRuns)
  have hQuiet : (w.leased a d).Quiet := ⟨h.unit, h.staged, h.there⟩
  refine hLeads.ends (Ends.ensure (evaluate_carries hQuiet hRow) fun outcome after hCarries => ?_)
  refine (hCarries.ends (w.releaseLease_spares a.id)).mono fun ended final hFinal => ?_
  have hDone : d.Carries (d.evaluated a) final :=
    ⟨hFinal.toQuiet, hFinal.now, hFinal.events, hFinal.issues, hFinal.row⟩
  cases ended <;> exact hDone

/-- So does attending to the alert, if it is evaluated. -/
theorem attend_carries (h : d.Quiet) (hRow : d.registry.alert? a.id = some a)
    (hEvaluated : a.isEvaluated = true) (hGrantable : w.Grantable d a.id d.now) :
    (w.attend a).Ends d fun _ after => d.Carries (d.evaluated a) after := by
  have hId : (d.evaluated a).id = a.id := a.evaluated_id _ _ _
  rw [attend, if_pos hEvaluated]
  refine Ends.attempt_bind (checkAlert_carries h hRow hGrantable) fun checked after hCarries => ?_
  refine hCarries.ends ?_
  cases checked with
  | ok _ => exact asks_pure _
  | error e => exact report_spares ..

/-- A tick about a single alert whose lease can be granted leaves it as the issues and the events
say. -/
theorem alone_evaluated (h : d.Quiet) (hEvaluated : a.isEvaluated = true)
    (hGrantable : w.Grantable d a.id time) :
    ((d.alone a time).run w.processAlerts).2.registry.alert? a.id =
      some (a.evaluated d.registry.issues d.events time) := by
  have hAlone : (d.alone a time).Quiet := ⟨h.unit, h.staged, h.there⟩
  let before := (d.alone a time).tidied
  have hQuiet : before.Quiet := ⟨h.unit, h.staged, h.there⟩
  have hRow : before.registry.alert? a.id = some a := by
    simp [before, tidied, alone, Registry.alert?]
  have hGrant : w.Grantable before a.id before.now :=
    ⟨hGrantable.leasable, fun l hl => hGrantable.free l (List.mem_of_mem_filter hl)⟩
  have hListed : (d.alone a time).listed = [a] := by
    simp [listed, alone, newestFirst, page, alertBatch]
  have hEnds : (w.processAlerts).Ends (d.alone a time) fun _ after =>
      after.registry.alert? a.id = some (before.evaluated a) := by
    refine (processAlerts_leads hAlone w).ends ?_
    rw [hListed, checkAlerts_cons]
    refine Ends.of_run (run_attend before w a) (ends_pure ?_)
    have hCarries : before.Carries (before.evaluated a) (before.run (w.attend a)).2 :=
      attend_carries hQuiet hRow hEvaluated hGrant
    have hId : (before.evaluated a).id = a.id := a.evaluated_id _ _ _
    rw [← hId]
    exact hCarries.row
  exact hEnds

end Worker

/-- Within a tick of a worker, amid failures and delays of any kind, alerts do not reach each other.
An alert of which the lease is granted and no deciding request fails is left as by a tick, at the
time of its own check, in which it is the only alert.  An alert is left as it was if its lease is
refused or no update of it succeeds.  And a lease that is granted is not there after the tick, unless
the request to give it back fails. -/
theorem alerts_isolated (w : Worker) {d : Deployment} (hQuiet : d.Quiet) (hKeyed : d.registry.Keyed)
    {hitches : List Hitch} (hDelays : ∀ h ∈ hitches, h.Delays) :
    let tick := d.runAmid hitches w.processAlerts
    (∀ a ∈ d.registry.alerts,
      (∀ time, (∃ m ∈ tick.moments, m.grantedAt? a.id = some time) →
        (∀ m ∈ callsFor a.id tick.moments, m.request.decides = true → m.failed = false) →
          ∃ row, ((d.alone a time).run w.processAlerts).2.registry.alert? a.id = some row ∧
            tick.after.registry.alert? a.id = some row) ∧
      ((∃ m ∈ tick.moments, m.refuses a.id = true) ∨ (∀ m ∈ tick.moments, m.stores a.id = false) →
        tick.after.registry.alert? a.id = some a)) ∧
    ∀ alertId time, (∃ m ∈ tick.moments, m.grantedAt? alertId = some time) →
      (∀ m ∈ tick.moments, m.failsRelease alertId = false) →
        ∀ l ∈ tick.after.registry.leases, l.alertId ≠ alertId := by
  intro tick
  have hTreats (alertId : Int) : w.Treats d alertId tick.moments tick.after :=
    (Program.Fares.course (Worker.processAlerts_treats hQuiet hKeyed alertId) Hitch.absent_delays
      hDelays).2
  refine ⟨fun a ha => ⟨fun time hGranted hNone => ?_, fun hNone => ?_⟩, fun alertId =>
    (hTreats alertId).released⟩
  · obtain ⟨row, hRow, hEvaluated, hGrantable, hAfter⟩ := (hTreats a.id).settled time hGranted hNone
    obtain rfl := Option.some.inj (hRow.symm.trans (hKeyed.alert?_eq ha))
    exact ⟨_, Worker.alone_evaluated hQuiet hEvaluated hGrantable, hAfter⟩
  · have hUnstored := hNone.elim (hTreats a.id).refused id
    rw [(hTreats a.id).unstored hUnstored]
    exact hKeyed.alert?_eq ha

/-- A worker that signs no deliveries. -/
def workerA : Worker := ⟨"worker-a", Worker.usualLeaseMicros, ⟨none⟩⟩

/-- Three alerts that have triggered.  The lease of the newest one is held by another worker. -/
def heldAlerts : Deployment :=
  { Deployment.initial ⟨10000000000000000⟩ false with
    registry := { Registry.empty with
      alerts := [alertIn Alert.triggered 3, alertIn Alert.triggered 2, alertIn Alert.triggered 1]
      leases := [⟨3, "worker-b", ⟨10000000000000000⟩, ⟨10000000300000000⟩⟩] } }

/-- What the checks of the three alerts meet with: the issues of the second one cannot be listed, and
some time passes before the first one is checked. -/
def heldHitches : List Hitch :=
  [.absent, .absent, .absent, .absent, .absent, ⟨id, some .dateOutOfRange⟩, .absent, .absent,
    ⟨fun d => d.advance 7, none⟩]

/-- The checks of the three alerts in their order. -/
def heldChecks : Course Unit :=
  heldAlerts.tidied.runAmid heldHitches (workerA.checkAlerts heldAlerts.registry.alerts)

/-- The three alerts are listed, and then they are checked. -/
theorem heldAlerts_moments :
    (heldAlerts.runAmid (.absent :: .absent :: .absent :: heldHitches)
      workerA.processAlerts).moments =
        heldAlerts.momentAmid .absent .now ::
        heldAlerts.momentAmid .absent (.registry (.cleanUpLeases heldAlerts.now)) ::
        heldAlerts.tidied.momentAmid .absent (.registry (.listAlerts ⟨[], "", 0, alertBatch⟩)) ::
        heldChecks.moments := by
  have hSorted : newestFirst Alert.createdAt Alert.id heldAlerts.registry.alerts =
      heldAlerts.registry.alerts := List.mergeSort_of_pairwise (by decide)
  have hListed : heldAlerts.listed = heldAlerts.registry.alerts := by
    rw [Deployment.listed, hSorted]
    rfl
  rw [heldChecks, ← hListed]
  rfl

/-- The lease of the third alert is refused, the issues of the second one cannot be listed, and some
time passes; the first alert resolves all the same, and the leases on both are given back. -/
theorem first_alert_resolves :
    let after := (heldAlerts.runAmid (.absent :: .absent :: .absent :: heldHitches)
      workerA.processAlerts).after
    after.registry.alert? 1 = some ((alertIn Alert.triggered 1).resolve ⟨10000000000000007⟩) ∧
      after.registry.alert? 2 = some (alertIn Alert.triggered 2) ∧
      after.registry.alert? 3 = some (alertIn Alert.triggered 3) ∧
      ∀ l ∈ after.registry.leases, l.alertId ≠ 1 ∧ l.alertId ≠ 2 := by
  intro after
  have hDelays : ∀ h ∈ Hitch.absent :: .absent :: .absent :: heldHitches, h.Delays := by
    have hFails : Hitch.Delays ⟨id, some .dateOutOfRange⟩ := Hitch.absent_delays
    have hLate : Hitch.Delays ⟨fun d => d.advance 7, none⟩ := ⟨7, rfl⟩
    simp [heldHitches, Hitch.absent_delays, hFails, hLate]
  obtain ⟨hRows, hLeases⟩ :=
    alerts_isolated workerA (d := heldAlerts) ⟨rfl, rfl, rfl⟩ ⟨by decide, by decide, by decide⟩
      hDelays
  rw [heldAlerts_moments] at hRows hLeases
  refine ⟨?_, ?_, ?_, fun l hl =>
    ⟨hLeases 1 ⟨10000000000000007⟩ ?_ ?_ l hl, hLeases 2 ⟨10000000000000000⟩ ?_ ?_ l hl⟩⟩
  · obtain ⟨row, hAlone, hAfter⟩ := (hRows (alertIn Alert.triggered 1) (by decide)).1
      ⟨10000000000000007⟩ (by decide +kernel) (by decide +kernel)
    have hResolves : ((heldAlerts.alone (alertIn Alert.triggered 1) ⟨10000000000000007⟩).run
        workerA.processAlerts).2.registry.alert? 1 =
          some ((alertIn Alert.triggered 1).resolve ⟨10000000000000007⟩) := by decide +kernel
    obtain rfl := Option.some.inj (hAlone.symm.trans hResolves)
    exact hAfter
  · exact (hRows (alertIn Alert.triggered 2) (by decide)).2 (.inr (by decide +kernel))
  · exact (hRows (alertIn Alert.triggered 3) (by decide)).2 (.inl (by decide +kernel))
  · decide +kernel
  · decide +kernel
  · decide +kernel
  · decide +kernel

end Triage
