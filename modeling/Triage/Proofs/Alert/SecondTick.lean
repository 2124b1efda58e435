import Triage.Proofs.Alert.Checks

/-!
# A tick right after a tick

The first tick leaves every alert that it lists with nothing to do about it: each check leaves its
alert idle, and the checks of the other alerts keep aloof (`checkAlerts_rests`).  It changes neither
the identifiers of the alerts nor when they were created, so a tick at the same time lists the same
ones (`ids_listed`), and each of them is idle until its turn comes (`checkAlerts_harmless`).  So the
second tick sends nothing and writes nothing but leases (`second_tick_harmless`).
-/

namespace Triage

open Program

namespace Deployment

variable {d before : Deployment}

/-- The stamps of the alerts, in the order of the table. -/
def stamps (d : Deployment) : List (Instant × Int) := d.registry.alerts.map Alert.stamp

theorem ids_listed (d : Deployment) :
    d.listed.map Alert.id = (page 0 alertBatch (newestFirst Prod.fst Prod.snd d.stamps)).map Prod.snd := by
  rw [stamps, ← Registry.newestFirst_stamps, Registry.page_map, List.map_map]
  rfl

/-- What spares an alert leaves the stamps of all of them. -/
theorem stamps_perform (hUnit : d.openUnit = none) (hKeyed : d.registry.Keyed) {alertId : Int}
    {q : Request} (hSpares : Worker.Spares alertId q) : (d.perform q).2.stamps = d.stamps := by
  obtain hSame | ⟨call, reply, freshUuid, hCall, hRun⟩ := perform_cases hUnit q
  · rw [stamps, hSame, stamps]
  obtain rfl := Request.eq_of_call? hCall
  by_cases hWrites : .alerts ∈ call.writes
  · cases hSpares with
    | notifying h => simpa using h.writes hWrites
    | update b hOther => exact hKeyed.updateAlert_stamps hRun
    | _ => simp [RegistryCall.writes] at hWrites
  · have hRows := d.registry.run_sameRows d.now freshUuid call hWrites
    rw [hRun] at hRows
    exact congrArg (List.map Alert.stamp) hRows

theorem stamps_ends (hUnit : d.openUnit = none) (hKeyed : d.registry.Keyed) {alertId : Int}
    {p : Program α} (hAsks : p.Asks (Worker.Spares alertId)) :
    p.Ends d fun _ after => after.stamps = d.stamps := by
  let inv (after : Deployment) : Prop :=
    after.openUnit = none ∧ after.registry.Keyed ∧ after.stamps = d.stamps
  have hKeep : ∀ after q, Worker.Spares alertId q → inv after → inv (after.perform q).2 :=
    fun after q hSpares ⟨hUnit, hKeyed, hSame⟩ => ⟨after.perform_openUnit hUnit q,
      perform_keyed hUnit hKeyed q, (stamps_perform hUnit hKeyed hSpares).trans hSame⟩
  exact (Ends.of_asks hAsks hKeep ⟨hUnit, hKeyed, rfl⟩).2.2

end Deployment

namespace Worker

open Deployment

variable {w : Worker} {a : Alert} {d : Deployment}

/-- After a tick has attended to an alert, nothing is left to do about it. -/
theorem attend_rests (h : d.Quiet) (hKeyed : d.registry.Keyed)
    (hRow : d.registry.alert? a.id = some a) :
    (w.attend a).Ends d fun _ after => w.Rests after a.id := by
  unfold attend
  split
  next hEvaluated =>
    let checked (_ : Except Failure Alert) (after : Deployment) : Prop :=
      after.Quiet ∧ after.registry.Keyed ∧ w.Rests after a.id
    have hChecked : (w.checkAlert a).Ends d checked :=
      ⟨h.run _, run_keyed h.unit hKeyed _, checkAlert_rests h hRow hEvaluated⟩
    refine Ends.attempt_bind hChecked fun outcome after ⟨hQuiet, hAfterKeyed, hRests⟩ => ?_
    cases outcome with
    | ok _ => exact ends_pure hRests
    | error e =>
        exact (Apart.ends (report_aloof ..) (.refl hQuiet hAfterKeyed a.id)).mono
          fun _ _ hApart => hRests.apart hApart
  next hUnevaluated =>
    refine ends_pure fun row hFound => .unevaluated ?_
    obtain rfl := Option.some.inj (hRow.symm.trans hFound)
    exact Bool.eq_false_iff.mpr hUnevaluated

/-- Once the alerts of a list have been checked one after the other, nothing is left to do about any
of them. -/
theorem checkAlerts_rests {alerts : List Alert} (h : d.Quiet) (hKeyed : d.registry.Keyed)
    (hKeys : (alerts.map Alert.id).Nodup) (hRows : ∀ a ∈ alerts, d.registry.alert? a.id = some a) :
    (w.checkAlerts alerts).Ends d fun _ after => ∀ a ∈ alerts, w.Rests after a.id := by
  induction alerts generalizing d with
  | nil => exact List.forall_mem_nil _
  | cons b rest ih =>
      rw [List.map_cons, List.nodup_cons] at hKeys
      rw [List.forall_mem_cons] at hRows
      have hOthers : ∀ a ∈ rest, a.id ≠ b.id := fun a ha hEq =>
        hKeys.1 (hEq ▸ List.mem_map_of_mem ha)
      rw [checkAlerts_cons]
      refine Ends.of_run (run_attend d w b) ?_
      have hQuiet := h.run (w.attend b)
      have hMidKeyed := run_keyed h.unit hKeyed (w.attend b)
      have hFirst : w.Rests (d.run (w.attend b)).2 b.id := attend_rests h hKeyed hRows.1
      -- The rest keeps aloof from the first alert, and finds its own rows as they were listed.
      have hApart := Apart.ends (checkAlerts_aloof (w := w) hOthers) (.refl hQuiet hMidKeyed b.id)
      have hLeft : ∀ a ∈ rest, d.Undisturbed a.id (d.run (w.attend b)).2 := fun a ha =>
        Undisturbed.ends (attend_spares (hOthers a ha).symm) (.refl h a.id)
      refine List.forall_mem_cons.mpr ⟨hFirst.apart hApart, ?_⟩
      exact ih hQuiet hMidKeyed hKeys.2 fun a ha => (hLeft a ha).row.trans (hRows.2 a ha)

/-- Attending to an alert about which there is nothing to do sends nothing and writes nothing but
leases. -/
theorem Idle.attends_harmlessly (hIdle : w.Idle d a) (h : d.Quiet) (hKeyed : d.registry.Keyed) :
    d.AsksOnly Request.Harmless (w.attend a) := by
  unfold attend
  split
  next hEvaluated =>
    refine (hIdle.checks_harmlessly hEvaluated h hKeyed).attempt_bind fun outcome after _ => ?_
    cases outcome with
    | ok _ => exact List.forall_mem_nil _
    | error e => exact asksOnly_request (Request.harmless_elsewhere rfl rfl)
  next => exact List.forall_mem_nil _

/-- Checking alerts about which there is nothing to do sends nothing and writes nothing but leases. -/
theorem checkAlerts_harmless {alerts : List Alert} (h : d.Quiet) (hKeyed : d.registry.Keyed)
    (hKeys : (alerts.map Alert.id).Nodup) (hIdle : ∀ a ∈ alerts, w.Idle d a) :
    d.AsksOnly Request.Harmless (w.checkAlerts alerts) := by
  induction alerts generalizing d with
  | nil => exact List.forall_mem_nil _
  | cons b rest ih =>
      rw [List.map_cons, List.nodup_cons] at hKeys
      rw [List.forall_mem_cons] at hIdle
      rw [checkAlerts_cons]
      refine (hIdle.1.attends_harmlessly h hKeyed).bind fun _ after hRun => ?_
      obtain rfl : (d.run (w.attend b)).2 = after := congrArg Prod.snd hRun
      refine ih (h.run _) (run_keyed h.unit hKeyed _) hKeys.2 fun a ha => (hIdle.2 a ha).apart ?_
      have hOther : b.id ≠ a.id := fun hEq => hKeys.1 (hEq ▸ List.mem_map_of_mem ha)
      exact Apart.ends (attend_aloof hOther) (.refl h hKeyed a.id)

/-- Without tables a tick logs that it cannot clean up, and that is all. -/
theorem processAlerts_harmless_of_dropped (hUnit : d.openUnit = none) (hStaged : d.staged = [])
    (hDropped : d.registry.dropped = true) : d.AsksOnly Request.Harmless w.processAlerts := by
  have hCleanUp : d.run (do registry (.cleanUpLeases (← Program.now)) : Program Nat) =
      (.error (.registry (RegistryCall.cleanUpLeases d.now).operation), d) := by
    refine (run_bind (d.run_request .now)).trans ((d.run_request _).trans ?_)
    rw [perform_unstaged hStaged, carryOutRequest, callRegistry_alone hUnit, Registry.run, hDropped]
    rfl
  exact (Leads.attempt_bind (cleanUp_harmless d) hCleanUp).asksOnly
    (asksOnly_request (Request.harmless_elsewhere rfl rfl))

/-- A tick leaves nothing to do about any alert that would be listed after it. -/
theorem processAlerts_rests (h : d.Quiet) (hKeyed : d.registry.Keyed) :
    (w.processAlerts).Ends d fun _ after => ∀ a ∈ after.listed, w.Rests after a.id := by
  refine (processAlerts_leads h w).ends ?_
  have hTidied : d.tidied.Quiet := ⟨h.unit, h.staged, h.there⟩
  have hTidiedKeyed := tidied_keyed hKeyed
  have hRests : (w.checkAlerts d.listed).Ends d.tidied fun _ after =>
      ∀ a ∈ d.listed, w.Rests after a.id :=
    checkAlerts_rests hTidied hTidiedKeyed (listed_rows hKeyed).1 (listed_rows hKeyed).2
  -- What is asked spares an alert that does not exist, so the same alerts are listed afterwards.
  have hAsks : (w.checkAlerts d.listed).Asks (Spares (nextId (d.listed.map Alert.id))) :=
    checkAlerts_spares fun a ha hEq => by
      have hTaken : a.id ∈ d.listed.map Alert.id := List.mem_map_of_mem ha
      exact nextId_notMem _ (hEq ▸ hTaken)
  have hStamps : (w.checkAlerts d.listed).Ends d.tidied fun _ after => after.stamps = d.stamps :=
    stamps_ends hTidied.unit hTidiedKeyed hAsks
  refine fun a ha => ?_
  have hMem := List.mem_map_of_mem (f := Alert.id) ha
  rw [ids_listed, hStamps, ← ids_listed] at hMem
  obtain ⟨b, hb, hId⟩ := List.mem_map.mp hMem
  exact hId ▸ hRests b hb

end Worker

/-- A quiet deployment with the tables, the events and the time of an earlier one; all else, such as
the outcomes of the posts to come, may differ. -/
structure Deployment.Resumes (before d : Deployment) : Prop where
  unit : d.openUnit = none
  staged : d.staged = []
  now : d.now = before.now
  events : d.events = before.events
  registry : d.registry = before.registry

namespace Deployment

variable {d before : Deployment}

theorem Resumes.keyed (h : before.Resumes d) (hKeyed : before.registry.Keyed) : d.registry.Keyed := by
  rwa [h.registry]

/-- Cleaning up expired leases leaves those that run. -/
theorem Resumes.apart (h : before.Resumes d) (hThere : before.registry.dropped = false)
    (hKeyed : before.registry.Keyed) (alertId : Int) : before.Apart alertId d.tidied where
  unit := h.unit
  staged := h.staged
  there := (congrArg Registry.dropped h.registry).trans hThere
  now := h.now
  events := h.events
  issues := show d.registry.issues = _ from congrArg Registry.issues h.registry
  row := show d.registry.alert? alertId = _ from congrArg (Registry.alert? · alertId) h.registry
  leases l hl _ := h.registry ▸ List.mem_of_mem_filter hl
  keyed := tidied_keyed (h.keyed hKeyed)
  kept l hl _ hRuns := by
    refine List.mem_filter.mpr ⟨h.registry ▸ hl, ?_⟩
    simpa [h.now] using hRuns

end Deployment

/-- After a tick, when nothing has been written and no time has passed, another tick of the worker
sends nothing and writes no table but the leases: no alert changes and no notification is recorded.
This holds whatever the tables, the events and the outcomes of the posts are, also when checks were
refused a lease or failed.  Ticks run outside a unit of work, and no failure is staged for them. -/
theorem second_tick_harmless (w : Worker) {d again : Deployment} (hUnit : d.openUnit = none)
    (hStaged : d.staged = []) (hKeyed : d.registry.Keyed)
    (hAgain : (d.run w.processAlerts).2.Resumes again) :
    (∀ q ∈ again.asked w.processAlerts, q.Harmless) ∧
      again.posted w.processAlerts = [] ∧
      (again.run w.processAlerts).2.registry.alerts = again.registry.alerts ∧
      (again.run w.processAlerts).2.registry.deliveries = again.registry.deliveries := by
  have hAfterKeyed := Deployment.run_keyed hUnit hKeyed w.processAlerts
  have hSame := Deployment.run_dropped hUnit w.processAlerts
  have hHarmless : again.AsksOnly Request.Harmless w.processAlerts := by
    cases hThere : again.registry.dropped with
    | true => exact Worker.processAlerts_harmless_of_dropped hAgain.unit hAgain.staged hThere
    | false =>
        have hQuiet : again.Quiet := ⟨hAgain.unit, hAgain.staged, hThere⟩
        rw [hAgain.registry] at hThere
        have hRests : (w.processAlerts).Ends d fun _ after => ∀ a ∈ after.listed, w.Rests after a.id :=
          Worker.processAlerts_rests ⟨hUnit, hStaged, hSame.symm.trans hThere⟩ hKeyed
        have hRows := Deployment.listed_rows (hAgain.keyed hAfterKeyed)
        have hIdle : ∀ a ∈ again.listed, w.Idle again.tidied a := fun a ha => by
          have hListed : a ∈ (d.run w.processAlerts).2.listed := by
            rwa [Deployment.listed, ← hAgain.registry]
          exact (hRests a hListed).apart (hAgain.apart hThere hAfterKeyed a.id) a (hRows.2 a ha)
        have hApart := hAgain.apart hThere hAfterKeyed 0
        exact (Worker.processAlerts_leads hQuiet w).asksOnly
          (Worker.checkAlerts_harmless hApart.toQuiet hApart.keyed hRows.1 hIdle)
  have hRows : ∀ t ≠ Table.leases, again.registry.SameRows (again.run w.processAlerts).2.registry t :=
    fun t hOther => Deployment.AsksOnly.sameRows hAgain.unit fun q hq call hCall hMem => by
      simpa [hOther] using (hHarmless q hq).writes call hCall hMem
  refine ⟨hHarmless, ?_, hRows .alerts (by decide), hRows .deliveries (by decide)⟩
  exact List.filterMap_eq_nil_iff.mpr fun q hq => (hHarmless q hq).sends

/-- A triggered alert that no issue speaks for any more, a webhook of its team, and a host that cannot
be reached. -/
def unreachableWebhook : Deployment :=
  { Deployment.initial ⟨10000000000000000⟩ false with
    registry := { Registry.empty with
      alerts := [⟨1, 1, 1, "Spike", none, Alert.triggered, 1, 1, 4, false, some ⟨0⟩, none, ⟨0⟩, ⟨0⟩⟩]
      channels := [⟨1, 1, "Default Webhook", Channel.webhookKind, true, ⟨0⟩, ⟨0⟩⟩]
      webhooks := [⟨1, 1, "https://one.example/hook", none, some ⟨0⟩, ⟨0⟩, ⟨0⟩⟩] }
    outcomes := [.broken "connection refused"] }

/-- The first tick resolves the alert, and the post about it fails; the second tick does not make up
for that, although the host can be reached now. -/
theorem failed_delivery_not_repeated :
    let w : Worker := ⟨"worker-a", Worker.usualLeaseMicros, ⟨none⟩⟩
    let first := (unreachableWebhook.run w.processAlerts).2
    let again : Deployment := { first with outcomes := [.fine] }
    (unreachableWebhook.posted w.processAlerts).map (·.url) = ["https://one.example/hook"] ∧
      first.registry.alerts.map Alert.status = [Alert.active] ∧
      first.registry.deliveries.map Delivery.status = [Delivery.failed] ∧
      (∀ q ∈ again.asked w.processAlerts, q.Harmless) ∧
      again.posted w.processAlerts = [] ∧
      (again.run w.processAlerts).2.registry.alerts = again.registry.alerts ∧
      (again.run w.processAlerts).2.registry.deliveries = again.registry.deliveries := by
  intro w first again
  have hKeyed : unreachableWebhook.registry.Keyed := ⟨by decide, by decide, by decide⟩
  have hQuiet : first.Quiet := Deployment.Quiet.run ⟨rfl, rfl, rfl⟩ w.processAlerts
  have hAgain : first.Resumes again := ⟨hQuiet.unit, hQuiet.staged, rfl, rfl, rfl⟩
  exact ⟨by decide +kernel, by decide +kernel, by decide +kernel,
    second_tick_harmless w rfl rfl hKeyed hAgain⟩

end Triage
