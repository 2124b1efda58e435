import Triage.Proofs.Alert.TickConduct
import Triage.Proofs.Deployment.Additions
import Triage.Proofs.Deployment.Running
import Triage.Proofs.Registry.Leases

/-!
# What a check leaves to the other alerts

Checking one alert keeps aloof from every other one (`checkAlert_aloof`): it neither writes the other
alert, nor grants or gives back a lease on it.  So it does not disturb it: whatever it asks leaves the
row of the other alert, the issues, the events and the clock as they are, and grants no lease on the
other alert (`Undisturbed.perform`); the leases that run on the other alert stay as well (`Apart.perform`).
Notifying about an alert and giving its lease back disturb no alert at all.
-/

namespace Triage

open Program

/-- A request that neither writes an alert, nor grants a lease on it, nor gives one back. -/
inductive Worker.Aloof (alertId : Int) : Request → Prop
  | notifying {other : Int} {kind : String} {q : Request} (h : Notifying other kind q) :
      Aloof alertId q
  | acquire (l : Lease) (hOther : l.alertId ≠ alertId) :
      Aloof alertId (.registry (.acquireLease l.draft))
  | release (other : Int) (holder : String) (hOther : other ≠ alertId) :
      Aloof alertId (.registry (.releaseLease other holder))
  | update (b : Alert) (hOther : b.id ≠ alertId) : Aloof alertId (.registry (.updateAlert b.draft))

/-- A request that neither writes an alert nor grants a lease on it. -/
inductive Worker.Spares (alertId : Int) : Request → Prop
  | notifying {other : Int} {kind : String} {q : Request} (h : Notifying other kind q) :
      Spares alertId q
  | acquire (l : Lease) (hOther : l.alertId ≠ alertId) :
      Spares alertId (.registry (.acquireLease l.draft))
  | release (other : Int) (holder : String) : Spares alertId (.registry (.releaseLease other holder))
  | cleanUp (time : Instant) : Spares alertId (.registry (.cleanUpLeases time))
  | list (p : AlertPage) : Spares alertId (.registry (.listAlerts p))
  | update (b : Alert) (hOther : b.id ≠ alertId) : Spares alertId (.registry (.updateAlert b.draft))

namespace Worker

variable {w : Worker} {alertId : Int}

theorem Aside.spares {q : Request} (h : Aside q) : Spares alertId q :=
  @Spares.notifying alertId alertId "" q (.aside h)

theorem report_spares (severity : Log.Severity) (component : Log.Component) (message : String)
    (subjects : List (String × Json)) (failure : Option Failure) :
    (report severity component message subjects failure).Asks (Spares alertId) :=
  (report_aside severity component message subjects failure).mono fun _ h => h.spares

theorem notifyTeam_spares (w : Worker) (a : Alert) (kind : String) :
    (w.notifyTeam a kind).Asks (Spares alertId) :=
  (notifyTeam_asks w a kind).mono fun _ => .notifying

theorem releaseLease_spares (w : Worker) (other : Int) :
    (w.releaseLease other).Asks (Spares alertId) := by
  unfold releaseLease
  exact (asks_request (.release other w.instanceId)).attempt_bind (fun _ => asks_pure _)
    fun e => report_spares ..

theorem Aside.aloof {q : Request} (h : Aside q) : Aloof alertId q :=
  @Aloof.notifying alertId alertId "" q (.aside h)

theorem report_aloof (severity : Log.Severity) (component : Log.Component) (message : String)
    (subjects : List (String × Json)) (failure : Option Failure) :
    (report severity component message subjects failure).Asks (Aloof alertId) :=
  (report_aside severity component message subjects failure).mono fun _ h => h.aloof

theorem evaluate_aloof {b : Alert} (hOther : b.id ≠ alertId) (time : Instant) :
    (w.evaluate b time).Asks (Aloof alertId) := by
  refine (evaluate_asks w b time).mono fun q hAsked => ?_
  cases hAsked with
  | notifying h => exact .notifying h
  | trigger => exact .update (b.trigger time) hOther
  | resolve => exact .update (b.resolve time) hOther

/-- Checking an alert keeps aloof from every other one. -/
theorem checkAlert_aloof {b : Alert} (hOther : b.id ≠ alertId) :
    (w.checkAlert b).Asks (Aloof alertId) := by
  have hRelease : (w.releaseLease b.id).Asks (Aloof alertId) := by
    unfold releaseLease
    exact (asks_request (.release b.id w.instanceId hOther)).attempt_bind (fun _ => asks_pure _)
      fun e => report_aloof ..
  unfold checkAlert
  refine (now_aside.mono fun _ h => h.aloof).bind fun time => ?_
  refine (requireInstant_asks _).bind fun expiresAt => ?_
  refine (asks_request (.acquire ⟨b.id, w.instanceId, time, expiresAt⟩ hOther)).bind
    fun acquired => ?_
  cases (acquired : Bool) with
  | true => exact (evaluate_aloof hOther time).ensure hRelease
  | false => exact (report_aloof ..).bind fun _ => asks_pure _

/-- What a tick does about one of its alerts: it checks an alert that is evaluated, and logs a
failure. -/
def attend (w : Worker) (a : Alert) : Program Unit := do
  if a.isEvaluated then
    match ← (w.checkAlert a).attempt with
    | .ok _ => pure ()
    | .error e =>
      report .error .worker
        ("Failed to check alert " ++ Text.intText a.id ++ " (" ++ a.ruleName ++ "): " ++ e.message)
        [("alert_id", .int a.id)] (some e)

theorem checkAlerts_cons (w : Worker) (a : Alert) (rest : List Alert) :
    w.checkAlerts (a :: rest) = (w.attend a >>= fun _ => w.checkAlerts rest) := by
  rw [checkAlerts, attend]
  split
  · rw [bind_assoc]
    congr 1
    funext outcome
    cases outcome <;> rfl
  · rfl

/-- Whatever becomes of a check, the tick goes on. -/
theorem run_attend (d : Deployment) (w : Worker) (a : Alert) :
    d.run (w.attend a) = (.ok (), (d.run (w.attend a)).2) := by
  have hEnds : (w.attend a).Ends d fun outcome _ => outcome = .ok () := by
    unfold attend
    split
    · refine Ends.of_run (d.run_attempt _) ?_
      cases (d.run (w.checkAlert a)).1 with
      | ok _ => exact ends_pure rfl
      | error e => exact ends_request rfl
    · exact ends_pure rfl
  exact Prod.ext hEnds rfl

/-- What holds of checking an alert and of logging holds of attending to it. -/
theorem attend_asks {kind : Request → Prop} {a : Alert}
    (hCheck : a.isEvaluated = true → (w.checkAlert a).Asks kind)
    (hRecord : ∀ entry, kind (.record entry)) : (w.attend a).Asks kind := by
  unfold attend
  split
  next hEvaluated =>
    exact (hCheck hEvaluated).attempt_bind (fun _ => asks_pure _) fun e => asks_request (hRecord _)
  next => exact asks_pure _

/-- Attending to an alert keeps aloof from every other one. -/
theorem attend_aloof {b : Alert} (hOther : b.id ≠ alertId) : (w.attend b).Asks (Aloof alertId) :=
  attend_asks (fun _ => checkAlert_aloof hOther) fun entry => Aside.aloof (.notifier (.record entry))

/-- Checking alerts keeps aloof from every alert that is not among them. -/
theorem checkAlerts_aloof {alerts : List Alert} (hOther : ∀ b ∈ alerts, b.id ≠ alertId) :
    (w.checkAlerts alerts).Asks (Aloof alertId) := by
  induction alerts with
  | nil => exact asks_pure _
  | cons b rest ih =>
      rw [List.forall_mem_cons] at hOther
      rw [checkAlerts_cons]
      exact (attend_aloof hOther.1).bind fun _ => ih hOther.2

/-- What keeps aloof from an alert spares it. -/
theorem Aloof.spares {q : Request} (h : Aloof alertId q) : Spares alertId q := by
  cases h with
  | notifying h => exact .notifying h
  | acquire l hOther => exact .acquire l hOther
  | release other holder => exact .release other holder
  | update b hOther => exact .update b hOther

/-- Attending to an alert spares every other one. -/
theorem attend_spares {b : Alert} (hOther : b.id ≠ alertId) : (w.attend b).Asks (Spares alertId) :=
  (attend_aloof hOther).mono fun _ h => h.spares

/-- Checking alerts spares every alert that is not among them. -/
theorem checkAlerts_spares {alerts : List Alert} (hOther : ∀ b ∈ alerts, b.id ≠ alertId) :
    (w.checkAlerts alerts).Asks (Spares alertId) :=
  (checkAlerts_aloof hOther).mono fun _ h => h.spares

/-- What spares an alert lets no time pass. -/
theorem Spares.now {q : Request} (h : Spares alertId q) (d : Deployment) :
    (d.perform q).2.now = d.now := by
  have hNoPause : ∀ micros, q ≠ .pause micros := by
    rintro micros rfl
    cases h with
    | notifying h => cases h with | aside h => cases h with | notifier asked => cases asked
  obtain ⟨e, staged, hFail⟩ | ⟨staged, hDone⟩ := d.perform_eq q
  · rw [hFail]
  · rw [hDone]
    obtain hSame | ⟨micros, hPause, -⟩ := Deployment.carryOutRequest_now { d with staged } q
    · exact hSame
    · exact absurd hPause (hNoPause micros)

/-- All that a tick asks spares some alert. -/
theorem processAlerts_spares (w : Worker) :
    (w.processAlerts).Asks fun q => ∃ alertId, Spares alertId q := by
  have hReport : ∀ severity component message subjects failure,
      (report severity component message subjects failure).Asks fun q => ∃ alertId, Spares alertId q :=
    fun _ _ _ _ _ => Asks.mono (report_spares ..) fun _ h => ⟨0, h⟩
  unfold processAlerts
  refine Asks.attempt_bind ?_ (fun _ => ?_) fun e => hReport ..
  · exact (now_aside.mono fun _ h => ⟨0, h.spares⟩).bind fun time => asks_request ⟨0, .cleanUp time⟩
  refine Asks.attempt_bind (asks_request ⟨0, .list _⟩) (fun listed => ?_) fun e => hReport ..
  -- The identifier that a further alert would get is that of none.
  have hOther : ∀ a ∈ listed.1, a.id ≠ nextId (listed.1.map Alert.id) := fun a ha hEq => by
    have hTaken : a.id ∈ listed.1.map Alert.id := List.mem_map_of_mem ha
    exact nextId_notMem _ (hEq ▸ hTaken)
  exact (checkAlerts_spares hOther).mono fun _ h => ⟨_, h⟩

/-- What is asked besides the registry changes nothing but the log, the posts and what is left of
their outcomes. -/
theorem Aside.carryOut {d : Deployment} (hUnit : d.openUnit = none) {q : Request} (h : Aside q)
    (hOther : q.call? = none) :
    ∃ records posts outcomes, (d.carryOutRequest q).2 = { d with records, posts, outcomes } := by
  cases h with
  | notifier asked =>
      cases asked with
      | webhook channelId => cases hOther
      | record entry => exact ⟨_, d.posts, d.outcomes, rfl⟩
      | post p =>
          simp only [Deployment.carryOutRequest, Deployment.sendPost]
          split
          · exact ⟨d.records, d.posts, d.outcomes, rfl⟩
          · split <;> exact ⟨d.records, _, _, rfl⟩
      | _ => exact ⟨d.records, d.posts, d.outcomes, rfl⟩
  | issues | channels | delivery => cases hOther
  | metrics c =>
      refine ⟨d.records, d.posts, d.outcomes, ?_⟩
      simp only [Deployment.carryOutRequest, Deployment.callEventLog, EventLog.run]
      split <;> rfl
  | noteChange change =>
      exact ⟨d.records, d.posts, d.outcomes, Deployment.noteChange_eq hUnit change⟩

/-- Of the tables, notifying writes the deliveries. -/
theorem Notifying.writes {other : Int} {kind : String} {call : RegistryCall}
    (h : Notifying other kind (.registry call)) : call.writes ⊆ [.deliveries] := by
  cases h with
  | aside h =>
      cases h with
      | notifier asked =>
          cases asked
          simp [RegistryCall.writes]
      | _ => simp [RegistryCall.writes]
  | delivery => simp [RegistryCall.writes]

end Worker

namespace Deployment

/-- A quiet deployment that holds about an alert what an earlier one held: the row of the alert, the
issues, the events and the time are the same, and no lease on the alert has been added. -/
structure Undisturbed (before : Deployment) (alertId : Int) (d : Deployment) : Prop
    extends d.Quiet where
  now : d.now = before.now
  events : d.events = before.events
  issues : d.registry.issues = before.registry.issues
  row : d.registry.alert? alertId = before.registry.alert? alertId
  leases : ∀ l ∈ d.registry.leases, l.alertId = alertId → l ∈ before.registry.leases

namespace Undisturbed

variable {before d : Deployment} {alertId : Int}

theorem refl (h : d.Quiet) (alertId : Int) : Undisturbed d alertId d :=
  ⟨h, rfl, rfl, rfl, rfl, fun _ h _ => h⟩

/-- A registry call that does not write issues and leaves the row and the leases of the alert. -/
theorem call (h : Undisturbed before alertId d) {call : RegistryCall}
    (hIssues : .issues ∉ call.writes)
    (hRow : ∀ freshUuid reply registry,
      d.registry.run d.now freshUuid call = (.ok reply, registry) →
        registry.alert? alertId = d.registry.alert? alertId)
    (hLeases : ∀ freshUuid, ∀ l ∈ (d.registry.run d.now freshUuid call).2.leases,
      l.alertId = alertId → l ∈ d.registry.leases) :
    Undisturbed before alertId (d.perform (.registry call)).2 := by
  obtain ⟨issuesNamed, hCall⟩ := callRegistry_eq h.unit call
  rw [perform_unstaged h.staged, carryOutRequest, hCall]
  have hSame := d.registry.run_sameRows d.now d.nextUuid call hIssues
  have hThere := d.registry.run_dropped d.now d.nextUuid call
  have hFound := hRow d.nextUuid
  have hLeft := hLeases d.nextUuid
  rcases hRun : d.registry.run d.now d.nextUuid call with ⟨e | reply, registry⟩
  · exact ⟨⟨h.unit, h.staged, h.there⟩, h.now, h.events, h.issues, h.row, h.leases⟩
  rw [hRun] at hSame hThere hLeft
  exact ⟨⟨h.unit, h.staged, hThere.trans h.there⟩, h.now, h.events, hSame.trans h.issues,
    (hFound reply registry hRun).trans h.row, fun l hl hAlert => h.leases l (hLeft l hl hAlert) hAlert⟩

/-- A registry call that writes neither alerts nor issues, and grants no lease on the alert. -/
theorem call_sameAlerts (h : Undisturbed before alertId d) {call : RegistryCall}
    (hIssues : .issues ∉ call.writes) (hAlerts : .alerts ∉ call.writes)
    (hLeases : ∀ freshUuid, ∀ l ∈ (d.registry.run d.now freshUuid call).2.leases,
      l.alertId = alertId → l ∈ d.registry.leases) :
    Undisturbed before alertId (d.perform (.registry call)).2 := by
  refine h.call hIssues (fun freshUuid reply registry hRun => ?_) hLeases
  have hSame := d.registry.run_sameRows d.now freshUuid call hAlerts
  rw [hRun] at hSame
  exact Registry.alert?_congr hSame alertId

/-- A registry call that writes none of the alerts, issues and leases. -/
theorem call_elsewhere (h : Undisturbed before alertId d) {call : RegistryCall}
    (hIssues : .issues ∉ call.writes) (hAlerts : .alerts ∉ call.writes)
    (hLeases : .leases ∉ call.writes) :
    Undisturbed before alertId (d.perform (.registry call)).2 := by
  refine h.call_sameAlerts hIssues hAlerts fun freshUuid l hl _ => ?_
  have hSame : _ = d.registry.leases := d.registry.run_sameRows d.now freshUuid call hLeases
  rwa [hSame] at hl

/-- What spares an alert does not disturb it. -/
theorem perform (h : Undisturbed before alertId d) {q : Request} (hSpares : Worker.Spares alertId q) :
    Undisturbed before alertId (d.perform q).2 := by
  cases hSpares with
  | notifying hAsked =>
      cases hCall : q.call? with
      | some call =>
          obtain rfl := Request.eq_of_call? hCall
          have hWrites := hAsked.writes
          refine h.call_elsewhere ?_ ?_ ?_ <;> intro hMem <;> simpa using hWrites hMem
      | none =>
          cases hAsked with
          | delivery => cases hCall
          | aside hAside =>
              obtain ⟨records, posts, outcomes, hAfter⟩ := hAside.carryOut h.unit hCall
              rw [perform_unstaged h.staged, hAfter]
              exact ⟨⟨h.unit, h.staged, h.there⟩, h.now, h.events, h.issues, h.row, h.leases⟩
  | list p => refine h.call_elsewhere ?_ ?_ ?_ <;> simp [RegistryCall.writes]
  | acquire new hOther =>
      refine h.call_sameAlerts (by simp [RegistryCall.writes]) (by simp [RegistryCall.writes]) ?_
      intro freshUuid l hl hAlert
      rw [Registry.run_acquireLease h.there] at hl
      exact Registry.mem_of_mem_acquire hl (hAlert ▸ hOther)
  | release | cleanUp =>
      refine h.call_sameAlerts (by simp [RegistryCall.writes]) (by simp [RegistryCall.writes]) ?_
      intro freshUuid l hl _
      rw [Registry.run_eq_apply h.there] at hl
      exact List.mem_of_mem_filter hl
  | update b hOther =>
      refine h.call (by simp [RegistryCall.writes]) (fun freshUuid reply registry hRun => ?_) ?_
      · obtain ⟨row, -, hRows⟩ := Registry.updateAlert_rows hRun
        rw [hRows alertId, if_neg hOther.symm]
      · intro freshUuid l hl _
        have hSame : _ = d.registry.leases := d.registry.run_sameRows (t := .leases) d.now freshUuid
          (.updateAlert b.draft) (by simp [RegistryCall.writes])
        rwa [hSame] at hl

/-- A program that spares an alert does not disturb it. -/
theorem ends {p : Program α} (hAsks : p.Asks (Worker.Spares alertId))
    (h : Undisturbed before alertId d) : p.Ends d fun _ after => Undisturbed before alertId after :=
  Ends.of_asks hAsks (fun _ _ hSpares h => h.perform hSpares) h

end Undisturbed

/-- A deployment that is undisturbed about an alert, and in which the leases on the alert that had
not expired still are. -/
structure Apart (before : Deployment) (alertId : Int) (d : Deployment) : Prop
    extends before.Undisturbed alertId d where
  keyed : d.registry.Keyed
  kept : ∀ l ∈ before.registry.leases, l.alertId = alertId → before.now ≤ l.expiresAt →
    l ∈ d.registry.leases

namespace Apart

variable {before d : Deployment} {alertId : Int}

theorem refl (h : d.Quiet) (hKeyed : d.registry.Keyed) (alertId : Int) : Apart d alertId d :=
  ⟨.refl h alertId, hKeyed, fun _ h _ _ => h⟩

/-- What keeps aloof from an alert ends no lease on it. -/
theorem endsLease_of_aloof {call : RegistryCall} (h : Worker.Aloof alertId (.registry call))
    {l : Lease} (hAlert : l.alertId = alertId) : call.endsLease l = false := by
  cases h with
  | notifying hAsked =>
      refine RegistryCall.endsLease_of_writes fun hMem => ?_
      simpa using hAsked.writes hMem
  | acquire new hOther =>
      simp [RegistryCall.endsLease, RegistryCall.findsExpired, RegistryCall.givesBack, Lease.draft,
        hAlert, hOther]
  | release other holder hOther =>
      simp [RegistryCall.endsLease, RegistryCall.findsExpired, RegistryCall.givesBack, hAlert,
        hOther]
  | update b hOther => exact RegistryCall.endsLease_of_writes (by simp [RegistryCall.writes])

theorem perform (h : Apart before alertId d) {q : Request} (hAloof : Worker.Aloof alertId q) :
    Apart before alertId (d.perform q).2 := by
  refine ⟨h.toUndisturbed.perform hAloof.spares, perform_keyed h.unit h.keyed q,
    fun l hl hAlert hRuns => ?_⟩
  have hMem := h.kept l hl hAlert hRuns
  obtain hSame | ⟨call, reply, freshUuid, hCall, hRun⟩ := perform_cases h.unit q
  · rwa [hSame]
  · obtain rfl := Request.eq_of_call? hCall
    have hStays := Registry.mem_leases_run h.keyed hMem d.now freshUuid
      (endsLease_of_aloof hAloof hAlert)
    rwa [hRun] at hStays

/-- A program that keeps aloof from an alert. -/
theorem ends {p : Program α} (hAsks : p.Asks (Worker.Aloof alertId)) (h : Apart before alertId d) :
    p.Ends d fun _ after => Apart before alertId after :=
  Ends.of_asks hAsks (fun _ _ hAloof h => h.perform hAloof) h

end Apart
end Deployment
end Triage
