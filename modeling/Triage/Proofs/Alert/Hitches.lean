import Mathlib.Data.List.TakeWhile
import Triage.Proofs.Alert.Coverage

/-!
# What time and failures leave to an alert

The moments of a tick that concern an alert are those that ask for its lease, give the lease back or
update its row (`Request.concerns`); its check takes the moments from the request for its lease up to
the next request for a lease (`callsFor`).  While requests only meet with delays and failures, a
program that spares an alert retains its row, the issues, the events, and the leases on it or fewer
(`Deployment.Retains`).  One that keeps aloof from it also leaves the leases on it that run: nothing
has been done about the alert yet (`Deployment.Awaits`).
-/

namespace Triage

open Program

/-- Whether a request is about the lease or the row of an alert. -/
def Request.concerns (alertId : Int) : Request → Bool
  | .registry (.acquireLease d) => d.alertId = some alertId
  | .registry (.releaseLease other _) => other = alertId
  | .registry (.updateAlert d) => d.id = some alertId
  | _ => false

/-- Whether what becomes of an alert hangs on the reply: the lease, the issues, the metrics and the
update do, and nothing that is asked to notify. -/
def Request.decides : Request → Bool
  | .registry (.acquireLease _) | .registry (.listIssues ..) | .registry (.updateAlert _)
  | .eventLog (.metrics _) => true
  | _ => false

namespace Moment

variable {ι : Type}

/-- Whether a request failed. -/
def failed (m : Moment ι) : Bool := m.reply.toOption.isNone

/-- When a lease on an alert begins that is granted in a moment. -/
def grantedAt? (m : Moment ι) (alertId : Int) : Option Instant :=
  match m.request, m.reply with
  | .registry (.acquireLease d), .ok true => if d.alertId = some alertId then d.lockedAt else none
  | _, _ => none

/-- Whether a lease on an alert is refused in a moment. -/
def refuses (m : Moment ι) (alertId : Int) : Bool :=
  match m.request, m.reply with
  | .registry (.acquireLease d), .ok false => d.alertId = some alertId
  | _, _ => false

/-- Whether an update of an alert succeeds in a moment. -/
def stores (m : Moment ι) (alertId : Int) : Bool :=
  match m.request, m.reply with
  | .registry (.updateAlert d), .ok _ => d.id = some alertId
  | _, _ => false

/-- Whether a lease on an alert cannot be given back in a moment. -/
def failsRelease (m : Moment ι) (alertId : Int) : Bool :=
  match m.request, m.reply with
  | .registry (.releaseLease other _), .error _ => other = alertId
  | _, _ => false

end Moment

namespace Moment

variable {ι : Type} {alertId : Int} {m : Moment ι}

/-- A lease is granted or refused only when it is asked for. -/
theorem unanswered (h : m.request.leaseOf? ≠ some alertId) :
    m.grantedAt? alertId = none ∧ m.refuses alertId = false := by
  obtain ⟨mark, q, reply, before⟩ := m
  cases q with
  | registry call =>
      cases call with
      | acquireLease d =>
          have hOther : d.alertId ≠ some alertId := h
          rcases reply with e | granted
          · exact ⟨rfl, rfl⟩
          · cases (granted : Bool) <;> simp [grantedAt?, refuses, hOther]
      | _ => exact ⟨rfl, rfl⟩
  | _ => exact ⟨rfl, rfl⟩

theorem leaseOf?_of_unconcerned (h : m.request.concerns alertId = false) :
    m.request.leaseOf? ≠ some alertId := by
  obtain ⟨mark, q, reply, before⟩ := m
  cases q with
  | registry call => cases call <;> simp_all [Request.leaseOf?, Request.concerns]
  | _ => simp [Request.leaseOf?]

theorem stores_of_unconcerned (h : m.request.concerns alertId = false) :
    m.stores alertId = false := by
  obtain ⟨mark, q, reply, before⟩ := m
  cases q with
  | registry call => cases call <;> cases reply <;> simp_all [stores, Request.concerns]
  | _ => rfl

/-- A lease is granted in a moment that concerns its alert. -/
theorem concerns_of_granted {time : Instant} (h : m.grantedAt? alertId = some time) :
    m.request.concerns alertId = true := by
  by_contra hNot
  rw [(unanswered (leaseOf?_of_unconcerned (Bool.eq_false_iff.mpr hNot))).1] at h
  cases h

/-- A lease is refused in a moment that concerns its alert. -/
theorem concerns_of_refused (h : m.refuses alertId = true) :
    m.request.concerns alertId = true := by
  by_contra hNot
  rw [(unanswered (leaseOf?_of_unconcerned (Bool.eq_false_iff.mpr hNot))).2] at h
  cases h

end Moment

variable {ι : Type} {alertId : Int}

/-- Of moments the first of which do not concern an alert, one that does is among the later ones. -/
theorem mem_later {first later : List (Moment ι)} {m : Moment ι}
    (hFirst : ∀ m ∈ first, m.request.concerns alertId = false) (hm : m ∈ first ++ later)
    (hConcerns : m.request.concerns alertId = true) : m ∈ later := by
  refine (List.mem_append.mp hm).resolve_left fun hIs => ?_
  simp [hFirst m hIs] at hConcerns

/-- Of moments the later ones of which do not concern an alert, one that does is among the first. -/
theorem mem_first {first later : List (Moment ι)} {m : Moment ι}
    (hLater : ∀ m ∈ later, m.request.concerns alertId = false) (hm : m ∈ first ++ later)
    (hConcerns : m.request.concerns alertId = true) : m ∈ first := by
  refine (List.mem_append.mp hm).resolve_right fun hIs => ?_
  simp [hLater m hIs] at hConcerns

/-- The moments of the check of an alert: from the request for its lease to the next request for a
lease. -/
def callsFor (alertId : Int) (moments : List (Moment ι)) : List (Moment ι) :=
  match moments.dropWhile fun m => m.request.leaseOf? != some alertId with
  | [] => []
  | m :: rest => m :: rest.takeWhile fun m => m.request.leaseOf?.isNone

/-- What stands before the first request for the lease of an alert does not belong to its check. -/
theorem callsFor_append_left {first later : List (Moment ι)}
    (h : ∀ m ∈ first, m.request.leaseOf? ≠ some alertId) :
    callsFor alertId (first ++ later) = callsFor alertId later := by
  have hPass : ∀ m ∈ first, (m.request.leaseOf? != some alertId) = true := fun m hm => by
    simpa using h m hm
  rw [callsFor, List.dropWhile_append_of_pos hPass, callsFor]

/-- What comes later takes nothing from the check of an alert. -/
theorem mem_callsFor_append {first later : List (Moment ι)} {m : Moment ι}
    (h : m ∈ callsFor alertId first) : m ∈ callsFor alertId (first ++ later) := by
  unfold callsFor at h ⊢
  rw [List.dropWhile_append]
  cases hDrop : first.dropWhile fun m => m.request.leaseOf? != some alertId with
  | nil => simp [hDrop] at h
  | cons asked rest =>
      rw [hDrop] at h
      simp only [List.isEmpty_cons, Bool.false_eq_true, if_false, List.cons_append]
      rcases List.mem_cons.mp h with rfl | hRest
      · exact List.mem_cons_self
      · refine List.mem_cons_of_mem _ ?_
        rw [List.takeWhile_append]
        split
        · exact List.mem_append_left _ ((List.takeWhile_sublist _).subset hRest)
        · exact hRest

/-- After the request for the lease, the check goes on until the next request for a lease. -/
theorem callsFor_cons {asked : Moment ι} {rest : List (Moment ι)}
    (hAsked : asked.request.leaseOf? = some alertId)
    (hRest : ∀ m ∈ rest, m.request.leaseOf? = none) :
    callsFor alertId (asked :: rest) = asked :: rest := by
  have hStays : rest.takeWhile (fun m => m.request.leaseOf?.isNone) = rest :=
    List.takeWhile_eq_self_iff.mpr fun m hm => by simp [hRest m hm]
  have hDrop : (asked :: rest).dropWhile (fun m => m.request.leaseOf? != some alertId) =
      asked :: rest := List.dropWhile_cons_of_neg (by simp [hAsked])
  simp only [callsFor, hDrop, hStays]

namespace Deployment

/-- A quiet deployment that holds about an alert what an earlier one held: the row of the alert, the
issues and the events are the same, and no lease on the alert has been added.  Time may have
passed. -/
structure Retains (before : Deployment) (alertId : Int) (d : Deployment) : Prop
    extends d.Quiet where
  events : d.events = before.events
  issues : d.registry.issues = before.registry.issues
  row : d.registry.alert? alertId = before.registry.alert? alertId
  leases : ∀ l ∈ d.registry.leases, l.alertId = alertId → l ∈ before.registry.leases

namespace Retains

variable {before d : Deployment}

theorem refl (h : d.Quiet) (alertId : Int) : Retains d alertId d :=
  ⟨h, rfl, rfl, rfl, fun _ hl _ => hl⟩

theorem trans {mid : Deployment} (hFirst : before.Retains alertId mid)
    (hLater : mid.Retains alertId d) : before.Retains alertId d where
  toQuiet := hLater.toQuiet
  events := hLater.events.trans hFirst.events
  issues := hLater.issues.trans hFirst.issues
  row := hLater.row.trans hFirst.row
  leases l hl hAlert := hFirst.leases l (hLater.leases l hl hAlert) hAlert

theorem delayed {h : Hitch} (hDelays : h.Delays) (hRetains : before.Retains alertId d) :
    before.Retains alertId (h.meanwhile d) := by
  obtain ⟨micros, hMeanwhile⟩ := hDelays
  rw [hMeanwhile]
  exact ⟨⟨hRetains.unit, hRetains.staged, hRetains.there⟩, hRetains.events, hRetains.issues,
    hRetains.row, hRetains.leases⟩

theorem perform {q : Request} (hSpares : Worker.Spares alertId q)
    (hRetains : before.Retains alertId d) : before.Retains alertId (d.perform q).2 := by
  have hLeft := (Undisturbed.refl hRetains.toQuiet alertId).perform hSpares
  exact hRetains.trans ⟨hLeft.toQuiet, hLeft.events, hLeft.issues, hLeft.row, hLeft.leases⟩

theorem meet {h : Hitch} {q : Request} (hDelays : h.Delays) (hSpares : Worker.Spares alertId q)
    (hRetains : before.Retains alertId d) : before.Retains alertId (d.meet h q).2 := by
  have hDelayed := hRetains.delayed hDelays
  obtain ⟨e, hFail⟩ | hDone := d.meet_cases h q
  · rwa [hFail]
  · rw [hDone]
    exact hDelayed.perform hSpares

/-- A program that spares an alert retains what there is about it, whatever fails and however long
it takes. -/
theorem fares {p : Program α} (hAsks : p.Asks (Worker.Spares alertId))
    (hRetains : before.Retains alertId d) :
    p.Fares Hitch.Delays (fun moments _ after =>
      (∀ m ∈ moments, Worker.Spares alertId m.request) ∧ before.Retains alertId after) d :=
  (fares_of_asks _ hAsks (fun _ _ hDelays h => h.delayed hDelays) (fun _ _ hSpares h =>
    h.perform hSpares) hRetains).mono
    fun _ _ _ ⟨hAsked, hAfter⟩ => ⟨fun m hm => (hAsked m hm).1, hAfter⟩

end Retains

/-- A quiet deployment some time after an earlier one, in which nothing has been done about an
alert: the leases on it have not been ended either, unless they have expired. -/
structure Awaits (before : Deployment) (alertId : Int) (d : Deployment) : Prop
    extends before.Retains alertId d where
  keyed : d.registry.Keyed
  later : before.now ≤ d.now
  kept : ∀ l ∈ before.registry.leases, l.alertId = alertId → d.now ≤ l.expiresAt →
    l ∈ d.registry.leases

namespace Awaits

variable {before d : Deployment}

theorem refl (h : d.Quiet) (hKeyed : d.registry.Keyed) (alertId : Int) : Awaits d alertId d :=
  ⟨.refl h alertId, hKeyed, Int.le_refl _, fun _ hl _ _ => hl⟩

theorem delayed {h : Hitch} (hDelays : h.Delays) (hAwaits : before.Awaits alertId d) :
    before.Awaits alertId (h.meanwhile d) := by
  have hRetains := hAwaits.toRetains.delayed hDelays
  obtain ⟨micros, hMeanwhile⟩ := hDelays
  have hLater : d.now ≤ (d.advance micros).now := by
    simp only [advance, Instant.shift, Instant.le_iff]
    omega
  rw [hMeanwhile] at hRetains ⊢
  exact ⟨hRetains, hAwaits.keyed, Int.le_trans hAwaits.later hLater, fun l hl hAlert hRuns =>
    hAwaits.kept l hl hAlert (Int.le_trans hLater hRuns)⟩

/-- What spares an alert and keeps the leases on it that run. -/
theorem perform_sparing {q : Request} (hSpares : Worker.Spares alertId q)
    (hKept : ∀ l ∈ d.registry.leases, l.alertId = alertId → d.now ≤ l.expiresAt →
      l ∈ (d.perform q).2.registry.leases)
    (hAwaits : before.Awaits alertId d) : before.Awaits alertId (d.perform q).2 where
  toRetains := hAwaits.toRetains.perform hSpares
  keyed := perform_keyed hAwaits.unit hAwaits.keyed q
  later := by
    rw [hSpares.now]
    exact hAwaits.later
  kept l hl hAlert hRuns := by
    rw [hSpares.now] at hRuns
    exact hKept l (hAwaits.kept l hl hAlert hRuns) hAlert hRuns

theorem perform {q : Request} (hAloof : Worker.Aloof alertId q) (hAwaits : before.Awaits alertId d) :
    before.Awaits alertId (d.perform q).2 :=
  hAwaits.perform_sparing hAloof.spares
    ((Apart.refl hAwaits.toQuiet hAwaits.keyed alertId).perform hAloof).kept

/-- Cleaning up at a time that is over ends only leases that have expired. -/
theorem cleanUp {time : Instant} (hTime : time ≤ d.now) (hAwaits : before.Awaits alertId d) :
    before.Awaits alertId (d.perform (.registry (.cleanUpLeases time))).2 := by
  refine hAwaits.perform_sparing (.cleanUp time) fun l hl _ hRuns => ?_
  rw [hAwaits.perform_eq_apply]
  have hLasts : time ≤ l.expiresAt := Int.le_trans hTime hRuns
  exact List.mem_filter.mpr ⟨hl, by simpa using hLasts⟩

/-- A program that keeps aloof from an alert. -/
theorem fares {p : Program α} (hAsks : p.Asks (Worker.Aloof alertId))
    (hAwaits : before.Awaits alertId d) :
    p.Fares Hitch.Delays (fun moments _ after =>
      (∀ m ∈ moments, Worker.Aloof alertId m.request) ∧ before.Awaits alertId after) d :=
  (fares_of_asks _ hAsks (fun _ _ hDelays h => h.delayed hDelays) (fun _ _ hAloof h =>
    h.perform hAloof) hAwaits).mono
    fun _ _ _ ⟨hAsked, hAfter⟩ => ⟨fun m hm => (hAsked m hm).1, hAfter⟩

end Awaits
end Deployment

end Triage
