import Triage.Proofs.Alert.Checks
import Triage.Proofs.Deployment.Adversity

/-!
# Which alerts a tick reaches

A tick asks for the leases of the alerts that it has listed and that are evaluated, in the order of
the listing and each once, whatever fails and whatever others do in between
(`processAlerts_reaches`).  A listing holds the newest alerts of any status, as many as a tick looks
at, and only then are those chosen that are evaluated.  So an alert is reached if it is among the
newest ones (`listed_alerts_reached`); behind enough newer alerts, which need not be evaluated
themselves, it is not (`crowded_out`).
-/

namespace Triage

open Program

/-- The alert whose lease a request asks for. -/
def Request.leaseOf? : Request → Option Int
  | .registry (.acquireLease d) => d.alertId
  | _ => none

/-- The alerts whose leases are asked for in some moments, in order. -/
def leasesAsked (moments : List (Moment ι)) : List Int :=
  moments.filterMap fun m => m.request.leaseOf?

/-- The alerts that are listed in a moment. -/
def Moment.listing? (m : Moment ι) : Option (List Alert) :=
  match m.request, m.reply with
  | .registry (.listAlerts _), .ok listed => some (Prod.fst listed)
  | _, _ => none

/-- At a moment, the end of a lease that a worker would ask for is a time. -/
def Moment.Leasable (w : Worker) (m : Moment ι) : Prop :=
  (m.before.now.shift w.leaseMicros).representable = true

instance (w : Worker) (m : Moment ι) : Decidable (m.Leasable w) :=
  inferInstanceAs (Decidable (_ = true))

theorem leasesAsked_append (first later : List (Moment ι)) :
    leasesAsked (first ++ later) = leasesAsked first ++ leasesAsked later :=
  List.filterMap_append

theorem leasesAsked_cons (m : Moment ι) (moments : List (Moment ι)) :
    leasesAsked (m :: moments) = m.request.leaseOf?.toList ++ leasesAsked moments := by
  rw [leasesAsked, List.filterMap_cons]
  cases m.request.leaseOf? <;> rfl

theorem leasesAsked_eq_nil {moments : List (Moment ι)}
    (h : ∀ m ∈ moments, m.request.leaseOf? = none) : leasesAsked moments = [] :=
  List.filterMap_eq_nil_iff.mpr h

theorem Moment.listing?_eq_none {m : Moment ι} (h : ∀ p, m.request ≠ .registry (.listAlerts p)) :
    m.listing? = none := by
  unfold listing?
  split
  next p listed hRequest hReply => exact absurd hRequest (h p)
  next => rfl

namespace Deployment

variable {d : Deployment}

/-- A registry call that is answered is answered from the tables. -/
theorem perform_answered {call : RegistryCall} {reply : call.Reply}
    (hReply : (d.perform (.registry call)).1 = .ok reply) :
    ∃ freshUuid, (d.registry.run d.now freshUuid call).1 = .ok reply := by
  obtain ⟨e, staged, hFail⟩ | ⟨staged, hDone⟩ := d.perform_eq (.registry call)
  · rw [hFail] at hReply
    cases hReply
  · rw [hDone, carryOutRequest, callRegistry] at hReply
    refine ⟨{ d with staged }.nextUuid, ?_⟩
    dsimp only at hReply ⊢
    split at hReply
    · cases hReply
    · split at hReply
      next hRun => exact hRun.trans hReply
      next => cases hReply
      next => split at hReply <;> cases hReply

/-- What a tick lists are the newest alerts of the deployment in which it lists them. -/
theorem listAlerts_answered {listed : List Alert × Nat}
    (hReply : (d.perform (.registry (.listAlerts ⟨[], "", 0, alertBatch⟩))).1 = .ok listed) :
    listed.1 = d.listed := by
  obtain ⟨freshUuid, hRun⟩ := perform_answered hReply
  unfold Registry.run at hRun
  split at hRun
  · cases hRun
  · rw [Registry.listAlerts_all] at hRun
    obtain rfl := Except.ok.inj hRun
    rfl

end Deployment

namespace Worker

variable {w : Worker} {a : Alert} {d : Deployment} {kind : Hitch → Prop}

theorem Aside.leaseOf? {q : Request} (h : Aside q) : q.leaseOf? = none := by
  cases h with
  | notifier asked => cases asked <;> rfl
  | _ => rfl

/-- Evaluating an alert asks for no lease. -/
theorem Evaluating.leaseOf? {time : Instant} {q : Request} (h : Evaluating a time q) :
    q.leaseOf? = none := by
  cases h with
  | notifying h =>
      cases h with
      | aside h => exact h.leaseOf?
      | delivery => rfl
  | _ => rfl

theorem report_unleasing (severity : Log.Severity) (component : Log.Component) (message : String)
    (subjects : List (String × Json)) (failure : Option Failure) :
    (report severity component message subjects failure).Asks fun q => q.leaseOf? = none :=
  asks_request rfl

theorem releaseLease_unleasing (w : Worker) (alertId : Int) :
    (w.releaseLease alertId).Asks fun q => q.leaseOf? = none := by
  have hAsk : (registry (.releaseLease alertId w.instanceId)).Asks fun q => q.leaseOf? = none :=
    asks_request rfl
  unfold releaseLease
  exact hAsk.attempt_bind (fun _ => asks_pure _) fun e => report_unleasing ..

/-- A program that asks for no lease. -/
theorem fares_unleasing {p : Program α} (hp : p.Asks fun q => q.leaseOf? = none) (d : Deployment) :
    p.Fares kind (fun moments _ _ => leasesAsked moments = []) d :=
  (fares_asked hp d).mono fun _ _ _ hNone => leasesAsked_eq_nil hNone

/-- A time that is required is there, or the program ends. -/
theorem requireInstant_bind {post : List (Moment Unit) → Except Failure α → Deployment → Prop}
    {t : Instant} {f : Instant → Program α}
    (hFail : t.representable = false → post [] (.error .dateOutOfRange) d)
    (hNext : t.representable = true → (f t).Fares kind post d) :
    (requireInstant t >>= f).Fares kind post d := by
  cases hTime : t.representable with
  | true =>
      rw [requireInstant, if_pos hTime]
      exact hNext hTime
  | false =>
      rw [requireInstant, if_neg (Bool.eq_false_iff.mp hTime)]
      exact hFail hTime

/-- Checking an alert asks for its lease once. -/
theorem checkAlert_reaches (w : Worker) (a : Alert) (d : Deployment) :
    (w.checkAlert a).Fares kind (fun moments _ _ =>
      (∀ m ∈ moments, m.Leasable w) → leasesAsked moments = [a.id]) d := by
  unfold checkAlert
  refine Fares.now_bind fun h _ => requireInstant_bind (fun hEnd hLeasable => ?_) fun _ => ?_
  · have hFirst := hLeasable _ (.head _)
    simp [Moment.Leasable, Deployment.momentAmid, hEnd] at hFirst
  refine Fares.request_bind (fun _ _ _ _ _ => rfl) fun _ acquired _ _ => ?_
  refine Fares.mono (fares_unleasing ?_ _) fun moments _ _ hNone _ => ?_
  · -- Whatever is replied, what follows asks for no other lease.
    cases (acquired : Bool) with
    | true =>
        exact ((evaluate_asks w a _).mono fun q hq => hq.leaseOf?).ensure
          (releaseLease_unleasing w a.id)
    | false => exact (report_unleasing ..).bind fun _ => asks_pure _
  · rw [leasesAsked_cons, leasesAsked_cons, hNone]
    rfl

/-- Whatever becomes of its check, attending to an alert asks for its lease if it is evaluated. -/
theorem attend_reaches (w : Worker) (a : Alert) (d : Deployment) :
    (w.attend a).Fares kind (fun moments outcome _ => outcome = .ok () ∧
      ((∀ m ∈ moments, m.Leasable w) →
        leasesAsked moments = ([a].filter Alert.isEvaluated).map Alert.id)) d := by
  unfold attend
  split
  next hEvaluated =>
    rw [List.filter_cons_of_pos hEvaluated]
    refine Fares.attempt_bind
      ((checkAlert_reaches w a d).mono fun moments outcome after hAsked => ?_)
    cases outcome with
    | ok _ =>
        refine fares_pure ⟨rfl, fun hLeasable => ?_⟩
        rw [List.append_nil] at hLeasable ⊢
        exact hAsked hLeasable
    | error e =>
        refine Fares.mono (fares_report.and (fares_unleasing (report_unleasing ..) after)) ?_
        rintro later ended - ⟨hOk, hNone⟩
        refine ⟨hOk, fun hLeasable => ?_⟩
        rw [leasesAsked_append, hAsked fun m hm => hLeasable m (List.mem_append_left _ hm), hNone,
          List.append_nil]
        rfl
  next hNot =>
    rw [List.filter_cons_of_neg hNot]
    exact fares_pure ⟨rfl, fun _ => rfl⟩

/-- Checking alerts asks for the leases of those that are evaluated, in their order. -/
theorem checkAlerts_reaches (w : Worker) (alerts : List Alert) (d : Deployment) :
    (w.checkAlerts alerts).Fares kind (fun moments _ _ => (∀ m ∈ moments, m.Leasable w) →
      leasesAsked moments = (alerts.filter Alert.isEvaluated).map Alert.id) d := by
  induction alerts generalizing d with
  | nil => exact fares_pure fun _ => rfl
  | cons a rest ih =>
      rw [checkAlerts_cons]
      refine Fares.bind ((attend_reaches w a d).mono ?_)
      rintro moments outcome after ⟨rfl, hFirst⟩
      refine (ih after).mono fun later _ _ hRest hLeasable => ?_
      rw [List.forall_mem_append] at hLeasable
      rw [leasesAsked_append, hFirst hLeasable.1, hRest hLeasable.2, ← List.map_append,
        ← List.filter_append, List.singleton_append]

/-- Checking alerts lists none. -/
theorem checkAlerts_lists_none (w : Worker) (alerts : List Alert) (d : Deployment) :
    (w.checkAlerts alerts).Fares kind (fun moments _ _ => ∀ m ∈ moments, m.listing? = none) d := by
  -- An identifier that no alert has: whatever keeps aloof from it is no listing.
  have hAloof : (w.checkAlerts alerts).Asks (Aloof (nextId (alerts.map Alert.id))) :=
    checkAlerts_aloof fun a ha hEq => by
      have hTaken : a.id ∈ alerts.map Alert.id := List.mem_map_of_mem ha
      exact nextId_notMem _ (hEq ▸ hTaken)
  refine (fares_asked hAloof d).mono fun moments _ _ hAsked m hm =>
    Moment.listing?_eq_none fun p hList => ?_
  have hAsk := hAsked m hm
  rw [hList] at hAsk
  cases hAsk with
  | notifying h => cases h with | aside h => cases h with | notifier asked => cases asked

/-- Cleaning up asks for no lease and lists no alerts. -/
theorem cleanUp_lists_none (d : Deployment) :
    (do registry (.cleanUpLeases (← Program.now)) : Program Nat).Fares kind
      (fun moments _ _ => leasesAsked moments = [] ∧ ∀ m ∈ moments, m.listing? = none) d := by
  refine Fares.now_bind fun h _ => ?_
  refine fares_request (q := .registry (.cleanUpLeases _)) fun h' _ => ⟨rfl, ?_⟩
  exact List.forall_mem_cons.mpr ⟨rfl, List.forall_mem_singleton.mpr rfl⟩

/-- Writing to the log asks for no lease and lists no alerts. -/
theorem report_lists_none {severity : Log.Severity} {component : Log.Component} {message : String}
    {subjects : List (String × Json)} {failure : Option Failure} {d : Deployment} :
    (report severity component message subjects failure).Fares kind
      (fun moments _ _ => leasesAsked moments = [] ∧ ∀ m ∈ moments, m.listing? = none) d :=
  fares_request (q := .record _) fun _ _ => ⟨rfl, List.forall_mem_singleton.mpr rfl⟩

/-- Of all that a tick asks, nothing lets time pass: what holds of the clock meanwhile holds of it at
every moment. -/
theorem processAlerts_now (w : Worker) (inv : Instant → Prop)
    (hMeanwhile : ∀ d h, kind h → inv d.now → inv (h.meanwhile d).now) (hInv : inv d.now) :
    (w.processAlerts).Fares kind (fun moments _ _ => ∀ m ∈ moments, inv m.before.now) d := by
  have hKeep : ∀ (d : Deployment) (q : Request), (∃ alertId, Spares alertId q) → inv d.now →
      inv (d.perform q).2.now := by
    rintro d q ⟨alertId, hSpares⟩ hBefore
    rwa [hSpares.now]
  exact (fares_of_asks (fun d => inv d.now) (processAlerts_spares w) hMeanwhile hKeep
    hInv).mono fun _ _ _ ⟨hAsked, _⟩ m hm => (hAsked m hm).2

/-- While the clock stands still, the leases of a tick end at representable times if its first one
does. -/
theorem leasable_of_still {hitches : List Hitch}
    (hStill : ∀ h ∈ hitches, ∀ d, (h.meanwhile d).now = d.now)
    (hLease : (d.now.shift w.leaseMicros).representable = true) :
    ∀ m ∈ (d.runAmid hitches w.processAlerts).moments, m.Leasable w := by
  have hTime := (processAlerts_now w (fun time => time = d.now)
    (fun before h hKind hBefore => (hKind before).trans hBefore) rfl).course (fun _ => rfl) hStill
  intro m hm
  rwa [Moment.Leasable, hTime m hm]

/-- What has been listed are the newest alerts of the deployment at that moment, and leases are asked
for those among them that are evaluated, in their order. -/
def ReachesListed (w : Worker) (moments : List (Moment Unit)) : Prop :=
  ∀ m ∈ moments, ∀ alerts, m.listing? = some alerts → alerts = m.before.listed ∧
    ((∀ m ∈ moments, m.Leasable w) →
      leasesAsked moments = (alerts.filter Alert.isEvaluated).map Alert.id)

/-- Where nothing has been listed, nothing has to be reached. -/
theorem reachesListed_of_none {moments : List (Moment Unit)}
    (hNone : ∀ m ∈ moments, m.listing? = none) : w.ReachesListed moments := by
  intro m hm alerts hListing
  rw [hNone m hm] at hListing
  cases hListing

theorem processAlerts_reaches (w : Worker) (d : Deployment) :
    (w.processAlerts).Fares kind (fun moments _ _ => w.ReachesListed moments) d := by
  unfold processAlerts
  refine Fares.attempt_bind ((cleanUp_lists_none d).mono ?_)
  rintro cleanUp (e | _) after ⟨hUnleased, hUnlisted⟩
  · refine report_lists_none.mono ?_
    rintro later - - ⟨-, hLater⟩
    exact reachesListed_of_none (List.forall_mem_append.mpr ⟨hUnlisted, hLater⟩)
  refine Fares.attempt_bind (fares_request (q := .registry (.listAlerts _)) fun h _ => ?_)
  cases hReply : (after.meet h (.registry (.listAlerts ⟨[], "", 0, alertBatch⟩))).1 with
  | error e =>
      have hList : (after.momentAmid h (.registry (.listAlerts ⟨[], "", 0, alertBatch⟩))).listing? =
          none := by
        rw [Moment.listing?, Deployment.momentAmid, hReply]
      refine report_lists_none.mono ?_
      rintro later - - ⟨-, hLater⟩
      exact reachesListed_of_none
        (List.forall_mem_append.mpr ⟨hUnlisted, List.forall_mem_cons.mpr ⟨hList, hLater⟩⟩)
  | ok listed =>
      have hList : (after.momentAmid h (.registry (.listAlerts ⟨[], "", 0, alertBatch⟩))).listing? =
          some (Prod.fst listed) := by
        rw [Moment.listing?, Deployment.momentAmid, hReply]
      have hNewest : Prod.fst listed = (h.meanwhile after).listed := by
        rw [Deployment.meet_ok hReply] at hReply
        exact Deployment.listAlerts_answered hReply
      refine ((checkAlerts_reaches w _ _).and (checkAlerts_lists_none w _ _)).mono ?_
      rintro later - - ⟨hReached, hLater⟩ m hm alerts hListing
      have hUnlistedBut : ∀ m ∈ cleanUp ++ later, m.listing? = none :=
        List.forall_mem_append.mpr ⟨hUnlisted, hLater⟩
      -- The listing is the only moment in which alerts are listed.
      have hIs : m = after.momentAmid h (.registry (.listAlerts ⟨[], "", 0, alertBatch⟩)) := by
        by_contra hOther
        have hBut : m ∈ cleanUp ++ later := by simpa [hOther] using hm
        rw [hUnlistedBut m hBut] at hListing
        cases hListing
      subst hIs
      obtain rfl := Option.some.inj (hList.symm.trans hListing)
      refine ⟨hNewest, fun hLeasable => ?_⟩
      rw [leasesAsked_append, hUnleased, List.singleton_append, leasesAsked_cons, List.nil_append]
      exact hReached fun m hm => hLeasable m (by simp [hm])

theorem runAmid_reaches (w : Worker) (d : Deployment) (hitches : List Hitch) :
    w.ReachesListed (d.runAmid hitches w.processAlerts).moments := by
  have hReaches : (w.processAlerts).Fares (fun _ => True)
      (fun moments _ _ => w.ReachesListed moments) d := w.processAlerts_reaches d
  exact hReaches.course trivial fun _ _ => trivial

end Worker

/-- In a tick that lists its alerts, and as long as its leases would end at representable times, the
lease of every evaluated alert among the newest ones is asked for exactly once, and no other lease
is: neither that of an alert of another status nor that of an alert behind the newest ones.  This
holds whatever fails besides the listing, and whatever others do to the deployment meanwhile. -/
theorem listed_alerts_reached (w : Worker) (d : Deployment) (hitches : List Hitch)
    {m : Moment Unit} {alerts : List Alert}
    (hMoment : m ∈ (d.runAmid hitches w.processAlerts).moments) (hListing : m.listing? = some alerts)
    (hKeys : (m.before.registry.alerts.map Alert.id).Nodup)
    (hLeasable : ∀ m ∈ (d.runAmid hitches w.processAlerts).moments, m.Leasable w) :
    let asked := leasesAsked (d.runAmid hitches w.processAlerts).moments
    (∀ a ∈ m.before.listed, a.isEvaluated = true → asked.count a.id = 1) ∧
      ∀ alertId, (∀ a ∈ m.before.listed, a.isEvaluated = true → a.id ≠ alertId) →
        asked.count alertId = 0 := by
  intro asked
  obtain ⟨rfl, hReached⟩ := w.runAmid_reaches d hitches m hMoment alerts hListing
  have hAsked : asked = (m.before.listed.filter Alert.isEvaluated).map Alert.id :=
    hReached hLeasable
  have hOnce : asked.Nodup := by
    rw [hAsked]
    exact (Deployment.listed_nodup hKeys).sublist (List.filter_sublist.map _)
  constructor
  · intro a ha hEvaluated
    refine List.count_eq_one_of_mem hOnce ?_
    rw [hAsked]
    exact List.mem_map_of_mem (List.mem_filter.mpr ⟨ha, hEvaluated⟩)
  · intro alertId hOther
    refine List.count_eq_zero.mpr fun hMem => ?_
    rw [hAsked] at hMem
    obtain ⟨a, ha, hId⟩ := List.mem_map.mp hMem
    exact hOther a (List.mem_of_mem_filter ha) (List.mem_filter.mp ha).2 hId

/-- An alert of a project, in a status. -/
def alertIn (status : String) (id : Int) : Alert :=
  ⟨id, 1, 1, "Spike", none, status, 1, 1, 4, false, none, none, ⟨0⟩, ⟨0⟩⟩

/-- As long as there are not too many alerts, a tick lists all of them. -/
theorem Deployment.mem_listed_iff {d : Deployment}
    (hFew : (d.registry.alerts.length : Int) ≤ alertBatch) {a : Alert} :
    a ∈ d.listed ↔ a ∈ d.registry.alerts := by
  refine ⟨mem_alerts_of_listed, fun ha => ?_⟩
  have hAll : d.listed = newestFirst Alert.createdAt Alert.id d.registry.alerts := by
    refine List.take_of_length_le ?_
    rw [List.length_drop, newestFirst, List.length_mergeSort]
    omega
  rw [hAll]
  exact List.mem_mergeSort.mpr ha

/-- Three alerts, of which the second one is not evaluated. -/
def threeAlerts : Deployment :=
  { Deployment.initial ⟨10000000000000000⟩ false with
    registry := { Registry.empty with
      alerts := [alertIn Alert.triggered 1, alertIn "paused" 2, alertIn Alert.active 3] } }

/-- The request for the lease of the third alert, which is checked first, fails; and then, before the
first alert is checked, somebody else deletes all alerts.  Each lease is asked for once. -/
theorem reached_after_failure :
    let w : Worker := ⟨"worker-a", Worker.usualLeaseMicros, ⟨none⟩⟩
    let emptied (d : Deployment) : Deployment := { d with registry := .empty }
    let hitches : List Hitch := [.absent, .absent, .absent, .absent, ⟨id, some .dateOutOfRange⟩,
      .absent, ⟨emptied, none⟩]
    let asked := leasesAsked (threeAlerts.runAmid hitches w.processAlerts).moments
    asked.count 1 = 1 ∧ asked.count 2 = 0 ∧ asked.count 3 = 1 := by
  intro w emptied hitches asked
  let tick := threeAlerts.runAmid hitches w.processAlerts
  let listing : Moment Unit :=
    threeAlerts.tidied.momentAmid .absent (.registry (.listAlerts ⟨[], "", 0, alertBatch⟩))
  have hMoment : listing ∈ tick.moments := .tail _ (.tail _ (.head _))
  have hLeasable : ∀ m ∈ tick.moments, m.Leasable w :=
    Worker.leasable_of_still (by simp [hitches, emptied, Hitch.absent]) (by decide)
  obtain ⟨hEvaluated, hOther⟩ := listed_alerts_reached w threeAlerts hitches hMoment
    (show listing.listing? = some threeAlerts.listed from rfl) (by decide) hLeasable
  have hListed {a : Alert} : a ∈ listing.before.listed ↔ a ∈ threeAlerts.registry.alerts :=
    Deployment.mem_listed_iff (d := listing.before) (by decide)
  refine ⟨hEvaluated (alertIn Alert.triggered 1) (hListed.mpr (by decide)) rfl, hOther 2 ?_,
    hEvaluated (alertIn Alert.active 3) (hListed.mpr (by decide)) rfl⟩
  exact fun a ha => (by decide : ∀ a ∈ threeAlerts.registry.alerts, a.isEvaluated = true → a.id ≠ 2)
    a (hListed.mp ha)

/-- An alert that has triggered, behind some newer ones that all are in some status. -/
def crowdedBy (n : Nat) (status : String) : Deployment :=
  { Deployment.initial ⟨10000000000000000⟩ false with
    registry := { Registry.empty with
      alerts := (List.range (n + 1)).map fun k =>
        alertIn (if k < n then status else Alert.triggered) (n + 1 - k) } }

theorem mem_crowdedBy (n : Nat) (status : String) :
    alertIn Alert.triggered 1 ∈ (crowdedBy n status).registry.alerts := by
  refine List.mem_map.mpr ⟨n, List.mem_range.mpr (Nat.lt_succ_self n), ?_⟩
  rw [if_neg (Nat.lt_irrefl n)]
  congr 1
  omega

/-- If the newer ones are as many as a tick looks at, it looks at no other ones. -/
theorem crowdedBy_listed {n : Nat} (hMany : alertBatch ≤ n) (status : String) :
    ∀ a ∈ (crowdedBy n status).listed, a.id ≠ 1 := by
  -- The alerts are stored in the order in which they are listed.
  have hSorted : newestFirst Alert.createdAt Alert.id (crowdedBy n status).registry.alerts =
      (crowdedBy n status).registry.alerts := by
    refine List.mergeSort_of_pairwise (List.pairwise_map.mpr ?_)
    refine List.pairwise_lt_range.imp fun {k l} hLt => ?_
    have hLater : ((n : Int) + 1 - l) ≤ n + 1 - k := by omega
    simp [alertIn, hLater]
  intro a ha
  rw [Deployment.listed, hSorted] at ha
  have hTaken : a ∈ ((List.range (n + 1)).map fun k =>
      alertIn (if k < n then status else Alert.triggered) (n + 1 - k)).take alertBatch.toNat := ha
  rw [← List.map_take, List.take_range, List.mem_map] at hTaken
  obtain ⟨k, hk, rfl⟩ := hTaken
  rw [List.mem_range] at hk
  show (n : Int) + 1 - k ≠ 1
  omega

/-- Then a tick cleans up and lists, but it does not ask for the lease of the older alert. -/
theorem crowdedBy_unreached {n : Nat} (hMany : alertBatch ≤ n) (status : String) {w : Worker}
    (hLease : ((crowdedBy n status).now.shift w.leaseMicros).representable = true) :
    (∃ m ∈ ((crowdedBy n status).runAmid [] w.processAlerts).moments,
      m.before.registry.alerts = (crowdedBy n status).registry.alerts ∧
        m.listing?.isSome = true) ∧
    1 ∉ leasesAsked ((crowdedBy n status).runAmid [] w.processAlerts).moments := by
  let listing : Moment Unit := (crowdedBy n status).tidied.momentAmid .absent
    (.registry (.listAlerts ⟨[], "", 0, alertBatch⟩))
  have hMoment : listing ∈ ((crowdedBy n status).runAmid [] w.processAlerts).moments :=
    .tail _ (.tail _ (.head _))
  obtain ⟨alerts, hListing⟩ : ∃ alerts, listing.listing? = some alerts := ⟨_, rfl⟩
  obtain ⟨hListed, hReached⟩ :=
    w.runAmid_reaches (crowdedBy n status) [] listing hMoment alerts hListing
  refine ⟨⟨listing, hMoment, rfl, by rw [hListing]; rfl⟩, fun hAsked => ?_⟩
  rw [hReached (Worker.leasable_of_still (List.forall_mem_nil _) hLease), hListed] at hAsked
  obtain ⟨a, ha, hId⟩ := List.mem_map.mp hAsked
  exact crowdedBy_listed hMany status a (List.mem_of_mem_filter ha) hId

/-- Behind a thousand newer alerts an alert is not reached although it is evaluated; and none is
reached two minutes before the end of time, as no lease of five minutes can be written then. -/
theorem crowded_out :
    let w : Worker := ⟨"worker-a", Worker.usualLeaseMicros, ⟨none⟩⟩
    let tick := (crowdedBy 1000 Alert.active).runAmid [] w.processAlerts
    let last : Deployment := { crowdedBy 0 Alert.active with now := ⟨Instant.limit - 120000000⟩ }
    let lastTick := last.runAmid [] w.processAlerts
    ((∃ m ∈ tick.moments, m.listing?.isSome = true ∧
      ∃ a ∈ m.before.registry.alerts, a.id = 1 ∧ a.isEvaluated = true) ∧
      (leasesAsked tick.moments).count 1 = 0) ∧
    (∃ m ∈ lastTick.moments, m.listing? = some [alertIn Alert.triggered 1]) ∧
      (leasesAsked lastTick.moments).count 1 = 0 := by
  intro w tick last lastTick
  refine ⟨?_, by decide +kernel, by decide +kernel⟩
  obtain ⟨⟨m, hm, hSame, hListing⟩, hUnasked⟩ :=
    crowdedBy_unreached (n := 1000) (by decide) Alert.active (w := w) (by decide)
  have hThere : alertIn Alert.triggered 1 ∈ m.before.registry.alerts := by
    rw [hSame]
    exact mem_crowdedBy 1000 Alert.active
  refine ⟨⟨m, hm, hListing, alertIn Alert.triggered 1, hThere, rfl, rfl⟩, ?_⟩
  exact List.count_eq_zero.mpr hUnasked

end Triage
