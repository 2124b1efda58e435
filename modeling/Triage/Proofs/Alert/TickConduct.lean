import Triage.Alert.Worker
import Triage.Proofs.Registry.AlertRows
import Triage.Proofs.Webhook.Sending

/-!
# How a tick conducts itself

What a worker asks during its ticks, followed request by request.  A `Standing` is what the requests
of one task tell about it: the alerts as it read them last, and the lease that it holds.  A tick
stores a transition only of an alert that it listed and holds the lease of, at most one under each
lease, and always away from the status that it listed; it notifies only about a transition that it
has stored under the lease; and it gives back every lease before it asks for another one
(`ticks_keep`).  Nothing is assumed of the replies, so this holds among other tasks as well.
-/

namespace Triage

open Program

/-- A lease that a task was granted: the row of its alert when it was granted, and the status that
has been stored under it, if one has. -/
structure Holding where
  lease : Lease
  found : Option Alert
  stored : Option String
deriving DecidableEq, Repr

/-- What the requests of a task tell about it. -/
structure Standing where
  known : List Alert
  held : Option Holding
deriving DecidableEq, Repr

namespace Standing

/-- Nothing has been asked yet. -/
def initial : Standing := ⟨[], none⟩

/-- What a task is granted by a lease of a draft. -/
def grant (before : Deployment) (d : LeaseDraft) : Option Holding :=
  match d with
  | ⟨some alertId, some holder, some lockedAt, some expiresAt⟩ =>
    some ⟨⟨alertId, holder, lockedAt, expiresAt⟩, before.registry.alert? alertId, none⟩
  | _ => none

/-- The standing after a request and its reply.  A lease counts as given back once its holder has
asked for that. -/
def note (s : Standing) (before : Deployment) :
    (q : Request) → Except Failure q.Reply → Standing
  | .registry (.listAlerts _), .ok listed => { s with known := Prod.fst listed }
  | .registry (.getAlert _), .ok row => { s with known := [row] }
  | .registry (.acquireLease d), .ok true => { s with held := grant before d }
  | .registry (.releaseLease ..), _ => { s with held := none }
  | .registry (.updateAlert d), .ok _ =>
    { s with held := s.held.map fun h => { h with stored := d.status } }
  | _, _ => s

end Standing

/-- A transition of an alert: an active one triggers, and a triggered one resolves. -/
inductive Alert.Flips (a : Alert) : Alert → Prop
  | trigger (time : Instant) (hActive : a.status = Alert.active) : a.Flips (a.trigger time)
  | resolve (time : Instant) (hTriggered : a.status = Alert.triggered) : a.Flips (a.resolve time)

theorem Alert.Flips.id_eq {a b : Alert} (h : a.Flips b) : b.id = a.id := by
  cases h <;> rfl

/-- The kind of the notifications about a transition to a status. -/
def Alert.kindOf (status : String) : String :=
  if status = Alert.triggered then Webhook.triggeredKind else Webhook.resolvedKind

open Conduct

namespace Worker

/-- What a worker may ask during its ticks. -/
def mayAsk (w : Worker) (s : Standing) : Request → Prop
  | .registry (.acquireLease d) =>
    s.held = none ∧ ∃ a ∈ s.known, ∃ lockedAt expiresAt,
      d = Lease.draft ⟨a.id, w.instanceId, lockedAt, expiresAt⟩
  | .registry (.releaseLease alertId holder) =>
    ∃ h, s.held = some h ∧ h.lease.alertId = alertId ∧ holder = w.instanceId
  | .registry (.updateAlert d) =>
    ∃ h a b, s.held = some h ∧ h.stored = none ∧ a ∈ s.known ∧ h.lease.alertId = a.id ∧
      a.Flips b ∧ d = b.draft
  | .registry (.createDelivery d) =>
    ∃ h status, s.held = some h ∧ h.stored = some status ∧ d.alertId = some h.lease.alertId ∧
      d.kind = some (Alert.kindOf status)
  | .registry (.listAlerts _) => s.held = none
  | .registry (.getAlert _) => False
  | .registry (.cleanUpLeases _) => True
  | .registry call => .alerts ∉ call.writes ∧ .leases ∉ call.writes
  | _ => True

/-- The conduct of a worker. -/
def conduct (w : Worker) : Conduct Standing := ⟨Standing.note, w.mayAsk⟩

/-- What a worker asks besides alerts and leases. -/
inductive Aside : Request → Prop
  | notifier {q : Request} (asked : Webhook.Notifier.Asked q) : Aside q
  | issues (projectIds : List Int) (start stop : Instant) (ids : Option (List Int)) :
      Aside (.registry (.listIssues projectIds start stop ids))
  | channels (teamId : Int) (enabledOnly : Bool) :
      Aside (.registry (.listChannels teamId enabledOnly))
  | delivery (draft : DeliveryDraft) : Aside (.registry (.updateDelivery draft))
  | metrics (c : IssuesCriteria) : Aside (.eventLog (.metrics c))
  | noteChange (change : RowChange) : Aside (.noteChange change)

variable {w : Worker} {s : Standing}

theorem Aside.passes {q : Request} (h : Aside q) : w.conduct.Passes s q := by
  cases h with
  | notifier asked =>
      cases asked with
      | webhook channelId =>
          exact ⟨by simp [conduct, mayAsk, RegistryCall.writes], fun before reply => rfl⟩
      | _ => exact ⟨trivial, fun before reply => rfl⟩
  | issues | channels | delivery =>
      exact ⟨by simp [conduct, mayAsk, RegistryCall.writes], fun before reply => rfl⟩
  | metrics | noteChange => exact ⟨trivial, fun before reply => rfl⟩

theorem report_aside (severity : Log.Severity) (component : Log.Component) (message : String)
    (subjects : List (String × Json)) (failure : Option Failure) :
    (report severity component message subjects failure).Asks Aside :=
  asks_request (.notifier (.record _))

theorem now_aside : Program.now.Asks Aside := asks_request (.notifier .now)

theorem requireInstant_asks {kind : Request → Prop} (t : Instant) :
    (requireInstant t).Asks kind := by
  unfold requireInstant
  split
  · exact asks_pure _
  · exact asks_throw _

/-- What is asked to notify about an alert. -/
inductive Notifying (alertId : Int) (kind : String) : Request → Prop
  | aside {q : Request} (h : Aside q) : Notifying alertId kind q
  | delivery (draft : DeliveryDraft) (hAlert : draft.alertId = some alertId)
      (hKind : draft.kind = some kind) :
      Notifying alertId kind (.registry (.createDelivery draft))

theorem notifyChannel_asks (w : Worker) (a : Alert) (kind : String) (channel : Channel) :
    (w.notifyChannel a kind channel).Asks (Notifying a.id kind) := by
  have hReport : ∀ severity component message subjects failure,
      (report severity component message subjects failure).Asks (Notifying a.id kind) :=
    fun severity component message subjects failure =>
      (report_aside severity component message subjects failure).mono fun _ => .aside
  have hNow : Program.now.Asks (Notifying a.id kind) := now_aside.mono fun _ => .aside
  have hSend : (w.notifier.sendAlert a channel kind).Asks (Notifying a.id kind) :=
    (Webhook.Notifier.sendAlert_asks w.notifier a channel kind).mono
      fun q hAsked => .aside (.notifier hAsked)
  -- What is left once it is known whether the channel was reached.
  have hRest : ∀ (delivery : Delivery) {last : Except Failure Unit → Program Unit},
      (last (.ok ())).Asks (Notifying a.id kind) →
        (∀ e, (last (.error e)).Asks (Notifying a.id kind)) → (do
          request (.noteChange (.delivery delivery))
          last (← (registry (.updateDelivery delivery.draft)).attempt) : Program Unit).Asks
            (Notifying a.id kind) := fun delivery last hOk hError =>
    (asks_request (.aside (.noteChange _))).bind fun _ =>
      (asks_request (.aside (.delivery _))).attempt_bind (fun _ => hOk) hError
  unfold notifyChannel
  refine hNow.bind fun time => ?_
  refine (asks_request (.delivery _ rfl rfl)).attempt_bind (fun pending => ?_) fun e => hReport ..
  refine hSend.attempt_bind (fun _ => ?_) fun e => ?_
  · exact hNow.bind fun time => hRest _ (asks_pure _) fun e => hReport ..
  · exact (hReport ..).bind fun _ => hRest _ (asks_pure _) fun e => hReport ..

theorem notifyChannels_asks (w : Worker) (a : Alert) (kind : String) (channels : List Channel) :
    (w.notifyChannels a kind channels).Asks (Notifying a.id kind) := by
  induction channels with
  | nil => exact asks_pure _
  | cons channel rest ih =>
      unfold notifyChannels
      split
      · exact (notifyChannel_asks w a kind channel).bind fun _ => ih
      · exact ih

theorem notifyTeam_asks (w : Worker) (a : Alert) (kind : String) :
    (w.notifyTeam a kind).Asks (Notifying a.id kind) :=
  (asks_request (.aside (.channels _ _))).bind fun channels =>
    notifyChannels_asks w a kind channels

/-- What is asked to evaluate an alert at a time. -/
inductive Evaluating (a : Alert) (time : Instant) : Request → Prop
  | notifying {kind : String} {q : Request} (h : Notifying a.id kind q) : Evaluating a time q
  | trigger : Evaluating a time (.registry (.updateAlert (a.trigger time).draft))
  | resolve : Evaluating a time (.registry (.updateAlert (a.resolve time).draft))

theorem Aside.evaluating {a : Alert} {time : Instant} {q : Request} (h : Aside q) :
    Evaluating a time q :=
  @Evaluating.notifying a time "" q (.aside h)

theorem transition_asks (w : Worker) {a b : Alert} {time : Instant} (hId : b.id = a.id)
    (hStore : Evaluating a time (.registry (.updateAlert b.draft))) (kind : String) :
    (w.transition b kind).Asks (Evaluating a time) := by
  have hNotify : (w.notifyTeam b kind).Asks (Evaluating a time) :=
    (notifyTeam_asks w b kind).mono fun q h => .notifying (hId ▸ h)
  unfold transition
  refine (asks_request (Aside.noteChange _).evaluating).bind fun _ => ?_
  refine (asks_request hStore).bind fun _ => ?_
  refine ((report_aside ..).mono fun _ h => h.evaluating).bind fun _ => ?_
  exact hNotify.bind fun _ => asks_pure _

theorem evaluate_asks (w : Worker) (a : Alert) (time : Instant) :
    (w.evaluate a time).Asks (Evaluating a time) := by
  have hTrigger : (w.trigger a time).Asks (Evaluating a time) :=
    transition_asks w (a := a) (b := a.trigger time) rfl .trigger _
  have hResolve : (w.resolve a time).Asks (Evaluating a time) :=
    transition_asks w (a := a) (b := a.resolve time) rfl .resolve _
  unfold evaluate
  refine (requireInstant_asks _).bind fun start => ?_
  refine (asks_request (Aside.issues ..).evaluating).bind fun issues => ?_
  split
  · split
    · exact hResolve
    · exact asks_pure _
  refine (asks_request (Aside.metrics _).evaluating).bind fun metrics => ?_
  dsimp only
  split
  · exact hTrigger
  · split
    · exact hResolve
    · exact asks_pure _

theorem report_passes (severity : Log.Severity) (component : Log.Component) (message : String)
    (subjects : List (String × Json)) (failure : Option Failure) :
    (report severity component message subjects failure).Asks (w.conduct.Passes s) :=
  (report_aside severity component message subjects failure).mono fun _ h => h.passes

theorem now_passes : Program.now.Asks (w.conduct.Passes s) := now_aside.mono fun _ h => h.passes

/-- Under a lease, notifying about the transition that has been stored is allowed and leaves the
standing as it is. -/
theorem notifyTeam_passes {h : Holding} {status : String} {a : Alert} (hHeld : s.held = some h)
    (hStored : h.stored = some status) (hAlert : h.lease.alertId = a.id) :
    (w.notifyTeam a (Alert.kindOf status)).Asks (w.conduct.Passes s) := by
  refine (notifyTeam_asks w a _).mono fun q hAsked => ?_
  cases hAsked with
  | aside h => exact h.passes
  | delivery draft hAbout hKind =>
      exact ⟨⟨h, status, hHeld, hStored, hAlert ▸ hAbout, hKind⟩, fun before reply => rfl⟩

/-- The standings of a worker that goes on under the lease of a holding. -/
def Under (s : Standing) (h : Holding) (s' : Standing) : Prop :=
  ∃ h', s' = { s with held := some h' } ∧ h'.lease = h.lease

theorem under_self {h : Holding} (hHeld : s.held = some h) : Under s h s :=
  ⟨h, by rw [← hHeld], rfl⟩

/-- A transition that may be stored is stored, and only notified about when it has been. -/
theorem transition_keeps {h : Holding} {a : Alert} (hHeld : s.held = some h)
    (hAlert : h.lease.alertId = a.id)
    (hMay : w.mayAsk s (.registry (.updateAlert a.draft))) :
    w.conduct.Keeps (fun _ => Under s h) s (w.transition a (Alert.kindOf a.status)) := by
  unfold transition
  refine Keeps.bind (keeps_of_asks (asks_request (Aside.noteChange _).passes) ?_)
  rintro (e | _)
  · exact under_self hHeld
  refine Keeps.bind (keeps_request hMay ?_)
  rintro before (e | _)
  · exact under_self hHeld
  have hNow : (Standing.note s before (.registry (.updateAlert a.draft)) (.ok ())).held
      = some { h with stored := some a.status } := by
    simp only [Standing.note, hHeld]
    rfl
  refine keeps_of_asks ?_ fun outcome => ?_
  · exact (report_passes ..).bind fun _ =>
      (notifyTeam_passes hNow rfl hAlert).bind fun _ => asks_pure _
  · exact ⟨{ h with stored := some a.status }, by rw [← hNow]; rfl, rfl⟩

/-- Evaluating a listed alert under its lease stores at most one transition, away from the status
that was listed. -/
theorem evaluate_keeps {h : Holding} {a : Alert} (hHeld : s.held = some h)
    (hAlert : h.lease.alertId = a.id) (hFresh : h.stored = none) (hKnown : a ∈ s.known)
    (time : Instant) :
    w.conduct.Keeps (fun _ => Under s h) s (w.evaluate a time) := by
  have hTrigger : a.status = Alert.active →
      w.conduct.Keeps (fun _ => Under s h) s (w.trigger a time) := fun hActive =>
    transition_keeps (a := a.trigger time) hHeld hAlert
      ⟨h, a, _, hHeld, hFresh, hKnown, hAlert, .trigger time hActive, rfl⟩
  have hResolve : a.status = Alert.triggered →
      w.conduct.Keeps (fun _ => Under s h) s (w.resolve a time) := fun hTriggered =>
    transition_keeps (a := a.resolve time) hHeld hAlert
      ⟨h, a, _, hHeld, hFresh, hKnown, hAlert, .resolve time hTriggered, rfl⟩
  unfold evaluate
  refine Keeps.bind (keeps_of_asks (requireInstant_asks _) ?_)
  rintro (e | start)
  · exact under_self hHeld
  refine Keeps.bind (keeps_of_asks (asks_request (Aside.issues ..).passes) ?_)
  rintro (e | issues)
  · exact under_self hHeld
  dsimp only
  split
  · split
    next hTriggered => exact hResolve hTriggered
    next => exact under_self hHeld
  refine Keeps.bind (keeps_of_asks (asks_request (Aside.metrics _).passes) ?_)
  rintro (e | metrics)
  · exact under_self hHeld
  dsimp only
  split
  next hBreached =>
    rw [Bool.and_eq_true, decide_eq_true_eq] at hBreached
    exact hTrigger hBreached.2
  next =>
    split
    next hOver =>
      rw [Bool.and_eq_true, decide_eq_true_eq] at hOver
      exact hResolve hOver.2
    next => exact under_self hHeld

/-- The lease is given back, even when the request for that fails. -/
theorem releaseLease_keeps {h : Holding} (hHeld : s.held = some h) :
    w.conduct.Keeps (fun _ s' => s' = { s with held := none }) s
      (w.releaseLease h.lease.alertId) := by
  unfold releaseLease
  refine Keeps.bind (Keeps.attempt (keeps_request ⟨h, hHeld, rfl, rfl⟩ ?_))
  rintro before (e | _)
  · exact keeps_of_asks (report_passes ..) fun _ => rfl
  · rfl

/-- An alert is checked from standing without a lease to standing without a lease. -/
theorem checkAlert_keeps {a : Alert} (hFree : s.held = none) (hKnown : a ∈ s.known) :
    w.conduct.Keeps (fun _ s' => s' = s) s (w.checkAlert a) := by
  unfold checkAlert
  refine Keeps.bind (keeps_of_asks now_passes ?_)
  rintro (e | time)
  · rfl
  refine Keeps.bind (keeps_of_asks (requireInstant_asks _) ?_)
  rintro (e | expiresAt)
  · rfl
  refine Keeps.bind (keeps_request ⟨hFree, a, hKnown, time, expiresAt, rfl⟩ ?_)
  rintro before (e | acquired)
  · rfl
  cases (acquired : Bool) with
  | false =>
      exact keeps_of_asks ((report_passes ..).bind fun _ => asks_pure _) fun _ => rfl
  | true =>
      let h : Holding :=
        ⟨⟨a.id, w.instanceId, time, expiresAt⟩, before.registry.alert? a.id, none⟩
      -- The evaluation goes on under the lease, and giving the lease back ends the holding.
      have hEvaluate := evaluate_keeps (w := w) (s := { s with held := some h }) (h := h) rfl rfl
        rfl hKnown time
      refine Keeps.ensure (hEvaluate.mono fun outcome s' hUnder => ?_)
      obtain ⟨h', rfl, hLease⟩ := hUnder
      have hRelease := releaseLease_keeps (w := w) (s := { s with held := some h' }) rfl
      rw [hLease] at hRelease
      refine hRelease.mono fun ended s' hEnd => ?_
      have hBack : s' = s := by rw [hEnd, ← hFree]
      cases ended <;> exact hBack

theorem checkAlerts_keeps {alerts : List Alert} (hFree : s.held = none)
    (hKnown : ∀ a ∈ alerts, a ∈ s.known) :
    w.conduct.Keeps (fun _ s' => s' = s) s (w.checkAlerts alerts) := by
  induction alerts with
  | nil => rfl
  | cons a rest ih =>
      rw [List.forall_mem_cons] at hKnown
      have hRest := ih hKnown.2
      unfold checkAlerts
      split
      · refine Keeps.bind (Keeps.attempt ((checkAlert_keeps hFree hKnown.1).mono ?_))
        rintro (e | checked) s' rfl
        · exact Keeps.bind (keeps_of_asks (report_passes ..) fun reported => by
            cases reported
            · rfl
            · exact hRest)
        · exact hRest
      · exact hRest

/-- A tick of a worker that holds no lease. -/
theorem processAlerts_keeps (hFree : s.held = none) :
    w.conduct.Keeps (fun _ s' => s'.held = none) s w.processAlerts := by
  have hCleanUp : (do registry (.cleanUpLeases (← now)) : Program Nat).Asks
      (w.conduct.Passes s) :=
    now_passes.bind fun time => asks_request ⟨trivial, fun before reply => rfl⟩
  unfold processAlerts
  refine Keeps.bind (Keeps.attempt (keeps_of_asks hCleanUp ?_))
  rintro (e | _)
  · exact keeps_of_asks (report_passes ..) fun _ => hFree
  refine Keeps.bind (Keeps.attempt (keeps_request hFree ?_))
  rintro before (e | listed)
  · exact keeps_of_asks (report_passes ..) fun _ => hFree
  · refine (checkAlerts_keeps (s := { s with known := Prod.fst listed }) hFree
      fun a ha => ha).mono fun _ s' hEq => ?_
    rw [hEq]
    exact hFree

/-- Some ticks, one after the other. -/
def ticks (w : Worker) : Nat → Program Unit
  | 0 => return ()
  | n + 1 => do
    w.processAlerts
    w.ticks n

/-- A worker keeps to its conduct through all its ticks. -/
theorem ticks_keep (hFree : s.held = none) (n : Nat) :
    w.conduct.Keeps (fun _ s' => s'.held = none) s (w.ticks n) := by
  induction n generalizing s with
  | zero => exact hFree
  | succ n ih =>
      refine Keeps.bind ((processAlerts_keeps hFree).mono ?_)
      rintro (e | _) s' hHeld
      · exact hHeld
      · exact ih hHeld

end Worker
end Triage
