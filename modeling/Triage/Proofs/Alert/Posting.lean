import Triage.Proofs.Alert.Trials
import Triage.Proofs.Alert.Undisturbed
import Triage.Proofs.Deployment.CleanFailure
import Triage.Proofs.Webhook.Deliveries

/-!
# What is posted about a transition

In a quiet deployment a notification posts to the webhook of its channel if that is a verified webhook
of a webhook channel (`posted_sendAlert`).  Sending leaves the webhooks and the time alone, so what is
posted to one channel does not hang on the channels before it: a transition of a stored alert posts
what sending to each enabled channel of its team would post (`posted_transition`).
-/

namespace Triage

open Program

/-- The webhook to which a channel is notified. -/
def Registry.notified? (r : Registry) (c : Channel) : Option Webhook :=
  if c.kind = Channel.webhookKind then (r.webhook? c.id).filter fun w => w.verifiedAt.isSome else none

theorem Registry.notified?_eq_some {r : Registry} {c : Channel} {w : Webhook} :
    r.notified? c = some w ↔
      c.kind = Channel.webhookKind ∧ r.webhook? c.id = some w ∧ w.verifiedAt.isSome := by
  rw [notified?]
  split
  next hKind => simp [hKind, Option.filter_eq_some_iff]
  next hKind => simp [hKind]

theorem Registry.notified?_congr {r s : Registry} (h : s.webhooks = r.webhooks) (c : Channel) :
    s.notified? c = r.notified? c := by
  rw [notified?, notified?, webhook?_congr h]

variable {d : Deployment}

namespace Webhook.Notifier

/-- The notification of an alert posts at most once, to the webhook to which the channel is notified.
-/
theorem posted_sendAlert (h : d.Quiet) (n : Notifier) (a : Alert) (c : Channel) (kind : String) :
    d.posted (n.sendAlert a c kind) = ((d.registry.notified? c).bind fun w =>
      n.postOf? w (Payload.ofAlert a (toldStatus kind) d.now)).toList := by
  have hId : (ChannelRef.ofChannel c).id = some c.id := rfl
  cases hNotified : d.registry.notified? c with
  | none =>
      refine posted_send_refused h hId ?_ n _ kind
      by_cases hKind : c.kind = Channel.webhookKind
      · refine .inr fun w hFind => Option.not_isSome_iff_eq_none.mp fun hVerified => ?_
        rw [Registry.notified?_eq_some.mpr ⟨hKind, hFind, hVerified⟩] at hNotified
        cases hNotified
      · exact .inl fun hSame => hKind (Option.some.inj hSame)
  | some w =>
      obtain ⟨hKind, hFind, hVerified⟩ := Registry.notified?_eq_some.mp hNotified
      refine (posted_send_verified h hId hFind (congrArg some hKind)
        (Option.isSome_iff_ne_none.mp hVerified) n _ kind).trans ?_
      exact posted_sendWebhook_eq h n w _

/-- What is posted hangs on the webhooks and the time alone. -/
theorem posted_sendAlert_congr {d' : Deployment} (h : d.Quiet) (h' : d'.Quiet)
    (hWebhooks : d'.registry.webhooks = d.registry.webhooks) (hNow : d'.now = d.now) (n : Notifier)
    (a : Alert) (c : Channel) (kind : String) :
    d'.posted (n.sendAlert a c kind) = d.posted (n.sendAlert a c kind) := by
  rw [posted_sendAlert h, posted_sendAlert h', Registry.notified?_congr hWebhooks, hNow]

end Webhook.Notifier

namespace Worker

variable {w : Worker} {a : Alert} {kind : String}

theorem Notifying.writes_of_call {alertId : Int} {q : Request} (h : Notifying alertId kind q)
    {call : RegistryCall} (hCall : q.call? = some call) : call.writes ⊆ [.deliveries] := by
  obtain rfl := Request.eq_of_call? hCall
  exact h.writes

/-- Notifying leaves the channels, the webhooks and the time alone. -/
theorem run_notifying (h : d.Quiet) {p : Program α} {alertId : Int}
    (hp : p.Asks (Notifying alertId kind)) :
    (d.run p).2.registry.channels = d.registry.channels ∧
      (d.run p).2.registry.webhooks = d.registry.webhooks ∧ (d.run p).2.now = d.now := by
  have hWrites : p.Asks fun q => ∀ call, q.call? = some call → call.writes ⊆ [.deliveries] :=
    hp.mono fun _ hq _ hCall => hq.writes_of_call hCall
  have hNow : p.Ends d fun _ after => after.now = d.now := by
    refine Ends.of_asks hp (fun before q hq hSame => ?_) rfl
    exact (Spares.now (.notifying hq : Spares alertId q) before).trans hSame
  exact ⟨Deployment.sameRows_of_writes h.unit hWrites (t := .channels) (by decide),
    Deployment.sameRows_of_writes h.unit hWrites (t := .webhooks) (by decide), hNow⟩

/-- A transition leaves the channels and the webhooks alone. -/
theorem run_transition_keeps (h : d.Quiet) (w : Worker) (a : Alert) (kind : String) :
    (d.run (w.transition a kind)).2.registry.channels = d.registry.channels ∧
      (d.run (w.transition a kind)).2.registry.webhooks = d.registry.webhooks := by
  have hWrites : (w.transition a kind).Asks fun q => ∀ call, q.call? = some call →
      call.writes ⊆ [.alerts, .deliveries] := by
    refine (asks_request (by rintro call ⟨⟩)).bind fun _ => ?_
    refine (asks_request (by rintro call ⟨⟩; simp [RegistryCall.writes])).bind fun _ => ?_
    refine (asks_request (by rintro call ⟨⟩)).bind fun _ => ?_
    refine ((w.notifyTeam_asks a kind).mono fun q hq call hCall => ?_).bind fun _ => asks_pure a
    exact List.Subset.trans (hq.writes_of_call hCall) (List.subset_cons_self _ _)
  exact ⟨Deployment.sameRows_of_writes h.unit hWrites (t := .channels) (by decide),
    Deployment.sameRows_of_writes h.unit hWrites (t := .webhooks) (by decide)⟩

theorem storeDelivery_silent (delivery : Delivery) : (storeDelivery delivery).Silent := by
  refine (silent_request rfl).bind fun _ => ?_
  exact (silent_request rfl).attempt_bind (fun _ => asks_pure _) fun e => silent_request rfl

theorem storeDelivery_succeeds (delivery : Delivery) : (storeDelivery delivery).Succeeds := by
  refine (succeeds_noteChange _).bind fun _ => Succeeds.attempt_bind fun outcome => ?_
  cases outcome with
  | ok _ => exact succeeds_pure ()
  | error e => exact succeeds_report _ _ _ _ _

/-- Whatever fails, an attempt to notify a channel ends well. -/
theorem notifyChannel_succeeds (w : Worker) (a : Alert) (kind : String) (c : Channel) :
    (w.notifyChannel a kind c).Succeeds := by
  rw [notifyChannel_eq]
  refine succeeds_now.bind fun time => Succeeds.attempt_bind fun created => ?_
  cases created with
  | error e => exact succeeds_report _ _ _ _ _
  | ok pending =>
      refine Succeeds.attempt_bind fun sent => ?_
      cases sent with
      | ok _ => exact succeeds_now.bind fun time => storeDelivery_succeeds _
      | error e => exact (succeeds_report _ _ _ _ _).bind fun _ => storeDelivery_succeeds _

/-- What an attempt to notify a channel posts is what sending to it posts. -/
theorem posted_notifyChannel (h : d.Quiet) (w : Worker) (a : Alert) (kind : String) (c : Channel) :
    d.posted (w.notifyChannel a kind c) = d.posted (w.notifier.sendAlert a c kind) := by
  obtain ⟨issuesNamed, hRecorded⟩ :=
    h.run_call (d.registry.apply_createDelivery d.now d.nextUuid a.id c.id kind d.now)
  rw [notifyChannel_eq]
  refine (Deployment.posted_silent_bind (silent_request rfl) d.run_now).trans ?_
  refine (Deployment.posted_silent_attempt_bind (silent_request rfl) hRecorded).trans ?_
  refine (Deployment.posted_attempt_bind_silent fun outcome => ?_).trans
    (w.notifier.posted_sendAlert_congr h (h.of_run hRecorded) rfl rfl a c kind)
  cases outcome with
  | ok _ => exact (silent_request rfl).bind fun time => storeDelivery_silent _
  | error e => exact (silent_request rfl).bind fun _ => storeDelivery_silent _

theorem posted_notifyChannels (h : d.Quiet) (w : Worker) (a : Alert) (kind : String)
    (channels : List Channel) :
    d.posted (w.notifyChannels a kind channels) =
      (channels.filter Channel.enabled).flatMap fun c => d.posted (w.notifier.sendAlert a c kind) := by
  induction channels generalizing d with
  | nil => rfl
  | cons c rest ih =>
      unfold notifyChannels
      cases hEnabled : c.enabled with
      | false =>
          rw [List.filter_cons_of_neg (by rw [hEnabled]; exact Bool.false_ne_true)]
          exact ih h
      | true =>
          rw [List.filter_cons_of_pos hEnabled, List.flatMap_cons]
          obtain ⟨_, hOk⟩ := notifyChannel_succeeds w a kind c d
          have hRun : d.run (w.notifyChannel a kind c) =
              (.ok (), (d.run (w.notifyChannel a kind c)).2) := Prod.ext hOk rfl
          obtain ⟨-, hWebhooks, hNow⟩ := run_notifying h (w.notifyChannel_asks a kind c)
          have hAfter := h.run (w.notifyChannel a kind c)
          -- The channels that follow find the webhooks and the time as they were.
          have hSame : ∀ other, (d.run (w.notifyChannel a kind c)).2.posted
              (w.notifier.sendAlert a other kind) = d.posted (w.notifier.sendAlert a other kind) :=
            fun other => w.notifier.posted_sendAlert_congr h hAfter hWebhooks hNow a other kind
          refine (Deployment.posted_bind hRun).trans ?_
          rw [posted_notifyChannel h, ih hAfter]
          simp only [hSame]

theorem posted_notifyTeam (h : d.Quiet) (w : Worker) (a : Alert) (kind : String) :
    d.posted (w.notifyTeam a kind) =
      ((d.registry.channelsOf a.teamId).filter Channel.enabled).flatMap fun c =>
        d.posted (w.notifier.sendAlert a c kind) := by
  have hList := h.run_read (d.registry.listChannels_eq d.now d.nextUuid a.teamId) rfl
  refine (Deployment.posted_silent_bind (silent_request rfl) hList).trans ?_
  exact posted_notifyChannels h w a kind _

/-- What is posted to a team hangs on the channels, the webhooks and the time alone. -/
theorem posted_notifyTeam_congr {d' : Deployment} (h : d.Quiet) (h' : d'.Quiet)
    (hChannels : d'.registry.channels = d.registry.channels)
    (hWebhooks : d'.registry.webhooks = d.registry.webhooks) (hNow : d'.now = d.now) (w : Worker)
    (a : Alert) (kind : String) :
    d'.posted (w.notifyTeam a kind) = d.posted (w.notifyTeam a kind) := by
  have hSame : ∀ c, d'.posted (w.notifier.sendAlert a c kind) =
      d.posted (w.notifier.sendAlert a c kind) := fun c =>
    w.notifier.posted_sendAlert_congr h h' hWebhooks hNow a c kind
  rw [posted_notifyTeam h, posted_notifyTeam h', Registry.channelsOf, hChannels, Registry.channelsOf]
  simp only [hSame]

/-- A transition posts what sending to each enabled channel of its team posts, one after the other,
unless there is no row for its alert. -/
theorem posted_transition (h : d.Quiet) (w : Worker) (a : Alert) (kind : String) :
    d.posted (w.transition a kind) =
      if (d.registry.alert? a.id).isSome then
        ((d.registry.channelsOf a.teamId).filter Channel.enabled).flatMap fun c =>
          d.posted (w.notifier.sendAlert a c kind)
      else [] := by
  have hNote : d.run (request (.noteChange (.alert a))) = (.ok (), d) := by
    rw [d.run_noteChange, Deployment.noteChange_eq h.unit]
  refine (Deployment.posted_silent_bind (silent_request rfl) hNote).trans ?_
  cases hRow : d.registry.alert? a.id with
  | none =>
      have hFails := h.run_read (Registry.updateAlert_missing hRow d.now d.nextUuid) rfl
      exact Deployment.posted_silent_fail (silent_request rfl) hFails
  | some row =>
      obtain ⟨s, hRun⟩ := Registry.updateAlert_ok h.there d.now d.nextUuid hRow
      obtain ⟨_, _, rfl⟩ := Registry.updateAlert_eq hRun
      rw [Registry.run_eq_apply h.there] at hRun
      obtain ⟨issuesNamed, hUpdate⟩ := h.run_call hRun
      have hStored := h.of_run hUpdate
      refine (Deployment.posted_silent_bind (silent_request rfl) hUpdate).trans ?_
      let tell : Program Unit := report .info .worker ("Alert " ++ Text.intText a.id ++ " " ++ kind)
        [("alert_id", .int a.id)] none
      have hTell : tell.Asks (Notifying a.id kind) := (report_aside ..).mono fun _ => .aside
      obtain ⟨hChannels, hWebhooks, hNow⟩ := run_notifying hStored hTell
      obtain ⟨_, hOk⟩ := (succeeds_report _ _ _ _ _ : tell.Succeeds) _
      refine (Deployment.posted_silent_bind (silent_request rfl) (Prod.ext hOk rfl)).trans ?_
      refine (Deployment.posted_bind_silent fun _ => asks_pure a).trans ?_
      exact (posted_notifyTeam_congr h (hStored.run tell) hChannels hWebhooks hNow w a kind).trans
        (posted_notifyTeam h w a kind)

end Worker
end Triage
