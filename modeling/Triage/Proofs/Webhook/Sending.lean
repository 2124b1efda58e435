import Triage.Proofs.Deployment.Running
import Triage.Webhook.Notifier

/-!
# What the notifier asks

Delivering a notification marks its stages, reads the webhook of the channel and the time, posts and
logs.  It asks nothing else; in particular it writes to no table.
-/

namespace Triage.Webhook.Notifier

open Program

/-- The requests of a delivery. -/
inductive Asked : Request → Prop
  | reach (stage : Stage) : Asked (.reach stage)
  | webhook (channelId : Option Int) : Asked (.registry (.getWebhook channelId))
  | now : Asked .now
  | post (post : Post) : Asked (.post post)
  | record (entry : Log.Entry) : Asked (.record entry)

/-- The requests of a delivery after it has begun. -/
def Onward (q : Request) : Prop := Asked q ∧ q ≠ .reach .send

theorem sendWebhook_onward (n : Notifier) (w : Webhook) (payload : Payload) :
    (n.sendWebhook w payload).Asks Onward := by
  unfold sendWebhook
  refine (asks_request ⟨.reach _, nofun⟩).bind fun _ => (asks_settle _).bind fun signed => ?_
  refine (asks_request ⟨.post _, nofun⟩).bind fun response => ?_
  split
  · exact (asks_throw _).bind fun _ => asks_request ⟨.record _, nofun⟩
  · exact asks_request ⟨.record _, nofun⟩

theorem sendWebhook_asks (n : Notifier) (w : Webhook) (payload : Payload) :
    (n.sendWebhook w payload).Asks Asked :=
  (n.sendWebhook_onward w payload).mono fun _ => And.left

theorem verifiedWebhook_onward (channel : ChannelRef) : (verifiedWebhook channel).Asks Onward := by
  unfold verifiedWebhook
  refine (asks_request ⟨.webhook channel.id, nofun⟩).attempt_bind (fun webhook => ?_) fun e => ?_
  · dsimp only
    split
    · exact (asks_throw _).bind fun _ => asks_pure _
    · exact asks_pure _
  · dsimp only
    split <;> exact asks_throw _

/-- A delivery begins with its first stage. -/
theorem send_eq (n : Notifier) (payload : String → Instant → Checked Payload)
    (channel : ChannelRef) (kind : String) :
    ∃ rest : Program Unit, n.send payload channel kind = (request (.reach .send) >>= fun _ => rest) ∧
      rest.Asks Onward := by
  have hRest : ∀ stage status, stage ≠ .send → (do
      let webhook ← verifiedWebhook channel
      request (.reach stage)
      let made ← settle ((payload status (← Program.now)).toExcept.mapError .document)
      n.sendWebhook webhook made : Program Unit).Asks Onward := fun stage status hStage => by
    refine (verifiedWebhook_onward channel).bind fun webhook => ?_
    refine (asks_request ⟨.reach stage, fun h => hStage (Request.reach.inj h)⟩).bind fun _ => ?_
    refine (asks_request ⟨.now, nofun⟩).bind fun time => ?_
    exact (asks_settle _).bind fun made => sendWebhook_onward n webhook made
  refine ⟨_, rfl, ?_⟩
  by_cases hKind : (channel.kind != some Channel.webhookKind) = true
  · rw [if_pos hKind]
    refine (asks_throw _).bind fun _ => ?_
    split
    next hStage =>
      refine hRest _ _ ?_
      split at hStage <;> cases hStage <;> exact nofun
  · rw [if_neg hKind]
    split
    next hStage =>
      refine hRest _ _ ?_
      split at hStage <;> cases hStage <;> exact nofun

theorem send_asks (n : Notifier) (payload : String → Instant → Checked Payload)
    (channel : ChannelRef) (kind : String) : (n.send payload channel kind).Asks Asked := by
  obtain ⟨rest, hSend, hRest⟩ := n.send_eq payload channel kind
  rw [hSend]
  exact (asks_request (.reach _)).bind fun _ => hRest.mono fun _ => And.left

/-- What delivering a notification about an alert asks. -/
theorem sendAlert_asks (n : Notifier) (a : Alert) (channel : Channel) (kind : String) :
    (n.sendAlert a channel kind).Asks Asked :=
  send_asks n _ _ kind

variable {d : Deployment}

theorem Asked.perform_registry {q : Request} (hAsked : Asked q) (hUnit : d.openUnit = none) :
    (d.perform q).2.registry = d.registry := by
  obtain hSame | ⟨call, reply, freshUuid, hCall, hRun⟩ := d.perform_cases hUnit q
  · exact hSame
  · cases hAsked with
    | webhook channelId =>
        obtain rfl := Option.some.inj hCall
        have hRead : (d.registry.run d.now freshUuid (.getWebhook channelId)).2 = d.registry := by
          unfold Registry.run
          split <;> rfl
        rw [hRun] at hRead
        exact hRead
    | _ => cases hCall

/-- Delivering leaves all tables as they are, whatever becomes of the post. -/
theorem registry_run {p : Program α} (hp : p.Asks Asked) (hUnit : d.openUnit = none) :
    (d.run p).2.registry = d.registry := by
  have hKept : p.Ends d fun _ after => after.openUnit = none ∧ after.registry = d.registry := by
    refine Ends.of_asks hp ?_ ⟨hUnit, rfl⟩
    rintro before q hAsked ⟨hUnitBefore, hSame⟩
    exact ⟨before.perform_openUnit hUnitBefore q,
      (hAsked.perform_registry hUnitBefore).trans hSame⟩
  exact hKept.2

end Triage.Webhook.Notifier
