import Triage.Deployment.Program
import Triage.Webhook.Payload

/-!
# Notifying webhooks

Delivers the payload of an alert to a channel: one signed post, and no second try.  Anything but a
response that reports success is a failure.  Only webhook channels with a verified webhook are
notified.
-/

namespace Triage.Webhook

open Program

/-- The kind of a notification about an alert that triggers. -/
def triggeredKind : String := "triggered"

/-- The kind of a notification about an alert that resolves. -/
def resolvedKind : String := "resolved"

/-- What delivers payloads; without a cipher it can neither seal nor sign. -/
structure Notifier where
  cipher : Option Cipher.SecretCipher
deriving DecidableEq, Repr

/-- What a channel must tell to be notified. -/
structure ChannelRef where
  id : Option Int
  kind : Option String
deriving DecidableEq, Repr

/-- What a channel's row tells. -/
def ChannelRef.ofChannel (c : Channel) : ChannelRef := ⟨some c.id, some c.kind⟩

namespace Notifier

/-- The stored form of a secret, under a fresh nonce. -/
def sealSecret (n : Notifier) (secret : String) : Program String :=
  match n.cipher with
  | none => throw .noCipher
  | some cipher =>
    if secret.isEmpty then return ""
    else do
      let nonce : List UInt8 ← request .nonce
      return cipher.sealSecret nonce secret

/-- The secret of a stored form. -/
def openSecret (n : Notifier) (stored : String) : Except Failure String :=
  match n.cipher with
  | none => .error .noCipher
  | some cipher => (cipher.openSecret stored).mapError .badSecret

/-- The signature of a body with the stored secret, if there is one. -/
def signature (n : Notifier) (stored : Option String) (body : List UInt8) :
    Except Failure (Option String) :=
  let stored := stored.getD ""
  if stored.isEmpty then .ok none
  else
    match n.openSecret stored with
    | .ok secret => .ok (some (sign body secret))
    | .error e => .error (if e.kind = .undecipherable then .badSecretOnSending e else e)

/-- Posts a payload to a webhook. -/
def sendWebhook (n : Notifier) (w : Webhook) (payload : Payload) : Program Unit := do
  request (.reach .sendWebhook)
  let signed ← settle (n.signature w.sealedSecret payload.bytes)
  let response : Response ← request (.post ⟨w.url, payload.body, signed⟩)
  if !response.isSuccess then
    throw (.refused response.status (Text.decodeUtf8Lossy response.body))
  report .debug .notifier
    ("Webhook delivered (status=" ++ Text.intText response.status ++ ", alert="
      ++ Text.intText payload.alertId ++ ")")
    [("alert_id", .int payload.alertId)] none

/-- The verified webhook of a channel. -/
def verifiedWebhook (channel : ChannelRef) : Program Webhook := do
  let found : Except Failure Webhook ← (registry (.getWebhook channel.id)).attempt
  match found with
  | .error e => if e.kind = .notFound then throw (.webhookMissing channel.id) else throw e
  | .ok webhook =>
    if webhook.verifiedAt.isNone then throw .webhookUnverified
    return webhook

/-- Delivers a notification of a kind to a channel.  The payload is made from its status and the
time. -/
def send (n : Notifier) (payload : String → Instant → Checked Payload) (channel : ChannelRef)
    (kind : String) : Program Unit := do
  request (.reach .send)
  if channel.kind != some Channel.webhookKind then throw (.unsupportedChannel channel.kind)
  let webhook ← verifiedWebhook channel
  let (stage, status) :=
    if kind = triggeredKind then (Stage.sendTriggered, triggeredKind)
    else (Stage.sendResolved, resolvedKind)
  request (.reach stage)
  let made ← settle ((payload status (← now)).toExcept.mapError .document)
  n.sendWebhook webhook made

/-- Delivers a notification about an alert. -/
def sendAlert (n : Notifier) (a : Alert) (channel : Channel) (kind : String) : Program Unit :=
  n.send (fun status time => .good (Payload.ofAlert a status time)) (.ofChannel channel) kind

end Notifier
end Triage.Webhook
