import Triage.Webhook.Notifier

/-!
# Webhook settings of teams

A team has at most one webhook channel, made when an address is saved for the first time.  Saving an
address ends with a test delivery; saving an empty one clears the webhook.  A webhook is verified
when it is saved again.
-/

namespace Triage.Webhook.TeamSettings

open Program

/-- The name of the channel that is made for a team. -/
def defaultChannelName : String := "Default Webhook"

/-- The alert name of a test delivery. -/
def testAlertName : String := "Test Alert"

/-- The status of a test delivery. -/
def testStatus : String := "test"

/-- The threshold of a test delivery. -/
def testThreshold : Int := 100

/-- A webhook with its secret readable; both are empty when there is none. -/
structure Shown where
  url : String
  secret : String
deriving DecidableEq, Repr

/-- The webhook channel of a team, if it has one. -/
def webhookChannel? (teamId : Int) : Program (Option Channel) := do
  let channels : List Channel ← registry (.listChannels teamId false)
  return channels.find? fun c => c.kind = Channel.webhookKind

/-- What a test delivery says. -/
def testPayload (teamId : Int) (time : Instant) : Payload :=
  ⟨time.rfc3339, testAlertName, testStatus, Rule.conditionName Condition.occurrences.code,
    Rule.timeframeName Timeframe.hour.code, 0, 0, teamId, testThreshold, false⟩

/-- Sends a test delivery to a webhook. -/
def sendTest (n : Notifier) (w : Webhook) (teamId : Int) : Program Unit := do
  n.sendWebhook w (testPayload teamId (← now))

/-- The webhook channel of a team, made if need be. -/
def ensureChannel (teamId : Int) (time : Instant) : Program Channel := do
  match ← webhookChannel? teamId with
  | some channel => return channel
  | none =>
    let channel : Channel ← registry (.createChannel {
      teamId := teamId
      name := some defaultChannelName
      kind := some Channel.webhookKind
      enabled := some true
      createdAt := some time
      updatedAt := some time })
    report .info .notifications
      ("Created webhook channel " ++ Text.intText channel.id ++ " for team " ++ Text.intText teamId)
      [("channel_id", .int channel.id)] none
    return channel

/-- The webhook of a channel, if it has one. -/
def findWebhook (channelId : Int) : Program (Option Webhook) := do
  let found : Except Failure Webhook ← (registry (.getWebhook (some channelId))).attempt
  match found with
  | .ok webhook => return some webhook
  | .error e => if e.kind = .notFound then return none else throw e

/-- Stores address and sealed secret for a channel. -/
def storeWebhook (channelId : Int) (url stored : String) (time : Instant) : Program Webhook := do
  match ← findWebhook channelId with
  | none =>
    registry (.createWebhook {
      channelId := channelId
      url := some url
      sealedSecret := some stored
      createdAt := some time
      updatedAt := some time })
  | some old =>
    let webhook := { old with
      url
      sealedSecret := some stored
      verifiedAt := some time
      updatedAt := time }
    request (.noteChange (.webhook webhook))
    registry (.updateWebhook webhook.draft)
    return webhook

/-- Clears the webhook of a team. -/
def clear (teamId : Int) (time : Instant) : Program Unit := do
  match ← webhookChannel? teamId with
  | none => return ()
  | some channel =>
    match ← findWebhook channel.id with
    | none => return ()
    | some old =>
      let webhook := { old with url := "", sealedSecret := some "", updatedAt := time }
      request (.noteChange (.webhook webhook))
      registry (.updateWebhook webhook.draft)
      report .info .notifications ("Cleared webhook config for team " ++ Text.intText teamId)
        [("channel_id", .int channel.id)] none

/-- Saves the webhook of a team and sends a test delivery to it. -/
def save (n : Notifier) (teamIds : List Int) (teamId : Int) (url secret : String) :
    Program Unit := do
  if !teamIds.contains teamId then throw (.noAccessToTeam teamId)
  let time ← now
  if url.isEmpty then clear teamId time
  else
    let channel ← ensureChannel teamId time
    let stored ← if secret.isEmpty then pure "" else n.sealSecret secret
    let webhook ← storeWebhook channel.id url stored time
    sendTest n webhook teamId

/-- The webhook of a team. -/
def get (teamIds : List Int) (teamId : Int) : Program Webhook := do
  if !teamIds.contains teamId then throw (.noAccessToTeam teamId)
  match ← webhookChannel? teamId with
  | none => throw (.notFound (.webhookChannel teamId))
  | some channel => registry (.getWebhook (some channel.id))

/-- Sends a test delivery to the webhook of a team. -/
def test (n : Notifier) (teamIds : List Int) (teamId : Int) : Program Unit := do
  let webhook ← get teamIds teamId
  if webhook.url.isEmpty then throw (.notFound (.webhookUrl teamId))
  sendTest n webhook teamId

/-- The webhook of a team as shown back to it. -/
def getWithSecret (n : Notifier) (teamIds : List Int) (teamId : Int) : Program Shown := do
  match ← (get teamIds teamId).attempt with
  | .error e => if e.kind = .notFound then return ⟨"", ""⟩ else throw e
  | .ok webhook =>
    let stored := webhook.sealedSecret.getD ""
    let secret ← if stored.isEmpty then pure "" else settle (n.openSecret stored)
    return ⟨webhook.url, secret⟩

end Triage.Webhook.TeamSettings
