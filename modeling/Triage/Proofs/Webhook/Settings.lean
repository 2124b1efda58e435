import Triage.Proofs.Cipher.RoundTrip
import Triage.Proofs.Deployment.Requests
import Triage.Proofs.Registry.Webhooks
import Triage.Proofs.Webhook.Sending
import Triage.Webhook.TeamSettings

/-!
# What is saved for a team

Run in a quiet deployment, saving an address makes sure that the team has a home, puts a webhook with
the address and the sealed secret there, and sends a test delivery, whose outcome no longer matters
to the tables (`save_eq`, `run_keep`).  Saving an empty address clears the webhook.  So after every
permitted save the team is shown what it has saved, and nothing changes for any other team
(`save_leaves`); a save that is not permitted changes nothing at all (`run_save_refused`).
-/

namespace Triage

open Program Webhook Cipher

namespace Webhook.TeamSettings

/-- Nothing is set. -/
def Shown.nothing : Shown := ⟨"", ""⟩

/-- A webhook as it is shown: its address, and the secret that its stored form opens to.  Only the
empty secret is stored as the empty text. -/
structure Shown.IsOf (shown : Shown) (cipher : SecretCipher) (w : Webhook) : Prop where
  url : w.url = shown.url
  opens : cipher.openSecret (w.sealedSecret.getD "") = .ok shown.secret
  empty : w.sealedSecret.getD "" = "" ↔ shown.secret = ""

/-- What the tables keep to be shown to a team. -/
def Shown.Kept (shown : Shown) (cipher : SecretCipher) (r : Registry) (teamId : Int) : Prop :=
  match r.webhookOf? teamId with
  | some w => shown.IsOf cipher w
  | none => shown = .nothing

/-- A save: the teams of its user, and what is saved for which team. -/
structure Save where
  teamIds : List Int
  teamId : Int
  url : String
  secret : String
deriving DecidableEq, Repr

namespace Save

def program (s : Save) (n : Notifier) : Program Unit := save n s.teamIds s.teamId s.url s.secret

/-- What a team is shown after a save. -/
def shown (s : Save) : Shown := if s.url = "" then .nothing else ⟨s.url, s.secret⟩

/-- Users save for their own teams. -/
def IsPermitted (s : Save) : Prop := s.teamId ∈ s.teamIds

end Save

variable {d : Deployment} {cipher : SecretCipher}

/-! ## Reading the settings -/

theorem run_webhookChannel (h : d.Quiet) (teamId : Int) :
    d.run (webhookChannel? teamId) = (.ok (d.registry.home? teamId), d) := by
  have hList := h.run_read (d.registry.listChannels_eq d.now d.nextUuid teamId) rfl
  exact run_bind hList

theorem run_findWebhook (h : d.Quiet) (channelId : Int) :
    d.run (findWebhook channelId) = (.ok (d.registry.webhook? channelId), d) := by
  cases hFind : d.registry.webhook? channelId with
  | some w =>
      have hGet := h.run_read (Registry.getWebhook_found hFind d.now d.nextUuid) rfl
      exact run_attempt_bind hGet
  | none =>
      have hGet := h.run_read (Registry.getWebhook_missing hFind d.now d.nextUuid) rfl
      exact run_attempt_bind hGet

theorem run_get_found (h : d.Quiet) {teamIds : List Int} {teamId : Int} (hMember : teamId ∈ teamIds)
    {w : Webhook} (hWebhook : d.registry.webhookOf? teamId = some w) :
    d.run (get teamIds teamId) = (.ok w, d) := by
  obtain ⟨c, hHome, hFind⟩ := Option.bind_eq_some_iff.mp hWebhook
  have hContains : (!teamIds.contains teamId) = false := by simpa using hMember
  have hHomeRun := run_webhookChannel h teamId
  rw [hHome] at hHomeRun
  unfold get
  rw [hContains]
  exact (run_bind hHomeRun).trans
    (h.run_read (Registry.getWebhook_found hFind d.now d.nextUuid) rfl)

theorem run_get_missing (h : d.Quiet) {teamIds : List Int} {teamId : Int}
    (hMember : teamId ∈ teamIds) (hWebhook : d.registry.webhookOf? teamId = none) :
    ∃ missing, d.run (get teamIds teamId) = (.error (.notFound missing), d) := by
  have hContains : (!teamIds.contains teamId) = false := by simpa using hMember
  have hHomeRun := run_webhookChannel h teamId
  unfold get
  rw [hContains]
  cases hHome : d.registry.home? teamId with
  | none =>
      rw [hHome] at hHomeRun
      exact ⟨_, run_bind hHomeRun⟩
  | some c =>
      rw [hHome] at hHomeRun
      have hFind : d.registry.webhook? c.id = none := by
        rw [Registry.webhookOf?, hHome] at hWebhook
        exact hWebhook
      exact ⟨_, (run_bind hHomeRun).trans
        (h.run_read (Registry.getWebhook_missing hFind d.now d.nextUuid) rfl)⟩

/-- A team is shown what the tables keep for it. -/
theorem run_getWithSecret (h : d.Quiet) {teamIds : List Int} {teamId : Int}
    (hMember : teamId ∈ teamIds) {shown : Shown} (hKept : shown.Kept cipher d.registry teamId) :
    d.run (getWithSecret ⟨some cipher⟩ teamIds teamId) = (.ok shown, d) := by
  unfold Shown.Kept at hKept
  unfold getWithSecret
  cases hWebhook : d.registry.webhookOf? teamId with
  | none =>
      rw [hWebhook] at hKept
      obtain rfl : shown = .nothing := hKept
      obtain ⟨missing, hGet⟩ := run_get_missing h hMember hWebhook
      exact run_attempt_bind hGet
  | some w =>
      rw [hWebhook] at hKept
      obtain ⟨hUrl, hOpens, hEmpty⟩ : shown.IsOf cipher w := hKept
      have hGet := run_get_found h hMember hWebhook
      refine (run_attempt_bind hGet).trans ?_
      dsimp only
      by_cases hStored : w.sealedSecret.getD "" = ""
      · have hShown : shown = ⟨w.url, ""⟩ := by
          rw [hUrl, ← hEmpty.mp hStored]
        rw [hStored, hShown]
        rfl
      · have hNot : (w.sealedSecret.getD "").isEmpty = false := by simpa using hStored
        simp only [hNot, Notifier.openSecret, hOpens, hUrl]
        rfl

/-! ## Saving -/

/-- The form in which a secret is stored; the empty one needs no cipher. -/
def storedSecret (n : Notifier) (secret : String) : Program String :=
  if secret.isEmpty then pure "" else n.sealSecret secret

/-- What is done before the test delivery of a save. -/
def keep (n : Notifier) (teamId : Int) (url secret : String) : Program Webhook := do
  let time ← now
  let channel ← ensureChannel teamId time
  let stored ← storedSecret n secret
  storeWebhook channel.id url stored time

/-- Saving an address ends with a test delivery to what is kept. -/
theorem save_eq (n : Notifier) {teamIds : List Int} {teamId : Int} (hMember : teamId ∈ teamIds)
    {url : String} (hUrl : url ≠ "") (secret : String) :
    save n teamIds teamId url secret =
      keep n teamId url secret >>= fun webhook => sendTest n webhook teamId := by
  have hContains : (!teamIds.contains teamId) = false := by simpa using hMember
  have hNonempty : url.isEmpty = false := by simpa using hUrl
  simp only [save, keep, storedSecret, hContains, hNonempty, Bool.false_eq_true, if_false,
    bind_assoc]
  refine bind_congr fun time => bind_congr fun channel => ?_
  split
  · rfl
  · rfl

/-- What is asked to store a webhook in a channel. -/
inductive Storing : Request → Prop
  | nonce : Storing .nonce
  | webhook (channelId : Option Int) : Storing (.registry (.getWebhook channelId))
  | create (draft : WebhookDraft) : Storing (.registry (.createWebhook draft))
  | update (draft : WebhookDraft) : Storing (.registry (.updateWebhook draft))
  | noteChange (change : RowChange) : Storing (.noteChange change)

theorem findWebhook_asks (channelId : Int) : (findWebhook channelId).Asks Storing := by
  unfold findWebhook
  refine (asks_request (.webhook _)).attempt_bind (fun webhook => asks_pure _) fun e => ?_
  dsimp only
  split
  · exact asks_pure _
  · exact asks_throw _

theorem storeWebhook_asks (channelId : Int) (url stored : String) (time : Instant) :
    (storeWebhook channelId url stored time).Asks Storing := by
  unfold storeWebhook
  refine (findWebhook_asks channelId).bind fun found => ?_
  split
  · exact asks_request (.create _)
  · refine (asks_request (.noteChange _)).bind fun _ => ?_
    exact (asks_request (.update _)).bind fun _ => asks_pure _

theorem sealSecret_asks (n : Notifier) (secret : String) : (n.sealSecret secret).Asks Storing := by
  unfold Notifier.sealSecret
  split
  · exact asks_throw _
  · split
    · exact asks_pure _
    · exact (asks_request .nonce).bind fun _ => asks_pure _

/-- Saving an empty address only clears. -/
theorem run_save_empty (n : Notifier) {teamIds : List Int} {teamId : Int}
    (hMember : teamId ∈ teamIds) (secret : String) :
    d.run (save n teamIds teamId "" secret) = d.run (clear teamId d.now) := by
  have hContains : (!teamIds.contains teamId) = false := by simpa using hMember
  rw [save, hContains]
  rfl

theorem run_save_refused (n : Notifier) {s : Save} (h : ¬s.IsPermitted) :
    d.run (s.program n) = (.error (.noAccessToTeam s.teamId), d) := by
  have hContains : (!s.teamIds.contains s.teamId) = true := by
    simpa [Save.IsPermitted] using h
  rw [Save.program, save, hContains]
  rfl

/-- A registry in which a team has a home, made if need be; nobody else's home has changed. -/
structure Houses (r : Registry) (teamId : Int) (c : Channel) (s : Registry) : Prop where
  webhooks : s.webhooks = r.webhooks
  channels : s.channels = r.channels ∨ r.home? teamId = none ∧ c.id ∉ r.channels.map Channel.id ∧
    c.teamId = teamId ∧ c.kind = Channel.webhookKind ∧ s.channels = r.channels ++ [c]
  home : s.home? teamId = some c
  others : ∀ other, other ≠ teamId → s.home? other = r.home? other

theorem run_ensureChannel (h : d.Quiet) (teamId : Int) (time : Instant) :
    ∃ c after, d.run (ensureChannel teamId time) = (.ok c, after) ∧
      Houses d.registry teamId c after.registry ∧
        (c ∈ d.registry.channels ∨ c.enabled = true) := by
  have hHomeRun := run_webhookChannel h teamId
  unfold ensureChannel
  cases hHome : d.registry.home? teamId with
  | some c =>
      rw [hHome] at hHomeRun
      exact ⟨c, d, run_bind hHomeRun, ⟨rfl, .inl rfl, hHome, fun _ _ => rfl⟩,
        .inl (Registry.mem_of_home? hHome).1⟩
  | none =>
      rw [hHome] at hHomeRun
      obtain ⟨c, hCreate, hFree, hTeam, hKind, hEnabled⟩ :=
        d.registry.createChannel_eq d.now d.nextUuid
          (d := { teamId := teamId, name := some defaultChannelName, kind := some Channel.webhookKind,
                  enabled := some true, createdAt := some time, updatedAt := some time }) rfl rfl rfl
      obtain ⟨issuesNamed, hRun⟩ := h.run_call hCreate
      -- What is left to do only writes to the log.
      refine ⟨c, _, (run_bind hHomeRun).trans (run_bind hRun), ⟨rfl, .inr ⟨hHome, hFree, hTeam, hKind,
        rfl⟩, ?_, fun other hOther => ?_⟩, .inr hEnabled⟩
      · subst hTeam
        exact Registry.home?_append_self hHome hKind rfl
      · exact Registry.home?_append_other (hTeam ▸ hOther.symm) rfl

theorem Houses.addressed {r s : Registry} {teamId : Int} {c : Channel} (h : Houses r teamId c s)
    (hAddressed : r.Addressed) : s.Addressed where
  channels := by
    obtain hSame | ⟨-, hFree, -, -, hAdded⟩ := h.channels
    · rw [hSame]
      exact hAddressed.channels
    · rw [hAdded]
      exact map_key_append hAddressed.channels hFree
  webhooks := by
    rw [h.webhooks]
    exact hAddressed.webhooks

/-- All channels but the home were there before. -/
theorem Houses.mem_of_ne {r s : Registry} {teamId : Int} {c other : Channel}
    (h : Houses r teamId c s) (hOther : other ∈ s.channels) (hId : other.id ≠ c.id) :
    other ∈ r.channels := by
  obtain hSame | ⟨-, -, -, -, hAdded⟩ := h.channels
  · rwa [hSame] at hOther
  · rw [hAdded, List.mem_append, List.mem_singleton] at hOther
    obtain hOld | rfl := hOther
    · exact hOld
    · exact absurd rfl hId

theorem Houses.webhookOf?_other {r s : Registry} {teamId otherId : Int} {c : Channel}
    (h : Houses r teamId c s) (hTeams : otherId ≠ teamId) :
    s.webhookOf? otherId = r.webhookOf? otherId := by
  rw [Registry.webhookOf?, Registry.webhookOf?, h.others otherId hTeams]
  exact congrArg _ (funext fun c => Registry.webhook?_congr h.webhooks c.id)

/-- The stored form of a secret opens to it, and only the empty secret is stored as the empty text.
-/
theorem run_storedSecret (hKey : cipher.key.length = 32) (d : Deployment) (secret : String) :
    ∃ stored after, d.run (storedSecret ⟨some cipher⟩ secret) = (.ok stored, after) ∧
      after.registry = d.registry ∧ cipher.openSecret stored = .ok secret ∧
        (stored = "" ↔ secret = "") := by
  unfold storedSecret
  by_cases hSecret : secret = ""
  · subst hSecret
    exact ⟨"", d, rfl, rfl, rfl, Iff.rfl⟩
  · have hNonempty : secret.isEmpty = false := by simpa using hSecret
    have hNonce : d.nextNonce.length = SecretCipher.nonceSize := Text.length_bytesBE _ _
    have hOpens := SecretCipher.openSecret_sealSecret hKey hNonce secret
    have hEmpty : cipher.sealSecret d.nextNonce secret = "" ↔ secret = "" :=
      SecretCipher.sealSecret_eq_empty hKey
    refine ⟨cipher.sealSecret d.nextNonce secret, { d with noncesDrawn := d.noncesDrawn + 1 }, ?_,
      rfl, hOpens, hEmpty⟩
    simp only [Notifier.sealSecret, hNonempty]
    rfl

/-- Outside a unit of work there is nothing to keep in step with. -/
theorem run_noteChange (h : d.Quiet) (change : RowChange) :
    d.run (request (.noteChange change)) = (.ok (), d) := by
  rw [d.run_noteChange, Deployment.noteChange_eq h.unit]

/-- A webhook is written over the one of its channel. -/
theorem run_updateWebhook (h : d.Quiet) {old w : Webhook}
    (hOld : d.registry.webhook? w.channelId = some old) (hOnto : w.draft.onto old = .ok w) :
    ∃ after, d.run (registry (.updateWebhook w.draft)) = (.ok (), after) ∧
      d.registry.Puts w after.registry := by
  obtain ⟨s, hUpdate, hPuts⟩ := d.registry.updateWebhook_puts d.now d.nextUuid hOld hOnto
  obtain ⟨issuesNamed, hRun⟩ := h.run_call hUpdate
  exact ⟨_, hRun, hPuts⟩

/-- Storing puts a webhook with the address and the stored secret in the place of the one of the
channel.  It is verified if there was one. -/
theorem run_storeWebhook (h : d.Quiet) (channelId : Int) (url stored : String) (time : Instant) :
    ∃ w after, d.run (storeWebhook channelId url stored time) = (.ok w, after) ∧
      d.registry.Puts w after.registry ∧ w.channelId = channelId ∧ w.url = url ∧
        w.sealedSecret = some stored ∧
          w.verifiedAt.isSome = (d.registry.webhook? channelId).isSome := by
  have hFindRun := run_findWebhook h channelId
  unfold storeWebhook
  cases hFind : d.registry.webhook? channelId with
  | none =>
      rw [hFind] at hFindRun
      obtain ⟨w, s, hCreate, hPuts, hChannel, hUrl, hStored, hVerified⟩ :=
        d.registry.createWebhook_puts d.now d.nextUuid hFind rfl
          (d := { channelId := channelId, url := some url, sealedSecret := some stored,
                  createdAt := some time, updatedAt := some time }) rfl rfl
      obtain ⟨issuesNamed, hRun⟩ := h.run_call hCreate
      exact ⟨w, _, (run_bind hFindRun).trans hRun, hPuts, hChannel, hUrl, hStored,
        congrArg Option.isSome hVerified⟩
  | some old =>
      rw [hFind] at hFindRun
      have hOld : old.channelId = channelId := Registry.channelId_of_webhook? hFind
      have hFindRow : d.registry.webhook? old.channelId = some old := Registry.webhook?_self hFind
      let webhook := { old with
        url
        sealedSecret := some stored
        verifiedAt := some time
        updatedAt := time }
      have hNote := run_noteChange h (.webhook webhook)
      obtain ⟨after, hUpdate, hPuts⟩ := run_updateWebhook h (w := webhook) hFindRow rfl
      exact ⟨webhook, after, (run_bind hFindRun).trans ((run_bind hNote).trans (run_bind hUpdate)),
        hPuts, hOld, rfl, rfl, rfl⟩

/-- Clearing empties the webhook of the team, if it has one, and leaves it verified if it was. -/
theorem run_clear (h : d.Quiet) (teamId : Int) (time : Instant) :
    ∃ after, d.run (clear teamId time) = (.ok (), after) ∧
      (d.registry.webhookOf? teamId = none ∧ after = d ∨
        ∃ c w, d.registry.home? teamId = some c ∧ d.registry.Puts w after.registry ∧
          w.channelId = c.id ∧ w.url = "" ∧ w.sealedSecret = some "" ∧
            ∃ old, d.registry.webhook? c.id = some old ∧ w.verifiedAt = old.verifiedAt) := by
  have hHomeRun := run_webhookChannel h teamId
  unfold clear
  cases hHome : d.registry.home? teamId with
  | none =>
      rw [hHome] at hHomeRun
      have hWebhook : d.registry.webhookOf? teamId = none := by
        rw [Registry.webhookOf?, hHome]
        rfl
      exact ⟨d, run_bind hHomeRun, .inl ⟨hWebhook, rfl⟩⟩
  | some c =>
      rw [hHome] at hHomeRun
      have hFindRun := run_findWebhook h c.id
      cases hFind : d.registry.webhook? c.id with
      | none =>
          rw [hFind] at hFindRun
          have hWebhook : d.registry.webhookOf? teamId = none := by
            rw [Registry.webhookOf?, hHome]
            exact hFind
          exact ⟨d, (run_bind hHomeRun).trans (run_bind hFindRun), .inl ⟨hWebhook, rfl⟩⟩
      | some old =>
          rw [hFind] at hFindRun
          have hOld : old.channelId = c.id := Registry.channelId_of_webhook? hFind
          have hFindRow : d.registry.webhook? old.channelId = some old :=
            Registry.webhook?_self hFind
          let webhook := { old with url := "", sealedSecret := some "", updatedAt := time }
          have hNote := run_noteChange h (.webhook webhook)
          obtain ⟨after, hUpdate, hPuts⟩ := run_updateWebhook h (w := webhook) hFindRow rfl
          refine ⟨_, (run_bind hHomeRun).trans ((run_bind hFindRun).trans ((run_bind hNote).trans
            (run_bind hUpdate))), .inr ⟨c, webhook, rfl, ?_, hOld, rfl, rfl, old, hFind, rfl⟩⟩
          exact hPuts

/-- What is kept of a save before its test delivery. -/
theorem run_keep (hKey : cipher.key.length = 32) (h : d.Quiet) (teamId : Int) (url secret : String) :
    ∃ w after, d.run (keep ⟨some cipher⟩ teamId url secret) = (.ok w, after) ∧
      Shown.IsOf ⟨url, secret⟩ cipher w ∧
      ∃ c mid, Houses d.registry teamId c mid ∧ mid.Puts w after.registry ∧ w.channelId = c.id := by
  obtain ⟨c, housed, hEnsure, hHouses, -⟩ := run_ensureChannel h teamId d.now
  have hHoused := h.of_run hEnsure
  obtain ⟨stored, sealing, hStore, hSame, hOpens, hEmpty⟩ := run_storedSecret hKey housed secret
  have hSealing := hHoused.of_run hStore
  obtain ⟨w, after, hPut, hPuts, hChannel, hUrl, hStored, -⟩ :=
    run_storeWebhook hSealing c.id url stored d.now
  rw [hSame] at hPuts
  refine ⟨w, after, ?_, ⟨hUrl, ?_, ?_⟩, c, housed.registry, hHouses, hPuts, hChannel⟩
  · exact (run_bind d.run_now).trans ((run_bind hEnsure).trans ((run_bind hStore).trans hPut))
  · rw [hStored]
    exact hOpens
  · rw [hStored]
    exact hEmpty

theorem sendTest_asks (n : Notifier) (w : Webhook) (teamId : Int) :
    (sendTest n w teamId).Asks Notifier.Asked :=
  (asks_request .now).bind fun _ => Notifier.sendWebhook_asks n w _

/-- What a permitted save leaves of the tables. -/
structure Save.Leaves (s : Save) (cipher : SecretCipher) (r r' : Registry) : Prop where
  addressed : r'.Addressed
  channels : r'.channels = r.channels ∨ ∃ c, r.home? s.teamId = none ∧ c.teamId = s.teamId ∧
    c.kind = Channel.webhookKind ∧ r'.channels = r.channels ++ [c]
  furnished : r.Furnished → r'.Furnished
  kept : s.shown.Kept cipher r' s.teamId
  others : ∀ other, other ≠ s.teamId → r'.webhookOf? other = r.webhookOf? other

theorem Shown.IsOf.kept {shown : Shown} {w : Webhook} (h : shown.IsOf cipher w) {r : Registry}
    {teamId : Int} (hWebhook : r.webhookOf? teamId = some w) : shown.Kept cipher r teamId := by
  rw [Shown.Kept, hWebhook]
  exact h

/-- A save of an empty address. -/
theorem save_leaves_empty (h : d.Quiet) (hAddressed : d.registry.Addressed) {s : Save}
    (hPermitted : s.IsPermitted) (hUrl : s.url = "") (n : Notifier) :
    s.Leaves cipher d.registry (d.run (s.program n)).2.registry := by
  have hShown : s.shown = .nothing := if_pos hUrl
  rw [Save.program, hUrl, run_save_empty n hPermitted]
  obtain ⟨after, hRun, ⟨hNone, rfl⟩ | ⟨c, w, hHome, hPuts, hChannel, hCleared, hStored, -⟩⟩ :=
    run_clear h s.teamId d.now
  · rw [hRun]
    refine ⟨hAddressed, .inl rfl, fun hFurnished => hFurnished, ?_, fun _ _ => rfl⟩
    rw [hShown, Shown.Kept, hNone]
  · rw [hRun]
    have hIs : Shown.nothing.IsOf cipher w := by
      refine ⟨hCleared, ?_, ?_⟩ <;> rw [hStored]
      · rfl
      · exact Iff.rfl
    refine ⟨hPuts.addressed hAddressed, .inl hPuts.channels, ?_, ?_, ?_⟩
    · exact fun hFurnished => hPuts.furnished fun c hc _ => hFurnished c hc
    · rw [hShown]
      exact hIs.kept (hPuts.webhookOf?_self hHome hChannel)
    · exact fun other hOther => hPuts.webhookOf?_other hAddressed hHome hChannel hOther

/-- A save of an address. -/
theorem save_leaves_url (hKey : cipher.key.length = 32) (h : d.Quiet)
    (hAddressed : d.registry.Addressed) {s : Save} (hPermitted : s.IsPermitted) (hUrl : s.url ≠ "") :
    s.Leaves cipher d.registry (d.run (s.program ⟨some cipher⟩)).2.registry := by
  have hShown : s.shown = ⟨s.url, s.secret⟩ := if_neg hUrl
  obtain ⟨w, after, hKeep, hIs, c, mid, hHouses, hPuts, hChannel⟩ :=
    run_keep hKey h s.teamId s.url s.secret
  have hAfter := h.of_run hKeep
  -- The outcome of the test delivery is the outcome of the save, but the tables stay.
  have hTables : (d.run (s.program ⟨some cipher⟩)).2.registry = after.registry := by
    rw [Save.program, save_eq _ hPermitted hUrl, run_bind hKeep]
    exact Notifier.registry_run (sendTest_asks _ w s.teamId) hAfter.unit
  have hMid := hHouses.addressed hAddressed
  rw [hTables]
  constructor
  · exact hPuts.addressed hMid
  · rw [hPuts.channels]
    obtain hSame | ⟨hNone, -, hTeam, hKind, hAdded⟩ := hHouses.channels
    · exact .inl hSame
    · exact .inr ⟨c, hNone, hTeam, hKind, hAdded⟩
  · intro hFurnished
    refine hPuts.furnished fun other hOther hId => ?_
    rw [Registry.webhook?_congr hHouses.webhooks]
    exact hFurnished other (hHouses.mem_of_ne hOther (hChannel ▸ hId))
  · rw [hShown]
    exact hIs.kept (hPuts.webhookOf?_self hHouses.home hChannel)
  · intro other hOther
    rw [hPuts.webhookOf?_other hMid hHouses.home hChannel hOther, hHouses.webhookOf?_other hOther]

/-- After a permitted save the team is shown what it has saved, and nothing changes for any other
team. -/
theorem save_leaves (hKey : cipher.key.length = 32) (h : d.Quiet)
    (hAddressed : d.registry.Addressed) {s : Save} (hPermitted : s.IsPermitted) :
    s.Leaves cipher d.registry (d.run (s.program ⟨some cipher⟩)).2.registry := by
  by_cases hUrl : s.url = ""
  · exact save_leaves_empty h hAddressed hPermitted hUrl _
  · exact save_leaves_url hKey h hAddressed hPermitted hUrl

end Webhook.TeamSettings
end Triage
