import Triage.Proofs.Webhook.SaveHistory
import Triage.Proofs.Webhook.Signing

/-!
# What is posted can be verified

A delivery to a webhook makes at most one post.  The signature is computed with the secret that the
stored form opens to, over the bytes of the body that is posted, so a receiver who knows the secret
accepts it (`posted_sendWebhook`).  Together with what saves leave in the tables this covers all
deliveries to a saved address: the one of the save itself, tests, and notifications about alerts
(`deliveries_serve`).

A post is what is handed to the transport.  Whether it arrives is up to the address and the host.
-/

namespace Triage.Webhook

open Program Cipher TeamSettings

/-- A post that goes to an address and can be verified with a secret: it is signed, and the signature
is accepted for the bytes of its body, with the mark in front of it and without.  Under the empty
secret it is not signed at all. -/
structure Post.Serves (p : Post) (shown : Shown) : Prop where
  url : p.url = shown.url
  signed : shown.secret ≠ "" → ∃ signature, p.signature = some signature ∧
    verify? (Text.utf8 p.body) shown.secret signature defaultMark = some true ∧
    verify? (Text.utf8 p.body) shown.secret (defaultMark ++ signature) defaultMark = some true
  unsigned : shown.secret = "" → p.signature = none

variable {cipher : SecretCipher} {start d : Deployment} {shown : Shown} {w : Webhook}

/-! ## One delivery -/

/-- The signature under the secret that a webhook is shown with. -/
theorem signature_eq (hIs : shown.IsOf cipher w) (body : List UInt8) :
    Notifier.signature ⟨some cipher⟩ w.sealedSecret body =
      .ok (if shown.secret = "" then none else some (sign body shown.secret)) := by
  unfold Notifier.signature
  by_cases hSecret : shown.secret = ""
  · have hStored : w.sealedSecret.getD "" = "" := hIs.empty.mpr hSecret
    simp [hStored, hSecret]
  · have hStored : w.sealedSecret.getD "" ≠ "" := fun hEmpty => hSecret (hIs.empty.mp hEmpty)
    simp [hStored, hSecret, Notifier.openSecret, hIs.opens, Except.mapError]

theorem serves_signed (shown : Shown) (payload : Payload) :
    Post.Serves ⟨shown.url, payload.body,
      if shown.secret = "" then none else some (sign payload.bytes shown.secret)⟩ shown where
  url := rfl
  signed hSecret := by
    refine ⟨sign payload.bytes shown.secret, if_neg hSecret, ?_⟩
    exact verify?_sign payload.bytes hSecret
  unsigned hSecret := if_pos hSecret

theorem run_reach (h : d.Quiet) (stage : Stage) : d.run (request (.reach stage)) = (.ok (), d) := by
  rw [d.run_request, Deployment.perform_unstaged h.staged]
  rfl

/-- What is posted to a webhook: the body of a payload, signed if there is a secret, and nothing if the
secret cannot be opened. -/
def Notifier.postOf? (n : Notifier) (w : Webhook) (payload : Payload) : Option Post :=
  match n.signature w.sealedSecret payload.bytes with
  | .ok signed => some ⟨w.url, payload.body, signed⟩
  | .error _ => none

theorem posted_sendWebhook_eq (h : d.Quiet) (n : Notifier) (w : Webhook) (payload : Payload) :
    d.posted (n.sendWebhook w payload) = (n.postOf? w payload).toList := by
  unfold Notifier.sendWebhook Notifier.postOf?
  refine (Deployment.posted_silent_bind (asks_request rfl) (run_reach h .sendWebhook)).trans ?_
  cases n.signature w.sealedSecret payload.bytes with
  | error e => rfl
  | ok signed =>
      have hSettle : settle (.ok signed) = (pure signed : Program _) := rfl
      rw [hSettle, pure_bind]
      refine (Deployment.posted_bind_silent fun response => ?_).trans (Deployment.posted_request d _)
      split
      · exact (asks_throw _).bind fun _ => asks_request rfl
      · exact asks_request rfl

theorem Notifier.url_of_postOf? {n : Notifier} {payload : Payload} {p : Post}
    (h : n.postOf? w payload = some p) : p.url = w.url := by
  unfold postOf? at h
  split at h <;> cases h
  rfl

/-- Without a secret there is always a post. -/
theorem Notifier.postOf?_bare (n : Notifier) (hBare : w.sealedSecret.getD "" = "")
    (payload : Payload) : n.postOf? w payload = some ⟨w.url, payload.body, none⟩ := by
  have hSigned : n.signature w.sealedSecret payload.bytes = .ok none := by
    simp [signature, hBare]
  rw [postOf?, hSigned]

/-- A delivery makes one post, and it serves. -/
theorem posted_sendWebhook (h : d.Quiet) (hIs : shown.IsOf cipher w) (payload : Payload) :
    ∃ p, d.posted (Notifier.sendWebhook ⟨some cipher⟩ w payload) = [p] ∧ p.body = payload.body ∧
      p.Serves shown := by
  refine ⟨_, ?_, rfl, serves_signed shown payload⟩
  rw [posted_sendWebhook_eq h, Notifier.postOf?, signature_eq hIs, hIs.url]
  rfl

/-! ## Deliveries to teams -/

namespace TeamSettings

theorem webhookChannel_silent (teamId : Int) : (webhookChannel? teamId).Silent :=
  (silent_request rfl).bind fun _ => asks_pure _

/-- Nothing is posted to store a webhook. -/
theorem silent_of_storing {p : Program α} (hp : p.Asks Storing) : p.Silent :=
  hp.mono fun _ h => by cases h <;> rfl

theorem ensureChannel_silent (teamId : Int) (time : Instant) : (ensureChannel teamId time).Silent := by
  refine (webhookChannel_silent teamId).bind fun found => ?_
  cases found with
  | some channel => exact asks_pure _
  | none => exact (silent_request rfl).bind fun _ => (silent_request rfl).bind fun _ => asks_pure _

theorem storedSecret_silent (n : Notifier) (secret : String) : (storedSecret n secret).Silent := by
  unfold storedSecret
  split
  · exact asks_pure _
  · exact silent_of_storing (sealSecret_asks n secret)

theorem keep_silent (n : Notifier) (teamId : Int) (url secret : String) :
    (keep n teamId url secret).Silent := by
  refine (silent_request rfl).bind fun time => (ensureChannel_silent teamId time).bind fun c => ?_
  refine (storedSecret_silent n secret).bind fun stored => ?_
  exact silent_of_storing (storeWebhook_asks c.id url stored time)

theorem clear_silent (teamId : Int) (time : Instant) : (clear teamId time).Silent := by
  refine (webhookChannel_silent teamId).bind fun found => ?_
  cases found with
  | none => exact asks_pure _
  | some channel =>
      refine (silent_of_storing (findWebhook_asks channel.id)).bind fun found => ?_
      cases found with
      | none => exact asks_pure _
      | some old =>
          refine (silent_request rfl).bind fun _ => (silent_request rfl).bind fun _ => ?_
          exact silent_request rfl

theorem get_silent (teamIds : List Int) (teamId : Int) : (get teamIds teamId).Silent := by
  unfold get
  split
  · exact asks_throw (.noAccessToTeam teamId)
  · refine (webhookChannel_silent teamId).bind fun found => ?_
    cases found with
    | none => exact asks_throw _
    | some channel => exact silent_request rfl

theorem posted_sendTest (h : d.Quiet) (hIs : shown.IsOf cipher w) (teamId : Int) :
    ∃ p, d.posted (sendTest ⟨some cipher⟩ w teamId) = [p] ∧ p.Serves shown := by
  obtain ⟨p, hPosted, -, hServes⟩ := posted_sendWebhook h hIs (testPayload teamId d.now)
  exact ⟨p, (Deployment.posted_silent_bind (silent_request rfl) d.run_now).trans hPosted, hServes⟩

/-- The test delivery of a save. -/
theorem posted_save (hKey : cipher.key.length = 32) (h : d.Quiet) {s : Save}
    (hPermitted : s.IsPermitted) (hUrl : s.url ≠ "") :
    ∃ p, d.posted (s.program ⟨some cipher⟩) = [p] ∧ p.Serves s.shown := by
  have hShown : s.shown = ⟨s.url, s.secret⟩ := if_neg hUrl
  obtain ⟨w, after, hKeep, hIs, -⟩ := run_keep hKey h s.teamId s.url s.secret
  have hAfter := h.of_run hKeep
  rw [hShown, Save.program, save_eq _ hPermitted hUrl]
  obtain ⟨p, hPosted, hServes⟩ := posted_sendTest hAfter hIs s.teamId
  exact ⟨p, (Deployment.posted_silent_bind (keep_silent _ _ _ _) hKeep).trans hPosted, hServes⟩

/-- A test delivery to what is kept. -/
theorem posted_test (h : d.Quiet) {teamIds : List Int} {teamId : Int} (hMember : teamId ∈ teamIds)
    (hWebhook : d.registry.webhookOf? teamId = some w) (hIs : shown.IsOf cipher w)
    (hUrl : shown.url ≠ "") :
    ∃ p, d.posted (test ⟨some cipher⟩ teamIds teamId) = [p] ∧ p.Serves shown := by
  have hGet := run_get_found h hMember hWebhook
  have hNonempty : w.url.isEmpty = false := by simpa [hIs.url] using hUrl
  obtain ⟨p, hPosted, hServes⟩ := posted_sendTest h hIs teamId
  refine ⟨p, ?_, hServes⟩
  unfold test
  refine (Deployment.posted_silent_bind (get_silent teamIds teamId) hGet).trans ?_
  rw [hNonempty]
  exact hPosted

end TeamSettings

namespace Notifier

/-- The status that a notification of a kind tells. -/
def toldStatus (kind : String) : String :=
  if kind = triggeredKind then triggeredKind else resolvedKind

theorem verifiedWebhook_silent (ref : ChannelRef) : (verifiedWebhook ref).Silent := by
  refine (silent_request rfl).attempt_bind (fun webhook => ?_) fun e => ?_
  · dsimp only
    split
    · exact (asks_throw _).bind fun _ => asks_pure _
    · exact asks_pure _
  · dsimp only
    split <;> exact asks_throw _

theorem run_verifiedWebhook (h : d.Quiet) {ref : ChannelRef} {channelId : Int}
    (hId : ref.id = some channelId) (hFind : d.registry.webhook? channelId = some w) :
    d.run (verifiedWebhook ref) =
      (if w.verifiedAt.isNone then .error .webhookUnverified else .ok w, d) := by
  have hGet := h.run_read (Registry.getWebhook_found hFind d.now d.nextUuid) rfl
  unfold verifiedWebhook
  rw [hId]
  refine (run_attempt_bind hGet).trans ?_
  dsimp only
  split <;> rfl

theorem run_verifiedWebhook_missing (h : d.Quiet) {ref : ChannelRef} {channelId : Int}
    (hId : ref.id = some channelId) (hFind : d.registry.webhook? channelId = none) :
    d.run (verifiedWebhook ref) = (.error (.webhookMissing ref.id), d) := by
  have hGet := h.run_read (Registry.getWebhook_missing hFind d.now d.nextUuid) rfl
  unfold verifiedWebhook
  rw [hId]
  exact run_attempt_bind hGet

/-- Nothing is posted for a channel of another kind or without a verified webhook. -/
theorem posted_send_refused (h : d.Quiet) {ref : ChannelRef} {channelId : Int}
    (hId : ref.id = some channelId)
    (hRefused : ref.kind ≠ some Channel.webhookKind ∨
      ∀ w, d.registry.webhook? channelId = some w → w.verifiedAt = none)
    (n : Notifier) (payload : String → Instant → Checked Payload) (kind : String) :
    d.posted (n.send payload ref kind) = [] := by
  unfold send
  refine (Deployment.posted_silent_bind (silent_request rfl) (run_reach h .send)).trans ?_
  by_cases hKind : (ref.kind != some Channel.webhookKind) = true
  · rw [if_pos hKind]
    rfl
  · rw [if_neg hKind]
    have hUnverified := hRefused.resolve_left fun hNe => hKind (by simpa using hNe)
    have hFails : ∃ e, d.run (verifiedWebhook ref) = (.error e, d) := by
      cases hFind : d.registry.webhook? channelId with
      | none => exact ⟨_, run_verifiedWebhook_missing h hId hFind⟩
      | some w =>
          have hVerify := run_verifiedWebhook h hId hFind
          rw [hUnverified w hFind] at hVerify
          exact ⟨_, hVerify⟩
    obtain ⟨e, hFails⟩ := hFails
    exact Deployment.posted_silent_fail (verifiedWebhook_silent ref) hFails

/-- Otherwise what is posted is the payload with the status that is told and the time. -/
theorem posted_send_verified (h : d.Quiet) {ref : ChannelRef} {channelId : Int}
    (hId : ref.id = some channelId) (hFind : d.registry.webhook? channelId = some w)
    (hKind : ref.kind = some Channel.webhookKind) (hVerified : w.verifiedAt ≠ none)
    (n : Notifier) (payload : String → Instant → Checked Payload) (kind : String) :
    d.posted (n.send payload ref kind) =
      match (payload (toldStatus kind) d.now).toExcept with
      | .ok made => d.posted (n.sendWebhook w made)
      | .error _ => [] := by
  have hVerify := run_verifiedWebhook h hId hFind
  have hSome : w.verifiedAt.isNone = false := by simpa [Option.isSome_iff_ne_none] using hVerified
  rw [hSome] at hVerify
  unfold send
  refine (Deployment.posted_silent_bind (silent_request rfl) (run_reach h .send)).trans ?_
  rw [if_neg (by simp [hKind])]
  refine (Deployment.posted_silent_bind (verifiedWebhook_silent ref) hVerify).trans ?_
  have hStage : ∃ stage, (if kind = triggeredKind then (Stage.sendTriggered, triggeredKind)
      else (Stage.sendResolved, resolvedKind)) = (stage, toldStatus kind) := by
    unfold toldStatus
    split
    · exact ⟨_, rfl⟩
    · exact ⟨_, rfl⟩
  obtain ⟨stage, hStage⟩ := hStage
  have hNow : d.run Program.now = (.ok d.now, d) := rfl
  rw [hStage]
  refine (Deployment.posted_silent_bind (silent_request rfl) (run_reach h stage)).trans ?_
  refine (Deployment.posted_silent_bind (silent_request rfl) hNow).trans ?_
  cases (payload (toldStatus kind) d.now).toExcept with
  | ok made => rfl
  | error e => rfl

end Notifier

theorem TeamSettings.Shown.Kept.exists_webhook {teamId : Int} {r : Registry}
    (h : shown.Kept cipher r teamId) (hUrl : shown.url ≠ "") :
    ∃ w, r.webhookOf? teamId = some w ∧ shown.IsOf cipher w := by
  unfold Shown.Kept at h
  cases hWebhook : r.webhookOf? teamId with
  | some w =>
      rw [hWebhook] at h
      exact ⟨w, rfl, h⟩
  | none =>
      rw [hWebhook] at h
      obtain rfl : shown = .nothing := h
      exact absurd rfl hUrl

/-- A notification posts at most once, and what it posts serves. -/
theorem serves_of_mem_send (h : d.Quiet) (hIs : shown.IsOf cipher w) {ref : ChannelRef}
    {channelId : Int} (hId : ref.id = some channelId)
    (hFind : d.registry.webhook? channelId = some w)
    (payload : String → Instant → Checked Payload) (kind : String) {p : Post}
    (hMem : p ∈ d.posted (Notifier.send ⟨some cipher⟩ payload ref kind)) : p.Serves shown := by
  by_cases hRefused : ref.kind ≠ some Channel.webhookKind ∨ w.verifiedAt = none
  · rw [Notifier.posted_send_refused h hId (hRefused.imp_right fun hNone v hv =>
      Option.some.inj (hFind.symm.trans hv) ▸ hNone)] at hMem
    cases hMem
  · obtain ⟨hKind, hVerified⟩ := not_or.mp hRefused
    rw [Notifier.posted_send_verified h hId hFind (of_not_not hKind) hVerified] at hMem
    cases hMade : (payload (Notifier.toldStatus kind) d.now).toExcept with
    | error e =>
        rw [hMade] at hMem
        cases hMem
    | ok made =>
        obtain ⟨q, hPosted, -, hServes⟩ := posted_sendWebhook h hIs made
        simp only [hMade, hPosted, List.mem_singleton] at hMem
        rwa [hMem]

/-- After any saves, every delivery to a saved address goes there and can be verified with the saved
secret: the one of the save itself, tests, and whatever is notified to the channel of the team, which
is one post for every alert as soon as the webhook is verified.  The tables may come from any calls, as
no sequence of calls makes addresses ambiguous (`Registry.Addressed.runAll`). -/
theorem deliveries_serve {material : String} (hCipher : SecretCipher.ofMaterial? material = some cipher)
    (hStart : start.Quiet) (hAddressed : start.registry.Addressed) {saves : List Save}
    (hHistory : History ⟨some cipher⟩ start saves d) :
    (∀ s : Save, s.IsPermitted → s.url ≠ "" →
        ∃ p, d.posted (s.program ⟨some cipher⟩) = [p] ∧ p.Serves ⟨s.url, s.secret⟩) ∧
      ∀ teamId s, lastSave? saves teamId = some s → s.url ≠ "" →
        (∀ teamIds, teamId ∈ teamIds →
          ∃ p, d.posted (test ⟨some cipher⟩ teamIds teamId) = [p] ∧ p.Serves ⟨s.url, s.secret⟩) ∧
        ∃ c w, d.registry.home? teamId = some c ∧ d.registry.webhook? c.id = some w ∧
          (∀ ref payload kind, ref.id = some c.id →
            ∀ p ∈ d.posted (Notifier.send ⟨some cipher⟩ payload ref kind),
              p.Serves ⟨s.url, s.secret⟩) ∧
          (w.verifiedAt ≠ none → ∀ (a : Alert) (channel : Channel) (kind : String),
            channel.id = c.id → channel.kind = Channel.webhookKind →
              ∃ p, d.posted (Notifier.sendAlert ⟨some cipher⟩ a channel kind) = [p] ∧
                p.body = (Payload.ofAlert a (Notifier.toldStatus kind) d.now).body ∧
                p.Serves ⟨s.url, s.secret⟩) := by
  have hKey := SecretCipher.length_key hCipher
  have hQuiet := hHistory.quiet hStart
  have hSettled := hHistory.settled hKey hStart hAddressed
  constructor
  · intro s hPermitted hUrl
    have hPosted := posted_save hKey hQuiet hPermitted hUrl
    rwa [Save.shown, if_neg hUrl] at hPosted
  intro teamId s hLast hUrl
  have hKept := hSettled.saved teamId s hLast
  rw [Save.shown, if_neg hUrl] at hKept
  obtain ⟨w, hWebhook, hIs⟩ := hKept.exists_webhook hUrl
  obtain ⟨c, hHome, hFind⟩ := Option.bind_eq_some_iff.mp hWebhook
  constructor
  · intro teamIds hMember
    exact posted_test hQuiet hMember hWebhook hIs hUrl
  refine ⟨c, w, hHome, hFind, ?_, ?_⟩
  · intro ref payload kind hId p hMem
    exact serves_of_mem_send hQuiet hIs hId hFind payload kind hMem
  · intro hVerified a channel kind hId hKind
    obtain ⟨p, hPosted, hBody, hServes⟩ := posted_sendWebhook hQuiet hIs
      (Payload.ofAlert a (Notifier.toldStatus kind) d.now)
    refine ⟨p, ?_, hBody, hServes⟩
    have hRefId : (ChannelRef.ofChannel channel).id = some c.id := congrArg some hId
    have hRefKind : (ChannelRef.ofChannel channel).kind = some Channel.webhookKind :=
      congrArg some hKind
    exact (Notifier.posted_send_verified hQuiet hRefId hFind hRefKind hVerified _ _ kind).trans
      hPosted

/-- A signed address is served by its save and by a test, and one without a secret, saved twice and so
verified, by a notification. -/
theorem saved_addresses_served :
    let n : Notifier := ⟨some ⟨Digest.sha256 (Text.utf8 "key material")⟩⟩
    let signed : Save := ⟨[1], 1, "https://one.example/hook", "a secret"⟩
    let plain : Save := ⟨[2], 2, "https://two.example/hook", ""⟩
    let first := Deployment.initial ⟨0⟩ false
    let tested := afterSaves n first [signed]
    let notified := afterSaves n first [plain, plain]
    let alert : Alert := ⟨7, 1, 2, "Too many", none, Alert.triggered, 10, 1, 1, false, none, none,
      ⟨0⟩, ⟨0⟩⟩
    (∃ p, first.posted (signed.program n) = [p] ∧
        p.Serves ⟨"https://one.example/hook", "a secret"⟩) ∧
      (∃ p, tested.posted (test n [1] 1) = [p] ∧
        p.Serves ⟨"https://one.example/hook", "a secret"⟩) ∧
      ∃ c p, notified.registry.home? 2 = some c ∧
        notified.posted (n.sendAlert alert c triggeredKind) = [p] ∧
        p.Serves ⟨"https://two.example/hook", ""⟩ := by
  intro n signed plain first tested notified alert
  have hCipher : SecretCipher.ofMaterial? "key material" =
      some ⟨Digest.sha256 (Text.utf8 "key material")⟩ := rfl
  have hFirst : first.Quiet := ⟨rfl, rfl, rfl⟩
  -- No calls were made before.
  have hAddressed : first.registry.Addressed := Registry.addressed_empty.runAll []
  obtain ⟨hSave, -⟩ := deliveries_serve hCipher hFirst hAddressed
    (History.begin : History n first [] first)
  obtain ⟨-, hTested⟩ := deliveries_serve hCipher hFirst hAddressed
    (History.begin.afterSaves [signed])
  obtain ⟨-, hNotified⟩ := deliveries_serve hCipher hFirst hAddressed
    (History.begin.afterSaves [plain, plain])
  obtain ⟨hTest, -⟩ := hTested 1 signed rfl (by decide)
  obtain ⟨-, c, w, hHome, hFind, -, hAlert⟩ := hNotified 2 plain rfl (by decide)
  have hVerified : ∀ w ∈ notified.registry.webhooks, w.verifiedAt ≠ none := by decide +kernel
  have hMem := Registry.mem_of_webhook? hFind
  have hKind := (Registry.mem_of_home? hHome).2.2
  obtain ⟨p, hPosted, -, hServes⟩ := hAlert (hVerified w hMem) alert c triggeredKind rfl hKind
  exact ⟨hSave signed (by decide) (by decide), hTest [1] (by decide), c, p, hHome, hPosted, hServes⟩

end Triage.Webhook
