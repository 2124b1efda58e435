import Triage.Proofs.Deployment.CleanFailure
import Triage.Proofs.Webhook.Settings

/-!
# Saves that fail

What a save leaves of the tables if it fails before its test delivery.  Looking up a channel, making
one, and storing a webhook in it each fail cleanly, and so does clearing a webhook.  But the channel
is made before the secret is sealed, so the channel of a team that had none stays if the rest of the
save fails (`failed_save_leaves`).  Where nothing is in the way of registry calls, the only such
failure is that there is no cipher for a secret.
-/

namespace Triage.Webhook.TeamSettings

open Program

variable {d after : Deployment} {n : Notifier} {s : Save} {e : Failure}

/-! ## Steps that fail cleanly -/

theorem webhookChannel_reads (teamId : Int) : (webhookChannel? teamId).Reads := by
  refine Reads.bind (reads_request ?_) fun _ => reads_pure _
  rintro call ⟨⟩
  rfl

theorem findWebhook_reads (channelId : Int) : (findWebhook channelId).Reads := by
  unfold findWebhook
  refine Reads.of_asks ((asks_request ?_).attempt_bind (fun _ => asks_pure _) fun e => ?_)
  · rintro call ⟨⟩
    rfl
  · dsimp only
    split
    · exact asks_pure _
    · exact asks_throw _

theorem noteChange_reads (change : RowChange) : (request (.noteChange change)).Reads :=
  reads_request (by rintro call ⟨⟩)

theorem storedSecret_reads (n : Notifier) (secret : String) : (storedSecret n secret).Reads := by
  unfold storedSecret Notifier.sealSecret
  split
  · exact reads_pure _
  · split
    · exact fun _ _ => rfl
    · exact Reads.bind (reads_request (by rintro call ⟨⟩)) fun _ => reads_pure _

theorem storeWebhook_failsCleanly (channelId : Int) (url stored : String) (time : Instant) :
    (storeWebhook channelId url stored time).FailsCleanly := by
  unfold storeWebhook
  refine (findWebhook_reads channelId).bind_failsCleanly fun found => ?_
  cases found with
  | none => exact failsCleanly_request _
  | some old =>
      refine (noteChange_reads _).bind_failsCleanly fun _ => ?_
      exact (failsCleanly_request _).bind_succeeds fun _ => succeeds_pure _

theorem clear_failsCleanly (teamId : Int) (time : Instant) : (clear teamId time).FailsCleanly := by
  unfold clear
  refine (webhookChannel_reads teamId).bind_failsCleanly fun channel => ?_
  cases channel with
  | none => exact (reads_pure _).failsCleanly
  | some channel =>
      refine (findWebhook_reads channel.id).bind_failsCleanly fun found => ?_
      cases found with
      | none => exact (reads_pure _).failsCleanly
      | some old =>
          refine (noteChange_reads _).bind_failsCleanly fun _ => ?_
          exact (failsCleanly_request _).bind_succeeds fun _ => succeeds_report _ _ _ _ _

theorem ensureChannel_failsCleanly (teamId : Int) (time : Instant) :
    (ensureChannel teamId time).FailsCleanly := by
  unfold ensureChannel
  refine (webhookChannel_reads teamId).bind_failsCleanly fun channel => ?_
  cases channel with
  | none =>
      refine (failsCleanly_request _).bind_succeeds fun _ => ?_
      exact (succeeds_report _ _ _ _ _).bind fun _ => succeeds_pure _
  | some channel => exact (reads_pure _).failsCleanly

/-! ## What is left -/

/-- A registry to which at most a webhook channel has been added, of a team that had none. -/
def AtMostFurnished (teamId : Int) (r r' : Registry) : Prop :=
  r' = r ∨ r.home? teamId = none ∧ ∃ c : Channel, c.teamId = teamId ∧
    c.kind = Channel.webhookKind ∧ r' = { r with channels := r.channels ++ [c] }

/-- A team that has a webhook channel is not given another one. -/
theorem AtMostFurnished.eq_of_home {teamId : Int} {r r' : Registry}
    (h : AtMostFurnished teamId r r') (hHome : (r.home? teamId).isSome) : r' = r := by
  obtain hSame | ⟨hNone, -⟩ := h
  · exact hSame
  · rw [hNone] at hHome
    cases hHome

/-- A lookup of the webhook channel tells what is in the table. -/
theorem webhookChannel_found (hUnit : d.openUnit = none) {teamId : Int} {found : Option Channel}
    (hRun : d.run (webhookChannel? teamId) = (.ok found, after)) :
    found = d.registry.home? teamId ∧ d.registry.dropped = false := by
  let list : RegistryCall := .listChannels teamId false
  have hRequest : d.run (registry list) = d.perform (.registry list) := d.run_request _
  obtain ⟨e, hError, -⟩ | ⟨reply, freshUuid, hOk, hCall⟩ := Deployment.perform_call hUnit list
  · rw [show d.run (webhookChannel? teamId) = _ from
      run_bind_error (hRequest.trans (Prod.ext hError rfl))] at hRun
    cases hRun
  · rw [show d.run (webhookChannel? teamId) = _ from
      run_bind (hRequest.trans (Prod.ext hOk rfl))] at hRun
    obtain ⟨hFound, -⟩ := Prod.mk.inj hRun
    rw [Registry.run] at hCall
    split at hCall
    · cases hCall
    next hThere =>
      rw [Registry.listChannels_eq] at hCall
      obtain ⟨hReply, -⟩ := Prod.mk.inj hCall
      obtain rfl := Except.ok.inj hReply
      exact ⟨(Except.ok.inj hFound).symm, by simpa [list, RegistryCall.needsTables] using hThere⟩

/-- A webhook channel that is made for a team that has none is all that is added. -/
theorem createChannel_furnishes (hUnit : d.openUnit = none) (hThere : d.registry.dropped = false)
    {teamId : Int} (hHome : d.registry.home? teamId = none) {draft : ChannelDraft} {name : String}
    (hId : draft.id = none) (hTeam : draft.teamId = some teamId) (hName : draft.name = some name)
    (hKind : draft.kind = some Channel.webhookKind) :
    AtMostFurnished teamId d.registry (d.run (registry (.createChannel draft))).2.registry := by
  rw [show d.run (registry (.createChannel draft)) = _ from d.run_request _]
  obtain ⟨e, -, hSame⟩ | ⟨reply, freshUuid, -, hCall⟩ :=
    Deployment.perform_call hUnit (.createChannel draft)
  · exact .inl hSame
  · obtain ⟨c, hCreate, -, hTeamOf, hKindOf, -⟩ :=
      d.registry.createChannel_eq d.now freshUuid hId hTeam hName
    rw [Registry.run_eq_apply hThere, hCreate] at hCall
    exact .inr ⟨hHome, c, hTeamOf, by rw [hKindOf, hKind]; rfl, (Prod.mk.inj hCall).2.symm⟩

/-- Making sure that a team has a webhook channel adds none but that. -/
theorem ensureChannel_furnishes (hUnit : d.openUnit = none) (teamId : Int) (time : Instant) :
    AtMostFurnished teamId d.registry (d.run (ensureChannel teamId time)).2.registry := by
  have hSame := webhookChannel_reads teamId d hUnit
  have hLookedUnit := Deployment.run_openUnit_none hUnit (webhookChannel? teamId)
  rcases hLooked : d.run (webhookChannel? teamId) with ⟨e | found, looked⟩
  · rw [hLooked] at hSame
    rw [ensureChannel, run_bind_error hLooked]
    exact .inl hSame
  · rw [hLooked] at hSame hLookedUnit
    rw [ensureChannel, run_bind hLooked]
    obtain ⟨rfl, hThere⟩ := webhookChannel_found hUnit hLooked
    cases hHome : d.registry.home? teamId with
    | some c => exact .inl hSame
    | none =>
        -- What is done after the channel has been made writes to no table.
        refine Eq.mpr (congrArg (AtMostFurnished teamId d.registry) (run_bind_reads hLookedUnit
          (registry (.createChannel _)) fun c => Reads.bind (reads_request (by rintro call ⟨⟩))
            fun _ => reads_pure _)) ?_
        dsimp only at hSame hLookedUnit ⊢
        rw [← hSame] at hThere hHome ⊢
        exact createChannel_furnishes hLookedUnit hThere hHome rfl rfl rfl rfl

/-- A save that fails before its test delivery leaves at most a webhook channel of its team: its
steps fail cleanly, but the channel is there before the others. -/
theorem keep_furnishes (hUnit : d.openUnit = none) {teamId : Int} {url secret : String}
    (hFailed : d.run (keep n teamId url secret) = (.error e, after)) :
    AtMostFurnished teamId d.registry after.registry := by
  rw [keep, run_bind d.run_now] at hFailed
  rcases hEnsure : d.run (ensureChannel teamId d.now) with ⟨cause | c, housed⟩
  · have hClean := ensureChannel_failsCleanly teamId d.now d cause hUnit (by rw [hEnsure])
    rw [hEnsure] at hClean
    rw [run_bind_error hEnsure] at hFailed
    obtain ⟨-, rfl⟩ := Prod.mk.inj hFailed
    exact .inl hClean
  · have hHoused := ensureChannel_furnishes hUnit teamId d.now
    have hHousedUnit := Deployment.run_openUnit_none hUnit (ensureChannel teamId d.now)
    rw [hEnsure] at hHoused hHousedUnit
    rw [run_bind hEnsure] at hFailed
    have hClean := (storedSecret_reads n secret).bind_failsCleanly
      (fun stored => storeWebhook_failsCleanly c.id url stored d.now) housed e hHousedUnit
      (by rw [hFailed])
    rw [hFailed] at hClean
    rwa [hClean]

/-- A notifier can store the empty secret, and any other one if it has a cipher. -/
def CanStore (n : Notifier) (secret : String) : Prop := secret = "" ∨ n.cipher.isSome

instance (n : Notifier) (secret : String) : Decidable (CanStore n secret) :=
  inferInstanceAs (Decidable (_ ∨ _))

theorem not_canStore {n : Notifier} {secret : String} :
    ¬CanStore n secret ↔ n.cipher = none ∧ secret ≠ "" := by
  rw [CanStore, not_or, Option.not_isSome_iff_eq_none, and_comm]

/-- A secret can be stored unless there is no cipher for it. -/
theorem run_storedSecret_cases (n : Notifier) (secret : String) (d : Deployment) :
    (CanStore n secret ∧ ∃ stored after, d.run (storedSecret n secret) = (.ok stored, after)) ∨
      ¬CanStore n secret ∧ d.run (storedSecret n secret) = (.error .noCipher, d) := by
  unfold storedSecret Notifier.sealSecret
  by_cases hSecret : secret = ""
  · exact .inl ⟨.inl hSecret, "", d, by rw [if_pos (String.isEmpty_iff.mpr hSecret)]; rfl⟩
  · rw [if_neg (mt String.isEmpty_iff.mp hSecret)]
    cases hCipher : n.cipher with
    | none => exact .inr ⟨not_canStore.mpr ⟨hCipher, hSecret⟩, rfl⟩
    | some cipher =>
        dsimp only
        rw [if_neg (mt String.isEmpty_iff.mp hSecret)]
        exact .inl ⟨.inr (by rw [hCipher]; rfl), _, _, rfl⟩

/-- Where nothing is in the way of registry calls, a save first makes sure that the team has a webhook
channel.  Then it puts its webhook there, verified if there was one, or it fails because there is no
cipher for the secret. -/
theorem run_keep_outcomes (n : Notifier) (h : d.Quiet) (teamId : Int) (url secret : String) :
    ∃ c housed, Houses d.registry teamId c housed ∧ (c ∈ d.registry.channels ∨ c.enabled = true) ∧
      ((CanStore n secret ∧ ∃ w after, d.run (keep n teamId url secret) = (.ok w, after) ∧
          housed.Puts w after.registry ∧ w.channelId = c.id ∧ w.url = url ∧
            w.verifiedAt.isSome = (housed.webhook? c.id).isSome) ∨
        ¬CanStore n secret ∧ ∃ after,
          d.run (keep n teamId url secret) = (.error .noCipher, after) ∧ after.registry = housed) := by
  obtain ⟨c, housed, hEnsure, hHouses, hEnabled⟩ := run_ensureChannel h teamId d.now
  have hHoused := h.of_run hEnsure
  refine ⟨c, housed.registry, hHouses, hEnabled, ?_⟩
  rw [keep, run_bind d.run_now, run_bind hEnsure]
  obtain ⟨hCan, stored, sealing, hStore⟩ | ⟨hCannot, hStore⟩ :=
    run_storedSecret_cases n secret housed
  · have hSame := storedSecret_reads n secret housed hHoused.unit
    rw [hStore] at hSame
    obtain ⟨w, after, hPut, hPuts, hChannel, hUrl, -, hVerified⟩ :=
      run_storeWebhook (hHoused.of_run hStore) c.id url stored d.now
    rw [hSame] at hPuts hVerified
    exact .inl ⟨hCan, w, after, (run_bind hStore).trans hPut, hPuts, hChannel, hUrl, hVerified⟩
  · exact .inr ⟨hCannot, housed, run_bind_error hStore, rfl⟩

/-- Where nothing is in the way of registry calls, only a secret without a cipher makes a save fail
before its test delivery, and the team has a webhook channel then. -/
theorem run_keep_cases (h : d.Quiet) (teamId : Int) (url secret : String) :
    (∃ w after, d.run (keep n teamId url secret) = (.ok w, after)) ∨
      n.cipher = none ∧ secret ≠ "" ∧ ∃ after,
        d.run (keep n teamId url secret) = (.error .noCipher, after) ∧
          (after.registry.home? teamId).isSome := by
  obtain ⟨c, housed, hHouses, -, ⟨-, w, after, hOk, -⟩ | ⟨hCannot, after, hNone, rfl⟩⟩ :=
    run_keep_outcomes n h teamId url secret
  · exact .inl ⟨w, after, hOk⟩
  · obtain ⟨hCipher, hSecret⟩ := not_canStore.mp hCannot
    exact .inr ⟨hCipher, hSecret, after, hNone, by rw [hHouses.home]; rfl⟩

/-- A test delivery is announced before anything is sent. -/
theorem reach_mem_asked_sendTest (n : Notifier) (w : Webhook) (teamId : Int) (d : Deployment) :
    Request.reach .sendWebhook ∈ d.asked (sendTest n w teamId) := by
  have hReach : Request.reach .sendWebhook ∈ d.asked (request (.reach .sendWebhook)) := by
    rw [Deployment.asked_request]
    exact List.mem_singleton.mpr rfl
  rw [sendTest, Deployment.asked_bind_ok d.run_now]
  exact List.mem_append_right _ (Deployment.mem_asked_bind hReach)

/-- A permitted save that fails before its test delivery leaves the tables as they were, or it has
added the webhook channel of a team that had none.  Where nothing is in the way of registry calls it
fails because there is no cipher for the secret, and leaves the tables exactly if the team had its
channel. -/
theorem failed_save_leaves (hUnit : d.openUnit = none) (hPermitted : s.IsPermitted)
    (hFailed : d.run (s.program n) = (.error e, after))
    (hBefore : Request.reach .sendWebhook ∉ d.asked (s.program n)) :
    AtMostFurnished s.teamId d.registry after.registry ∧
      (d.Quiet → e = .noCipher ∧ n.cipher = none ∧ s.secret ≠ "" ∧
        (after.registry = d.registry ↔ (d.registry.home? s.teamId).isSome)) := by
  by_cases hUrl : s.url = ""
  · rw [Save.program, hUrl, run_save_empty n hPermitted] at hFailed
    refine ⟨.inl ?_, fun h => ?_⟩
    · have hClean := clear_failsCleanly s.teamId d.now d e hUnit (by rw [hFailed])
      rwa [hFailed] at hClean
    · obtain ⟨_, hCleared, -⟩ := run_clear h s.teamId d.now
      cases hCleared.symm.trans hFailed
  · rw [Save.program, save_eq n hPermitted hUrl] at hFailed hBefore
    rcases hKeep : d.run (keep n s.teamId s.url s.secret) with ⟨cause | w, kept⟩
    · obtain ⟨hCause, rfl⟩ := Prod.mk.inj ((run_bind_error hKeep).symm.trans hFailed)
      obtain rfl := Except.error.inj hCause
      have hMost := keep_furnishes hUnit hKeep
      refine ⟨hMost, fun h => ?_⟩
      obtain ⟨w, _, hOk⟩ | ⟨hCipher, hSecret, _, hNone, hHome⟩ :=
        run_keep_cases (n := n) h s.teamId s.url s.secret
      · cases hOk.symm.trans hKeep
      · obtain ⟨hCause, rfl⟩ := Prod.mk.inj (hNone.symm.trans hKeep)
        obtain rfl := Except.error.inj hCause
        exact ⟨rfl, hCipher, hSecret, fun hSame => hSame ▸ hHome, hMost.eq_of_home⟩
    · rw [Deployment.asked_bind_ok hKeep] at hBefore
      exact absurd (List.mem_append_right _ (reach_mem_asked_sendTest n w s.teamId kept)) hBefore

/-- Nothing is in the tables. -/
def unfurnished : Deployment := Deployment.initial ⟨10000000000000000⟩ false

/-- A deployment in which team 1 has a webhook channel. -/
def furnished : Deployment :=
  { unfurnished with registry := { Registry.empty with
      channels := [⟨1, 1, defaultChannelName, Channel.webhookKind, true, ⟨1000⟩, ⟨1000⟩⟩] } }

/-- A secret that is saved without a cipher. -/
def unsealable : Save := ⟨[1], 1, "https://hooks.example.com/a", "s3cret"⟩

/-- Whether a request announces a test delivery. -/
def announces : Request → Bool
  | .reach .sendWebhook => true
  | _ => false

/-- A team that has its webhook channel keeps its tables when there is no cipher for its secret. -/
theorem furnished_team_keeps_tables :
    (furnished.run (unsealable.program ⟨none⟩)).1 = .error .noCipher ∧
      (furnished.run (unsealable.program ⟨none⟩)).2.registry = furnished.registry := by
  have hFails : (furnished.run (unsealable.program ⟨none⟩)).1.isOk = false := by decide +kernel
  have hSilent : ∀ q ∈ furnished.asked (unsealable.program ⟨none⟩), announces q = false := by
    decide +kernel
  have hPermitted : unsealable.IsPermitted := List.mem_singleton.mpr rfl
  rcases hFailed : furnished.run (unsealable.program ⟨none⟩) with ⟨e | _, after⟩ <;>
    rw [hFailed] at hFails
  · obtain ⟨-, hTables⟩ := failed_save_leaves rfl hPermitted hFailed fun hMem => by
      cases hSilent _ hMem
    obtain ⟨rfl, -, -, hSame⟩ := hTables ⟨rfl, rfl, rfl⟩
    exact ⟨rfl, hSame.mpr (by decide +kernel)⟩
  · cases hFails

/-- Without a cipher, a save with a secret by a team that has no webhook channel fails before its
test delivery and leaves one. -/
theorem channel_left_behind :
    let p := unsealable.program ⟨none⟩
    (unfurnished.run p).1.isOk = false ∧ (∀ q ∈ unfurnished.asked p, announces q = false) ∧
      (unfurnished.run p).2.registry.webhooks = [] ∧ unfurnished.registry.channels = [] ∧
      (unfurnished.run p).2.registry.channels.map Channel.teamId = [1] := by
  decide +kernel

end Triage.Webhook.TeamSettings
