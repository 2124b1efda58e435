import Triage.Proofs.Registry.AlertRows

/-!
# Webhooks of teams

The webhook of a team is that of its home, the first of its webhook channels (`home?`,
`webhookOf?`).  What the calls of the registry read and write of both: a new channel becomes the home
of a team that has none and leaves the homes of all other teams (`home?_append_self`,
`home?_append_other`); storing a webhook, as a new row or over an old one, puts it in the place of
the one of its channel and leaves those of all other channels (`createWebhook_puts`,
`updateWebhook_puts`).  The identifiers of channels and the channels of webhooks are unique, whatever
is called (`Addressed.runAll`).
-/

namespace Triage

/-- The only member of a list that is meant is found. -/
theorem find?_eq_some_of_only {p : α → Bool} {xs : List α} {x : α} (hMem : x ∈ xs) (hMeant : p x = true)
    (hOnly : ∀ y ∈ xs, p y = true → y = x) : xs.find? p = some x := by
  cases hFind : xs.find? p with
  | none => exact absurd hMeant (List.find?_eq_none.mp hFind x hMem)
  | some y =>
      have hFound : p y = true := List.find?_some hFind
      rw [hOnly y (List.mem_of_find?_eq_some hFind) hFound]

theorem ChannelDraft.complete_id {d : ChannelDraft} {id : Int} {now : Instant} {c : Channel}
    (h : d.complete id now = .ok c) : c.id = id := by
  simp only [ChannelDraft.complete, bind, Except.bind, pure, Except.pure] at h
  repeat' split at h
  all_goals cases h
  rfl

theorem ChannelDraft.onto_id {d : ChannelDraft} {row c : Channel} (h : d.onto row = .ok c) :
    c.id = row.id := by
  simp only [ChannelDraft.onto, bind, Except.bind, pure, Except.pure] at h
  repeat' split at h
  all_goals cases h
  rfl

theorem WebhookDraft.onto_channelId {d : WebhookDraft} {row w : Webhook} (h : d.onto row = .ok w) :
    w.channelId = row.channelId := by
  simp only [WebhookDraft.onto, bind, Except.bind, pure, Except.pure] at h
  repeat' split at h
  all_goals cases h
  rfl

namespace Registry

variable {r s : Registry}

/-- A webhook breaks no constraint exactly when its channel has none. -/
theorem webhookClash?_eq_none {w : Webhook} :
    r.webhookClash? w = none ↔ w.channelId ∉ r.webhooks.map Webhook.channelId := by
  simp [webhookClash?, List.mem_map]

/-- The channels of a team in the order in which they are listed. -/
def channelsOf (r : Registry) (teamId : Int) : List Channel :=
  (r.channels.filter fun c => c.teamId = teamId).mergeSort fun a b => decide (a.id ≤ b.id)

/-- The channel that stands for the webhook of a team. -/
def home? (r : Registry) (teamId : Int) : Option Channel :=
  (r.channelsOf teamId).find? fun c => c.kind = Channel.webhookKind

/-- The webhook of a channel. -/
def webhook? (r : Registry) (channelId : Int) : Option Webhook :=
  r.webhooks.find? fun w => w.channelId = channelId

/-- The webhook of a team. -/
def webhookOf? (r : Registry) (teamId : Int) : Option Webhook :=
  (r.home? teamId).bind fun c => r.webhook? c.id

/-- Channels go by their identifiers, and no channel has two webhooks. -/
structure Addressed (r : Registry) : Prop where
  channels : (r.channels.map Channel.id).Nodup
  webhooks : (r.webhooks.map Webhook.channelId).Nodup

theorem addressed_empty : Registry.empty.Addressed :=
  ⟨List.nodup_nil, List.nodup_nil⟩

/-- Whatever is called, channels keep going by their identifiers. -/
private theorem channels_addressed (now : Instant) (freshUuid : String) (call : RegistryCall)
    (h : (r.channels.map Channel.id).Nodup) :
    ((r.apply now freshUuid call).2.channels.map Channel.id).Nodup := by
  cases call with
  | createChannel d =>
      simp only [apply, changed]
      split
      next c hAdded =>
        obtain ⟨hRow, hFree, -⟩ := addedRow_eq_ok.mp hAdded
        rw [← ChannelDraft.complete_id hRow] at hFree
        exact map_key_append h hFree
      · exact h
  | updateChannel d =>
      simp only [apply, written]
      split
      next channels hUpdated =>
        rw [updatedRows_keys (fun a b ha hb => ?_) (fun a b => ChannelDraft.onto_id) hUpdated]
        · exact h
        · exact Option.some.inj ((of_decide_eq_true ha).trans (of_decide_eq_true hb).symm)
      · exact h
  | deleteChannel id =>
      simp only [apply, deleted]
      split
      · exact h.sublist (List.filter_sublist.map _)
      · exact h
  | _ =>
      rw [show _ = r.channels from apply_sameRows (t := .channels) r now freshUuid _
        (by simp [RegistryCall.writes])]
      exact h

/-- Whatever is called, no channel gets a second webhook. -/
private theorem webhooks_addressed (now : Instant) (freshUuid : String) (call : RegistryCall)
    (h : (r.webhooks.map Webhook.channelId).Nodup) :
    ((r.apply now freshUuid call).2.webhooks.map Webhook.channelId).Nodup := by
  cases call with
  | createWebhook d =>
      simp only [apply, changed]
      split
      next w hAdded =>
        obtain ⟨-, -, hClash⟩ := addedRow_eq_ok.mp hAdded
        exact map_key_append h (webhookClash?_eq_none.mp hClash)
      · exact h
  | updateWebhook d =>
      simp only [apply, written]
      split
      next webhooks hUpdated =>
        rw [updatedRows_keys (fun v w hv hw => ?_) (fun v w => WebhookDraft.onto_channelId) hUpdated]
        · exact h
        · exact Option.some.inj ((of_decide_eq_true hv).trans (of_decide_eq_true hw).symm)
      · exact h
  | deleteChannel id =>
      have hRest := h.sublist ((r.webhooks.filter_sublist (p := fun w => w.channelId != id)).map
        Webhook.channelId)
      simp only [apply, deleted]
      split
      · exact hRest
      · exact hRest
  | deleteWebhook channelId => exact h.sublist (List.filter_sublist.map _)
  | _ =>
      rw [show _ = r.webhooks from apply_sameRows (t := .webhooks) r now freshUuid _
        (by simp [RegistryCall.writes])]
      exact h

/-- Every call keeps the addresses, so the tables have them from the beginning on. -/
theorem Addressed.run (h : r.Addressed) (now : Instant) (freshUuid : String) (call : RegistryCall) :
    (r.run now freshUuid call).2.Addressed := by
  unfold Registry.run
  split
  · exact h
  · exact ⟨channels_addressed now freshUuid call h.channels,
      webhooks_addressed now freshUuid call h.webhooks⟩

theorem Addressed.runAll (h : r.Addressed) (calls : List MadeCall) : (r.runAll calls).Addressed := by
  induction calls generalizing r with
  | nil => exact h
  | cons c calls ih => exact ih (h.run c.now c.freshUuid c.call)

/-- Every channel has a webhook. -/
def Furnished (r : Registry) : Prop := ∀ c ∈ r.channels, (r.webhook? c.id).isSome

theorem home?_congr (h : s.channels = r.channels) (teamId : Int) : s.home? teamId = r.home? teamId := by
  rw [home?, home?, channelsOf, channelsOf, h]

theorem webhook?_congr (h : s.webhooks = r.webhooks) (channelId : Int) :
    s.webhook? channelId = r.webhook? channelId := by
  rw [webhook?, webhook?, h]

theorem webhookOf?_congr (hChannels : s.channels = r.channels) (hWebhooks : s.webhooks = r.webhooks)
    (teamId : Int) : s.webhookOf? teamId = r.webhookOf? teamId := by
  rw [webhookOf?, webhookOf?, home?_congr hChannels]
  exact congrArg _ (funext fun c => webhook?_congr hWebhooks c.id)

theorem mem_channelsOf {c : Channel} {teamId : Int} :
    c ∈ r.channelsOf teamId ↔ c ∈ r.channels ∧ c.teamId = teamId := by
  rw [channelsOf, (List.mergeSort_perm _ _).mem_iff, List.mem_filter, decide_eq_true_eq]

theorem home?_eq_none {teamId : Int} :
    r.home? teamId = none ↔ ∀ c ∈ r.channels, c.teamId = teamId → c.kind ≠ Channel.webhookKind := by
  simp only [home?, List.find?_eq_none, mem_channelsOf, decide_eq_true_eq, and_imp]

theorem mem_of_home? {c : Channel} {teamId : Int} (h : r.home? teamId = some c) :
    c ∈ r.channels ∧ c.teamId = teamId ∧ c.kind = Channel.webhookKind := by
  unfold home? at h
  have hKind := List.find?_some h
  obtain ⟨hMem, hTeam⟩ := mem_channelsOf.mp (List.mem_of_find?_eq_some h)
  exact ⟨hMem, hTeam, of_decide_eq_true hKind⟩

/-- A new webhook channel is the home of its team, if the team had none. -/
theorem home?_append_self {c : Channel} (hNone : r.home? c.teamId = none)
    (hKind : c.kind = Channel.webhookKind) (hChannels : s.channels = r.channels ++ [c]) :
    s.home? c.teamId = some c := by
  have hMem : c ∈ s.channelsOf c.teamId := by
    rw [mem_channelsOf, hChannels]
    exact ⟨List.mem_append_right _ (List.mem_singleton_self c), rfl⟩
  refine find?_eq_some_of_only hMem (decide_eq_true hKind) ?_
  intro other hOther hOtherKind
  rw [mem_channelsOf, hChannels, List.mem_append, List.mem_singleton] at hOther
  obtain ⟨hOld | rfl, hTeam⟩ := hOther
  · exact absurd (of_decide_eq_true hOtherKind) (home?_eq_none.mp hNone other hOld hTeam)
  · rfl

/-- A new channel is not the home of another team. -/
theorem home?_append_other {c : Channel} {teamId : Int} (hOther : c.teamId ≠ teamId)
    (hChannels : s.channels = r.channels ++ [c]) : s.home? teamId = r.home? teamId := by
  rw [home?, home?, channelsOf, channelsOf, hChannels, List.filter_append,
    List.filter_cons_of_neg (by simpa using hOther), List.filter_nil, List.append_nil]

/-- Where all channels are webhook channels, one for a team that has no home is its only one. -/
theorem nodup_teams_append {c : Channel} (hTeams : (r.channels.map Channel.teamId).Nodup)
    (hKinds : ∀ c ∈ r.channels, c.kind = Channel.webhookKind) (hNone : r.home? c.teamId = none) :
    ((r.channels ++ [c]).map Channel.teamId).Nodup := by
  refine map_key_append hTeams fun hMem => ?_
  obtain ⟨old, hOld, hSame⟩ := List.mem_map.mp hMem
  exact home?_eq_none.mp hNone old hOld hSame (hKinds old hOld)

/-- Where all channels are webhook channels and no team has two of them, each is the home of its team.
-/
theorem home?_of_mem {c : Channel} (hTeams : (r.channels.map Channel.teamId).Nodup)
    (hKinds : ∀ c ∈ r.channels, c.kind = Channel.webhookKind) (hMem : c ∈ r.channels) :
    r.home? c.teamId = some c := by
  refine find?_eq_some_of_only (mem_channelsOf.mpr ⟨hMem, rfl⟩) (decide_eq_true (hKinds c hMem)) ?_
  intro other hOther _
  obtain ⟨hMemOther, hSame⟩ := mem_channelsOf.mp hOther
  exact eq_of_find?_key hTeams (find?_key_eq_some hTeams hMem) hMemOther hSame

theorem mem_of_webhook? {w : Webhook} {channelId : Int} (h : r.webhook? channelId = some w) :
    w ∈ r.webhooks :=
  List.mem_of_find?_eq_some h

theorem channelId_of_webhook? {w : Webhook} {channelId : Int} (h : r.webhook? channelId = some w) :
    w.channelId = channelId := by
  unfold webhook? at h
  have hMeant := List.find?_some h
  exact of_decide_eq_true hMeant

theorem webhook?_self {w : Webhook} {channelId : Int} (h : r.webhook? channelId = some w) :
    r.webhook? w.channelId = some w := by
  rw [channelId_of_webhook? h]
  exact h

/-- Distinct teams have distinct homes. -/
theorem home?_id_ne (hAddressed : r.Addressed) {c other : Channel} {teamId otherId : Int}
    (hTeams : otherId ≠ teamId) (hHome : r.home? teamId = some c)
    (hOther : r.home? otherId = some other) : other.id ≠ c.id := by
  intro hSame
  obtain ⟨hMem, hTeam, -⟩ := mem_of_home? hHome
  obtain ⟨hMemOther, hTeamOther, -⟩ := mem_of_home? hOther
  have hEq : other = c := eq_of_find?_key hAddressed.channels
    (find?_key_eq_some hAddressed.channels hMem) hMemOther hSame
  exact hTeams (by rw [← hTeamOther, ← hTeam, hEq])

/-- The listing of the channels of a team. -/
theorem listChannels_eq (r : Registry) (now : Instant) (freshUuid : String) (teamId : Int) :
    r.apply now freshUuid (.listChannels teamId false) = (.ok (r.channelsOf teamId), r) := by
  simp [apply, channelsOf]

theorem getWebhook_found {channelId : Int} {w : Webhook} (h : r.webhook? channelId = some w)
    (now : Instant) (freshUuid : String) :
    r.apply now freshUuid (.getWebhook (some channelId)) = (.ok w, r) := by
  have hFind : r.webhooks.find? (fun v => decide (some v.channelId = some channelId)) = some w := by
    simpa [webhook?] using h
  have hRow : foundRow (fun v => decide (some v.channelId = some channelId))
      (.webhook (some channelId)) r.webhooks = .ok w := by
    simp only [foundRow, hFind]
  exact congrArg (·, r) hRow

theorem getWebhook_missing {channelId : Int} (h : r.webhook? channelId = none)
    (now : Instant) (freshUuid : String) :
    r.apply now freshUuid (.getWebhook (some channelId)) =
      (.error (.notFound (.webhook (some channelId))), r) := by
  have hFind : r.webhooks.find? (fun v => decide (some v.channelId = some channelId)) = none := by
    simpa [webhook?] using h
  have hRow : foundRow (fun v => decide (some v.channelId = some channelId))
      (.webhook (some channelId)) r.webhooks = .error (.notFound (.webhook (some channelId))) := by
    simp only [foundRow, hFind]
  exact congrArg (·, r) hRow

/-- A webhook channel is made under a free identifier. -/
theorem createChannel_eq (r : Registry) (now : Instant) (freshUuid : String) {d : ChannelDraft}
    {teamId : Int} {name : String} (hId : d.id = none) (hTeam : d.teamId = some teamId)
    (hName : d.name = some name) :
    ∃ c : Channel, r.apply now freshUuid (.createChannel d) =
        (.ok c, { r with channels := r.channels ++ [c] }) ∧
      c.id ∉ r.channels.map Channel.id ∧ c.teamId = teamId ∧
        c.kind = d.kind.getD Channel.webhookKind ∧ c.enabled = d.enabled.getD true := by
  obtain ⟨c, hComplete, hFields⟩ : ∃ c, d.complete (nextId (r.channels.map Channel.id)) now = .ok c ∧
      c.id = nextId (r.channels.map Channel.id) ∧ c.teamId = teamId ∧
        c.kind = d.kind.getD Channel.webhookKind ∧ c.enabled = d.enabled.getD true := by
    simp only [ChannelDraft.complete, hTeam, hName]
    exact ⟨_, rfl, rfl, rfl, rfl, rfl⟩
  obtain ⟨hCId, hCTeam, hCKind, hCEnabled⟩ := hFields
  have hAdded : addedRow (RegistryCall.operation (.createChannel d)) "notification_channels" d.id
      (r.channels.map Channel.id) (d.complete · now) (fun _ => none) = .ok c := by
    rw [addedRow_eq_ok, hId]
    exact ⟨hComplete, nextId_notMem _, rfl⟩
  refine ⟨c, changed_ok hAdded _, ?_, hCTeam, hCKind, hCEnabled⟩
  rw [hCId]
  exact nextId_notMem _

/-- A registry after a webhook has been put in the place of the one of its channel. -/
structure Puts (r : Registry) (w : Webhook) (s : Registry) : Prop where
  channels : s.channels = r.channels
  placed : s.webhook? w.channelId = some w
  others : ∀ channelId, channelId ≠ w.channelId → s.webhook? channelId = r.webhook? channelId
  keys : (r.webhooks.map Webhook.channelId).Nodup → (s.webhooks.map Webhook.channelId).Nodup

/-- A webhook is added to a channel that has none. -/
theorem createWebhook_puts (r : Registry) (now : Instant) (freshUuid : String) {d : WebhookDraft}
    {channelId : Int} {url : String} (hFree : r.webhook? channelId = none) (hId : d.id = none)
    (hChannel : d.channelId = some channelId) (hUrl : d.url = some url) :
    ∃ (w : Webhook) (s : Registry),
      r.apply now freshUuid (.createWebhook d) = (.ok w, s) ∧ r.Puts w s ∧
      w.channelId = channelId ∧ w.url = url ∧ w.sealedSecret = d.sealedSecret ∧
        w.verifiedAt = d.verifiedAt := by
  obtain ⟨w, hComplete, hWChannel, hWUrl, hWSecret, hWVerified⟩ :
      ∃ w, d.complete (nextId (r.webhooks.map Webhook.id)) now = .ok w ∧ w.channelId = channelId ∧
        w.url = url ∧ w.sealedSecret = d.sealedSecret ∧ w.verifiedAt = d.verifiedAt := by
    simp only [WebhookDraft.complete, hChannel, hUrl]
    exact ⟨_, rfl, rfl, rfl, rfl, rfl⟩
  have hUntaken : w.channelId ∉ r.webhooks.map Webhook.channelId := by
    rw [hWChannel, List.mem_map]
    rintro ⟨v, hv, hSame⟩
    exact absurd hSame (by simpa using List.find?_eq_none.mp hFree v hv)
  have hClash := webhookClash?_eq_none.mpr hUntaken
  have hAdded : addedRow (RegistryCall.operation (.createWebhook d)) "webhook_configs" d.id
      (r.webhooks.map Webhook.id) (d.complete · now) r.webhookClash? = .ok w := by
    rw [addedRow_eq_ok, hId]
    exact ⟨hComplete, nextId_notMem _, hClash⟩
  refine ⟨w, { r with webhooks := r.webhooks ++ [w] }, changed_ok hAdded _, ?_, hWChannel, hWUrl,
    hWSecret, hWVerified⟩
  constructor
  · rfl
  · rw [webhook?, List.find?_append, hWChannel]
    have hBefore : r.webhooks.find? (fun v => decide (v.channelId = channelId)) = none := hFree
    rw [hBefore, Option.none_or, List.find?_cons_of_pos (by simpa using hWChannel)]
  · intro other hOther
    rw [webhook?, List.find?_append, List.find?_cons_of_neg (by simpa using hOther.symm),
      List.find?_nil, Option.or_none]
    rfl
  · intro hKeys
    exact map_key_append hKeys hUntaken

/-- A webhook is written over the one of its channel. -/
theorem updateWebhook_puts (r : Registry) (now : Instant) (freshUuid : String) {old w : Webhook}
    (hOld : r.webhook? w.channelId = some old) (hOnto : w.draft.onto old = .ok w) :
    ∃ s, r.apply now freshUuid (.updateWebhook w.draft) = (.ok (), s) ∧ r.Puts w s := by
  have hMeant : r.webhooks.find? (fun v => decide (some v.channelId = w.draft.channelId)) =
      some old := by
    simpa [Webhook.draft, webhook?] using hOld
  have hUpdated : updatedRows (RegistryCall.operation (.updateWebhook w.draft))
      (fun v => decide (some v.channelId = w.draft.channelId)) w.draft.onto
      (.webhook w.draft.channelId) r.webhooks =
        .ok (r.webhooks.map fun v => if v.channelId = w.channelId then w else v) := by
    refine updatedRows_eq_ok.mpr ⟨old, w, hMeant, hOnto, ?_⟩
    simp [Webhook.draft]
  have hRow : r.webhooks.find? (fun v => decide (v.channelId = w.channelId)) = some old := hOld
  have hFind := find?_key_update hRow
  refine ⟨_, written_ok hUpdated _, ?_⟩
  constructor
  · rfl
  · exact (hFind w.channelId).trans (if_pos rfl)
  · intro other hOther
    exact (hFind other).trans (if_neg hOther)
  · intro hKeys
    have hSame := updatedRows_keys (fun u v hu hv => ?_) (fun u v => WebhookDraft.onto_channelId)
      hUpdated
    · exact hSame ▸ hKeys
    · exact Option.some.inj ((of_decide_eq_true hu).trans (of_decide_eq_true hv).symm)

namespace Puts

variable {w : Webhook} {c : Channel} {teamId otherId : Int}

theorem addressed (h : r.Puts w s) (hAddressed : r.Addressed) : s.Addressed where
  channels := by
    rw [h.channels]
    exact hAddressed.channels
  webhooks := h.keys hAddressed.webhooks

/-- If all channels but the one of the webhook have theirs, then all channels have one. -/
theorem furnished (h : r.Puts w s)
    (hOthers : ∀ c ∈ r.channels, c.id ≠ w.channelId → (r.webhook? c.id).isSome) : s.Furnished := by
  intro c hc
  rw [h.channels] at hc
  by_cases hId : c.id = w.channelId
  · rw [hId, h.placed]
    rfl
  · rw [h.others c.id hId]
    exact hOthers c hc hId

/-- A webhook that is put at the home of a team is the webhook of this team. -/
theorem webhookOf?_self (h : r.Puts w s) (hHome : r.home? teamId = some c)
    (hId : w.channelId = c.id) : s.webhookOf? teamId = some w := by
  rw [webhookOf?, home?_congr h.channels, hHome, Option.bind_some, ← hId]
  exact h.placed

/-- A webhook that is put at the home of a team changes the webhook of no other team. -/
theorem webhookOf?_other (h : r.Puts w s) (hAddressed : r.Addressed)
    (hHome : r.home? teamId = some c) (hId : w.channelId = c.id) (hTeams : otherId ≠ teamId) :
    s.webhookOf? otherId = r.webhookOf? otherId := by
  rw [webhookOf?, webhookOf?, home?_congr h.channels]
  cases hOther : r.home? otherId with
  | none => rfl
  | some other =>
      have hNe : other.id ≠ w.channelId := by
        rw [hId]
        exact home?_id_ne hAddressed hTeams hHome hOther
      exact h.others other.id hNe

end Puts

end Registry
end Triage
