import Triage.Proofs.Webhook.FailedSaves
import Triage.Proofs.Webhook.SaveHistory

/-!
# How the webhooks of teams stand

From a beginning without channels, it is told by the saves of a team alone how its webhook stands, with
a cipher and without: its address is the last one that was stored, and it is verified once two
addresses have been stored (`footing`).  Clearing counts as storing the empty address, but leaves a
webhook as verified as it was.  One save changes how the webhook of its own team stands
(`Stands.after_save`), so this holds after all of them (`History.stands`).
-/

namespace Triage.Webhook.TeamSettings

open Program

/-! ## How a webhook stands -/

/-- How a webhook stands: its address, and whether it is verified. -/
structure Footing where
  url : String
  verified : Bool
deriving DecidableEq, Repr

/-- How a row stands. -/
def Footing.ofWebhook (w : Webhook) : Footing := ⟨w.url, w.verifiedAt.isSome⟩

/-- How the webhook of a team stands after one more save. -/
def Footing.save (url : String) : Option Footing → Option Footing
  | none => if url = "" then none else some ⟨url, false⟩
  | some old => some (if url = "" then ⟨"", old.verified⟩ else ⟨url, true⟩)

/-- How many of some saved addresses are not empty. -/
def addressCount (urls : List String) : Nat := urls.countP (· ≠ "")

theorem addressCount_append (urls : List String) (url : String) :
    addressCount (urls ++ [url]) = addressCount urls + if url = "" then 0 else 1 := by
  rw [addressCount, List.countP_append, addressCount]
  split
  next hUrl => simp [hUrl]
  next hUrl => simp [hUrl]

/-- How the webhook of a team stands after addresses were saved, the empty one for clearing. -/
def Footing.ofUrls (urls : List String) : Option Footing :=
  if addressCount urls = 0 then none
  else some ⟨urls.getLast?.getD "", decide (2 ≤ addressCount urls)⟩

theorem Footing.ofUrls_append (urls : List String) (url : String) :
    ofUrls (urls ++ [url]) = save url (ofUrls urls) := by
  rw [ofUrls, ofUrls, addressCount_append]
  by_cases hUrl : url = ""
  · rw [if_pos hUrl, Nat.add_zero]
    split
    · simp [save, hUrl]
    · simp [save, hUrl]
  · rw [if_neg hUrl, if_neg (Nat.succ_ne_zero _)]
    split
    next hNone => simp [save, hUrl, hNone]
    next hSome =>
      have hTwo : 2 ≤ addressCount urls + 1 := by omega
      simp [save, hUrl, hTwo]

/-- A save that changes what is stored for its team: it is permitted, and its secret can be stored. -/
def Save.Takes (s : Save) (n : Notifier) : Prop :=
  s.IsPermitted ∧ (s.url = "" ∨ CanStore n s.secret)

instance (s : Save) (n : Notifier) : Decidable (s.Takes n) :=
  inferInstanceAs (Decidable (_ ∧ _))

/-- The addresses that were stored for a team, the empty one for clearing. -/
def storedUrls (n : Notifier) (saves : List Save) (teamId : Int) : List String :=
  (saves.filter fun s => s.teamId = teamId ∧ s.Takes n).map Save.url

/-- How the webhook of a team stands after some saves. -/
def footing (n : Notifier) (saves : List Save) (teamId : Int) : Option Footing :=
  Footing.ofUrls (storedUrls n saves teamId)

/-- A save changes how the webhook of its own team stands, and only if it takes. -/
theorem footing_append (n : Notifier) (saves : List Save) (s : Save) :
    footing n (saves ++ [s]) =
      if s.Takes n then
        Function.update (footing n saves) s.teamId (Footing.save s.url (footing n saves s.teamId))
      else footing n saves := by
  funext teamId
  by_cases hTakes : s.Takes n
  · rw [if_pos hTakes]
    by_cases hTeam : teamId = s.teamId
    · subst hTeam
      rw [Function.update_self, footing, footing, ← Footing.ofUrls_append]
      simp [storedUrls, hTakes]
    · rw [Function.update_of_ne hTeam]
      simp [footing, storedUrls, Ne.symm hTeam]
  · rw [if_neg hTakes]
    simp [footing, storedUrls, hTakes]

/-! ## What the tables hold -/

/-- Tables in which the webhooks of all teams stand in given ways.  Every channel is the only one of its
team and is notified, a webhook without an address has no secret, and there is no webhook without a
channel. -/
structure Stands (standing : Int → Option Footing) (r : Registry) : Prop where
  addressed : r.Addressed
  teams : (r.channels.map Channel.teamId).Nodup
  kinds : ∀ c ∈ r.channels, c.kind = Channel.webhookKind
  enabled : ∀ c ∈ r.channels, c.enabled = true
  housed : ∀ channelId ∉ r.channels.map Channel.id, r.webhook? channelId = none
  bare : ∀ channelId w, r.webhook? channelId = some w → w.url = "" → w.sealedSecret.getD "" = ""
  footing : ∀ teamId, (r.webhookOf? teamId).map .ofWebhook = standing teamId

variable {standing : Int → Option Footing} {d : Deployment} {n : Notifier} {r s : Registry}
  {c : Channel} {w : Webhook} {teamId : Int}

namespace Stands

theorem congr (h : Stands standing r) (hChannels : s.channels = r.channels)
    (hWebhooks : s.webhooks = r.webhooks) : Stands standing s := by
  refine ⟨⟨?_, ?_⟩, ?_, ?_, ?_, fun channelId => ?_, fun channelId => ?_, fun teamId => ?_⟩
  · exact hChannels ▸ h.addressed.channels
  · exact hWebhooks ▸ h.addressed.webhooks
  · exact hChannels ▸ h.teams
  · exact hChannels ▸ h.kinds
  · exact hChannels ▸ h.enabled
  · rw [hChannels, Registry.webhook?_congr hWebhooks]
    exact h.housed channelId
  · rw [Registry.webhook?_congr hWebhooks]
    exact h.bare channelId
  · rw [Registry.webhookOf?_congr hChannels hWebhooks]
    exact h.footing teamId

/-- Making sure that a team has a home changes no webhook. -/
theorem house (h : Stands standing r) (hHouses : Houses r teamId c s)
    (hEnabled : c ∈ r.channels ∨ c.enabled = true) : Stands standing s := by
  obtain hSame | ⟨hNone, hFree, hTeam, hKind, hAdded⟩ := hHouses.channels
  · exact h.congr hSame hHouses.webhooks
  have hMem : ∀ other, other ∈ s.channels ↔ other ∈ r.channels ∨ other = c := fun other => by
    rw [hAdded, List.mem_append, List.mem_singleton]
  have hNew : r.webhook? c.id = none := h.housed c.id hFree
  refine ⟨hHouses.addressed h.addressed, ?_, fun other hOther => ?_, fun other hOther => ?_,
    fun channelId hOther => ?_, fun channelId => ?_, fun otherId => ?_⟩
  · rw [hAdded]
    exact Registry.nodup_teams_append h.teams h.kinds (hTeam ▸ hNone)
  · obtain hOld | rfl := (hMem other).mp hOther
    · exact h.kinds other hOld
    · exact hKind
  · obtain hOld | rfl := (hMem other).mp hOther
    · exact h.enabled other hOld
    · exact hEnabled.elim (h.enabled other) fun hOn => hOn
  · rw [Registry.webhook?_congr hHouses.webhooks]
    rw [hAdded, List.map_append, List.mem_append] at hOther
    exact h.housed channelId fun hIn => hOther (.inl hIn)
  · rw [Registry.webhook?_congr hHouses.webhooks]
    exact h.bare channelId
  · rw [← h.footing otherId]
    by_cases hOther : otherId = teamId
    · subst hOther
      rw [Registry.webhookOf?, hHouses.home, Registry.webhookOf?, hNone, Option.bind_some,
        Registry.webhook?_congr hHouses.webhooks, hNew]
      rfl
    · rw [hHouses.webhookOf?_other hOther]

/-- Putting a webhook at the home of a team changes how the webhook of this team stands. -/
theorem put (h : Stands standing r) (hHome : r.home? teamId = some c) (hPuts : r.Puts w s)
    (hId : w.channelId = c.id) (hBare : w.url = "" → w.sealedSecret.getD "" = "") :
    Stands (Function.update standing teamId (some (.ofWebhook w))) s := by
  have hHomeId : w.channelId ∈ r.channels.map Channel.id :=
    List.mem_map.mpr ⟨c, (Registry.mem_of_home? hHome).1, hId.symm⟩
  refine ⟨hPuts.addressed h.addressed, ?_, ?_, ?_, fun channelId hOther => ?_, fun channelId v hv => ?_,
    fun otherId => ?_⟩
  · exact hPuts.channels ▸ h.teams
  · exact hPuts.channels ▸ h.kinds
  · exact hPuts.channels ▸ h.enabled
  · rw [hPuts.channels] at hOther
    rw [hPuts.others channelId fun hSame => hOther (hSame ▸ hHomeId)]
    exact h.housed channelId hOther
  · by_cases hSame : channelId = w.channelId
    · rw [hSame, hPuts.placed] at hv
      exact Option.some.inj hv ▸ hBare
    · rw [hPuts.others channelId hSame] at hv
      exact h.bare channelId v hv
  · by_cases hOther : otherId = teamId
    · subst hOther
      rw [hPuts.webhookOf?_self hHome hId, Function.update_self]
      rfl
    · rw [hPuts.webhookOf?_other h.addressed hHome hId hOther, Function.update_of_ne hOther]
      exact h.footing otherId

/-- How the webhook at the home of a team stands. -/
theorem at_home (h : Stands standing r) (hHome : r.home? teamId = some c) :
    (r.webhook? c.id).map .ofWebhook = standing teamId := by
  rw [← h.footing teamId, Registry.webhookOf?, hHome]
  rfl

end Stands

/-! ## What saves leave -/

/-- Clearing the webhook of a team leaves it verified if it was. -/
theorem Stands.after_clear (h : Stands standing d.registry) (hQuiet : d.Quiet) (time : Instant) :
    Stands (Function.update standing teamId (Footing.save "" (standing teamId)))
      (d.run (clear teamId time)).2.registry := by
  obtain ⟨after, hRun, ⟨hNone, rfl⟩ | ⟨c, w, hHome, hPuts, hId, hUrl, hBare, old, hFind, hKept⟩⟩ :=
    run_clear hQuiet teamId time
  · have hStanding := h.footing teamId
    rw [hNone] at hStanding
    have hSame : Footing.save "" (standing teamId) = standing teamId := by
      rw [← hStanding]
      rfl
    rw [hRun, hSame, Function.update_eq_self]
    exact h
  · have hStanding := h.at_home hHome
    rw [hFind] at hStanding
    have hCleared : Footing.save "" (standing teamId) = some (.ofWebhook w) := by
      rw [← hStanding, Footing.ofWebhook, hUrl, hKept]
      rfl
    rw [hRun, hCleared]
    refine h.put hHome hPuts hId fun _ => ?_
    rw [hBare]
    rfl

/-- What is kept of a save of an address before its test delivery: the webhook, if the secret can be
stored, which is verified if there was one. -/
theorem Stands.after_keep (h : Stands standing d.registry) (hQuiet : d.Quiet) (n : Notifier)
    {url : String} (hUrl : url ≠ "") (secret : String) :
    Stands (if CanStore n secret then
      Function.update standing teamId (Footing.save url (standing teamId)) else standing)
        (d.run (keep n teamId url secret)).2.registry := by
  obtain ⟨c, housed, hHouses, hEnabled, ⟨hCan, w, after, hKeep, hPuts, hId, hAddress, hVerified⟩ |
    ⟨hCannot, after, hKeep, rfl⟩⟩ := run_keep_outcomes n hQuiet teamId url secret
  · have hHoused := h.house hHouses hEnabled
    have hSaved : Footing.save url (standing teamId) = some (.ofWebhook w) := by
      rw [← hHoused.at_home hHouses.home, Footing.ofWebhook, hVerified, hAddress]
      cases housed.webhook? c.id with
      | none => simp [Footing.save, hUrl]
      | some old => simp [Footing.save, hUrl]
    rw [if_pos hCan, hKeep, hSaved]
    exact hHoused.put hHouses.home hPuts hId fun hEmpty => absurd (hAddress.symm.trans hEmpty) hUrl
  · rw [if_neg hCannot, hKeep]
    exact h.house hHouses hEnabled

/-- A save changes how the webhook of its own team stands if it takes, and nothing else. -/
theorem Stands.after_save (h : Stands standing d.registry) (hQuiet : d.Quiet) (n : Notifier)
    (s : Save) : Stands (if s.Takes n then
      Function.update standing s.teamId (Footing.save s.url (standing s.teamId)) else standing)
        (d.run (s.program n)).2.registry := by
  by_cases hPermitted : s.IsPermitted
  case neg =>
    rw [if_neg fun hTakes => hPermitted hTakes.1, run_save_refused n hPermitted]
    exact h
  by_cases hUrl : s.url = ""
  · rw [if_pos ⟨hPermitted, .inl hUrl⟩, Save.program, hUrl, run_save_empty n hPermitted]
    exact h.after_clear hQuiet d.now
  · -- The test delivery at the end leaves the tables alone.
    have hTables : (d.run (s.program n)).2.registry =
        (d.run (keep n s.teamId s.url s.secret)).2.registry := by
      rw [Save.program, save_eq n hPermitted hUrl]
      exact run_bind_reads hQuiet.unit _ fun w d hUnit =>
        Notifier.registry_run (sendTest_asks n w s.teamId) hUnit
    have hTakes : s.Takes n ↔ CanStore n s.secret :=
      ⟨fun hTakes => hTakes.2.resolve_left hUrl, fun hCan => ⟨hPermitted, .inr hCan⟩⟩
    rw [hTables]
    simp only [hTakes]
    exact h.after_keep hQuiet n hUrl s.secret

/-- After any saves from a beginning without channels and webhooks, it is told by the saves how the
webhook of each team stands. -/
theorem History.stands {start : Deployment} {saves : List Save} (hStart : start.Quiet)
    (hChannels : start.registry.channels = []) (hWebhooks : start.registry.webhooks = [])
    (h : History n start saves d) : Stands (footing n saves) d.registry := by
  induction h with
  | begin =>
      have hNone : ∀ channelId, start.registry.webhook? channelId = none := fun channelId => by
        rw [Registry.webhook?, hWebhooks]
        rfl
      refine ⟨⟨by simp [hChannels], by simp [hWebhooks]⟩, by simp [hChannels], by simp [hChannels],
        by simp [hChannels], fun channelId _ => hNone channelId, fun channelId w hFind => ?_,
        fun teamId => ?_⟩
      · rw [hNone] at hFind
        cases hFind
      · rw [Registry.webhookOf?]
        cases start.registry.home? teamId with
        | none => rfl
        | some c => simp [hNone, footing, storedUrls, Footing.ofUrls, addressCount]
  | save s before ih =>
      rw [footing_append]
      exact ih.after_save (before.quiet hStart) n s
  | meanwhile before quiet channels webhooks ih => exact ih.congr channels webhooks

end Triage.Webhook.TeamSettings
