import Triage.Proofs.Webhook.Settings

/-!
# The last permitted save counts

Saves follow one another in any order, for any teams, whether or not their test deliveries arrive,
and between them everything may change but the channels and the webhooks (`History`).  One save
leaves what `save_leaves` says, so by induction each team has the webhook of its own last permitted
save (`History.settled`).  If there are no channels in the beginning, each team has at most one and
each channel exactly one webhook (`History.homely`).

The saves are made one at a time, outside units of work.  Nothing is said of two saves for one team
at the same time.
-/

namespace Triage.Webhook.TeamSettings

open Program Cipher

instance (s : Save) : Decidable s.IsPermitted := inferInstanceAs (Decidable (s.teamId ∈ s.teamIds))

/-- The last permitted save for a team. -/
def lastSave? (saves : List Save) (teamId : Int) : Option Save :=
  (saves.filter fun s => s.teamId = teamId ∧ s.IsPermitted).getLast?

/-- What a team should be shown after some saves. -/
def shownAfter (saves : List Save) (teamId : Int) : Shown :=
  ((lastSave? saves teamId).map Save.shown).getD .nothing

/-- The deployments that can be reached by some saves.  Between two saves, quiet deployments with the
same channels and webhooks may follow each other. -/
inductive History (n : Notifier) (start : Deployment) : List Save → Deployment → Prop
  | begin : History n start [] start
  | save {saves : List Save} {d : Deployment} (s : Save) (before : History n start saves d) :
      History n start (saves ++ [s]) (d.run (s.program n)).2
  | meanwhile {saves : List Save} {d d' : Deployment} (before : History n start saves d)
      (quiet : d'.Quiet) (channels : d'.registry.channels = d.registry.channels)
      (webhooks : d'.registry.webhooks = d.registry.webhooks) : History n start saves d'

/-- The deployment after some saves with nothing between them. -/
def afterSaves (n : Notifier) (d : Deployment) (saves : List Save) : Deployment :=
  saves.foldl (fun d s => (d.run (s.program n)).2) d

theorem History.afterSaves {n : Notifier} {start d : Deployment} {saves : List Save}
    (h : History n start saves d) (more : List Save) :
    History n start (saves ++ more) (afterSaves n d more) := by
  induction more generalizing saves d with
  | nil =>
      rw [List.append_nil]
      exact h
  | cons s more ih =>
      have hNext := ih (h.save s)
      rwa [List.append_assoc, List.singleton_append] at hNext

variable {cipher : SecretCipher} {start d : Deployment} {saves : List Save} {s : Save} {teamId : Int}

theorem lastSave?_append_self (hPermitted : s.IsPermitted) :
    lastSave? (saves ++ [s]) s.teamId = some s := by
  rw [lastSave?, List.filter_append, List.filter_cons_of_pos (by simpa using hPermitted),
    List.filter_nil, List.getLast?_concat]

theorem lastSave?_append_other (h : s.teamId ≠ teamId ∨ ¬s.IsPermitted) :
    lastSave? (saves ++ [s]) teamId = lastSave? saves teamId := by
  have hNeither : ¬(s.teamId = teamId ∧ s.IsPermitted) := by
    rintro ⟨hTeam, hPermitted⟩
    exact h.elim (fun hOther => hOther hTeam) fun hNot => hNot hPermitted
  rw [lastSave?, List.filter_append, List.filter_cons_of_neg (by simpa using hNeither),
    List.filter_nil, List.append_nil, lastSave?]

/-! ## The webhook of a team -/

theorem Shown.kept_congr {shown : Shown} {r r' : Registry}
    (h : r'.webhookOf? teamId = r.webhookOf? teamId) :
    shown.Kept cipher r' teamId ↔ shown.Kept cipher r teamId := by
  rw [Shown.Kept, Shown.Kept, h]

/-- How the tables stand after some saves: every team that has saved has its last save, and every
other team what it had in the beginning. -/
structure Settled (cipher : SecretCipher) (start : Registry) (saves : List Save) (r : Registry) :
    Prop where
  addressed : r.Addressed
  saved : ∀ teamId s, lastSave? saves teamId = some s → s.shown.Kept cipher r teamId
  unsaved : ∀ teamId, lastSave? saves teamId = none → r.webhookOf? teamId = start.webhookOf? teamId

theorem Settled.congr {first r r' : Registry} (h : Settled cipher first saves r)
    (hChannels : r'.channels = r.channels) (hWebhooks : r'.webhooks = r.webhooks) :
    Settled cipher first saves r' where
  addressed :=
    { channels := by
        rw [hChannels]
        exact h.addressed.channels
      webhooks := by
        rw [hWebhooks]
        exact h.addressed.webhooks }
  saved teamId s hLast :=
    (Shown.kept_congr (Registry.webhookOf?_congr hChannels hWebhooks teamId)).mpr
      (h.saved teamId s hLast)
  unsaved teamId hNone :=
    (Registry.webhookOf?_congr hChannels hWebhooks teamId).trans (h.unsaved teamId hNone)

/-- A save that is not permitted settles nothing. -/
theorem Settled.refuse {first r : Registry} (h : Settled cipher first saves r)
    (hNot : ¬s.IsPermitted) : Settled cipher first (saves ++ [s]) r where
  addressed := h.addressed
  saved teamId last hLast := by
    rw [lastSave?_append_other (.inr hNot)] at hLast
    exact h.saved teamId last hLast
  unsaved teamId hNone := by
    rw [lastSave?_append_other (.inr hNot)] at hNone
    exact h.unsaved teamId hNone

/-- A permitted save settles what its own team is shown. -/
theorem Settled.save {first r r' : Registry} (h : Settled cipher first saves r)
    (hPermitted : s.IsPermitted) (hLeaves : s.Leaves cipher r r') :
    Settled cipher first (saves ++ [s]) r' where
  addressed := hLeaves.addressed
  saved teamId last hLast := by
    by_cases hTeam : teamId = s.teamId
    · subst hTeam
      rw [lastSave?_append_self hPermitted] at hLast
      obtain rfl := Option.some.inj hLast
      exact hLeaves.kept
    · rw [lastSave?_append_other (.inl (Ne.symm hTeam))] at hLast
      exact (Shown.kept_congr (hLeaves.others teamId hTeam)).mpr (h.saved teamId last hLast)
  unsaved teamId hNone := by
    by_cases hTeam : teamId = s.teamId
    · subst hTeam
      rw [lastSave?_append_self hPermitted] at hNone
      cases hNone
    · rw [lastSave?_append_other (.inl (Ne.symm hTeam))] at hNone
      exact (hLeaves.others teamId hTeam).trans (h.unsaved teamId hNone)

namespace History

theorem quiet {n : Notifier} (h : History n start saves d) (hStart : start.Quiet) : d.Quiet := by
  induction h with
  | begin => exact hStart
  | save s before ih => exact ih.run (s.program n)
  | meanwhile before quiet channels webhooks ih => exact quiet

/-- After any saves, each team has the webhook of its last permitted save. -/
theorem settled (hKey : cipher.key.length = 32) (hStart : start.Quiet)
    (hAddressed : start.registry.Addressed) (h : History ⟨some cipher⟩ start saves d) :
    Settled cipher start.registry saves d.registry := by
  induction h with
  | begin =>
      refine ⟨hAddressed, ?_, fun _ _ => rfl⟩
      intro teamId s hLast
      cases hLast
  | save s before ih =>
      have hQuiet := before.quiet hStart
      by_cases hPermitted : s.IsPermitted
      · exact ih.save hPermitted (save_leaves hKey hQuiet ih.addressed hPermitted)
      · rw [run_save_refused _ hPermitted]
        exact ih.refuse hPermitted
  | meanwhile before quiet channels webhooks ih => exact ih.congr channels webhooks

end History

/-! ## The homes of all teams -/

/-- Every channel is the home of its team and has a webhook. -/
structure Homely (r : Registry) : Prop where
  teams : (r.channels.map Channel.teamId).Nodup
  kinds : ∀ c ∈ r.channels, c.kind = Channel.webhookKind
  furnished : r.Furnished

/-- A save gives a home only to a team that has no channel. -/
theorem Homely.save {r r' : Registry} (h : Homely r) (hLeaves : s.Leaves cipher r r') : Homely r' := by
  obtain hSame | ⟨c, hNone, hTeam, hKind, hAdded⟩ := hLeaves.channels
  · refine ⟨?_, ?_, hLeaves.furnished h.furnished⟩ <;> rw [hSame]
    · exact h.teams
    · exact h.kinds
  · refine ⟨?_, ?_, hLeaves.furnished h.furnished⟩ <;> rw [hAdded]
    · exact Registry.nodup_teams_append h.teams h.kinds (hTeam ▸ hNone)
    · intro other hOther
      rw [List.mem_append, List.mem_singleton] at hOther
      obtain hOld | rfl := hOther
      · exact h.kinds other hOld
      · exact hKind

theorem History.homely (hKey : cipher.key.length = 32) (hStart : start.Quiet)
    (hAddressed : start.registry.Addressed) (hHomely : Homely start.registry)
    (h : History ⟨some cipher⟩ start saves d) : Homely d.registry := by
  induction h with
  | begin => exact hHomely
  | save s before ih =>
      have hQuiet := before.quiet hStart
      have hSettled := before.settled hKey hStart hAddressed
      by_cases hPermitted : s.IsPermitted
      · exact ih.save (save_leaves hKey hQuiet hSettled.addressed hPermitted)
      · rw [run_save_refused _ hPermitted]
        exact ih
  | meanwhile before quiet channels webhooks ih =>
      refine ⟨?_, ?_, ?_⟩
      · rw [channels]
        exact ih.teams
      · rw [channels]
        exact ih.kinds
      · intro c hc
        rw [channels] at hc
        rw [Registry.webhook?_congr webhooks]
        exact ih.furnished c hc

/-! ## What a team is shown -/

/-- From no channels on, after any saves: every team is shown its own last permitted save, with the
secret as it was given; no team has two channels, and every channel has exactly one webhook; and a
save that is not permitted fails and leaves everything as it is. -/
theorem last_save_shown {material : String} (hCipher : SecretCipher.ofMaterial? material = some cipher)
    (hStart : start.Quiet) (hChannels : start.registry.channels = [])
    (hWebhooks : (start.registry.webhooks.map Webhook.channelId).Nodup)
    (hHistory : History ⟨some cipher⟩ start saves d) :
    (∀ teamIds teamId, teamId ∈ teamIds →
        d.run (getWithSecret ⟨some cipher⟩ teamIds teamId) = (.ok (shownAfter saves teamId), d)) ∧
      (d.registry.channels.map Channel.teamId).Nodup ∧
      (d.registry.webhooks.map Webhook.channelId).Nodup ∧
      (∀ c ∈ d.registry.channels, ∃ w ∈ d.registry.webhooks, w.channelId = c.id) ∧
      ∀ s : Save, ¬s.IsPermitted →
        d.run (s.program ⟨some cipher⟩) = (.error (.noAccessToTeam s.teamId), d) := by
  have hKey := SecretCipher.length_key hCipher
  have hAddressed : start.registry.Addressed := ⟨by simp [hChannels], hWebhooks⟩
  have hNobody : Homely start.registry :=
    ⟨by simp [hChannels], by simp [hChannels], by simp [Registry.Furnished, hChannels]⟩
  have hQuiet := hHistory.quiet hStart
  have hSettled := hHistory.settled hKey hStart hAddressed
  have hHomely := hHistory.homely hKey hStart hAddressed hNobody
  refine ⟨?_, hHomely.teams, hSettled.addressed.webhooks, ?_, ?_⟩
  · intro teamIds teamId hMember
    refine run_getWithSecret hQuiet hMember ?_
    cases hLast : lastSave? saves teamId with
    | some s =>
        have hShown : shownAfter saves teamId = s.shown := by
          rw [shownAfter, hLast]
          rfl
        rw [hShown]
        exact hSettled.saved teamId s hLast
    | none =>
        have hShown : shownAfter saves teamId = .nothing := by
          rw [shownAfter, hLast]
          rfl
        have hHome : start.registry.home? teamId = none := by
          rw [Registry.home?_eq_none]
          intro c hc
          simp [hChannels] at hc
        have hWebhook : d.registry.webhookOf? teamId = none := by
          rw [hSettled.unsaved teamId hLast, Registry.webhookOf?, hHome]
          rfl
        rw [hShown, Shown.Kept, hWebhook]
  · intro c hc
    obtain ⟨w, hFind⟩ := Option.isSome_iff_exists.mp (hHomely.furnished c hc)
    exact ⟨w, Registry.mem_of_webhook? hFind, Registry.channelId_of_webhook? hFind⟩
  · intro s hNot
    exact run_save_refused _ hNot

/-- The first save is refused its test delivery, the second one its permission; the second team is
cleared again. -/
theorem saves_of_two_teams_shown :
    let n : Notifier := ⟨some ⟨Digest.sha256 (Text.utf8 "key material")⟩⟩
    let start := { Deployment.initial ⟨0⟩ false with outcomes := [.broken "connection refused"] }
    let d := afterSaves n start
      [⟨[1], 1, "https://one.example/hook", "first"⟩, ⟨[1], 2, "https://one.example/hook", ""⟩,
        ⟨[1, 2], 2, "https://two.example/hook", ""⟩, ⟨[1], 1, "https://one.example/new", "second"⟩,
        ⟨[2], 2, "", "ignored"⟩]
    d.run (getWithSecret n [1, 2] 1) = (.ok ⟨"https://one.example/new", "second"⟩, d) ∧
      d.run (getWithSecret n [1, 2] 2) = (.ok ⟨"", ""⟩, d) ∧
      d.run (getWithSecret n [3] 3) = (.ok ⟨"", ""⟩, d) ∧
      d.run (save n [1] 2 "https://one.example/hook" "") = (.error (.noAccessToTeam 2), d) := by
  intro n start d
  have hCipher : SecretCipher.ofMaterial? "key material" =
      some ⟨Digest.sha256 (Text.utf8 "key material")⟩ := rfl
  have hStart : start.Quiet := ⟨rfl, rfl, rfl⟩
  obtain ⟨hShown, -, -, -, hRefused⟩ :=
    last_save_shown hCipher hStart rfl List.nodup_nil (History.begin.afterSaves _)
  refine ⟨hShown [1, 2] 1 (by decide), hShown [1, 2] 2 (by decide), hShown [3] 3 (by decide), ?_⟩
  exact hRefused ⟨[1], 2, "https://one.example/hook", ""⟩ (by decide)

end Triage.Webhook.TeamSettings
