import Triage.Proofs.Alert.Posting
import Triage.Proofs.Webhook.Footing

/-!
# Webhooks that were cleared

Saves, test deliveries and transitions of alerts follow one another, from a beginning without channels
(`Traffic`).  A save posts to the address that it stores, and a test looks at the address first, but a
transition only asks whether the webhook is verified, and clearing leaves it so.  So a transition is
posted to the empty address exactly if its team has cleared its webhook after two addresses had been
stored, and nothing else ever is (`posted_nowhere_iff`).

Registry calls do not fail here, and the acts are done one after the other.  Whether a post arrives
does not matter.
-/

namespace Triage.Webhook.TeamSettings

open Program

/-! ## Saves, tests and transitions -/

/-- What can be done about the webhooks of teams and with them: a save, a test delivery, and a
transition of an alert by a worker. -/
inductive Act where
  | save (s : Save)
  | test (teamIds : List Int) (teamId : Int)
  | transition (w : Worker) (a : Alert) (kind : String)

def Act.program (n : Notifier) : Act → Program Unit
  | .save s => s.program n
  | .test teamIds teamId => TeamSettings.test n teamIds teamId
  | .transition w a kind => do
    let _ ← w.transition a kind

/-- The saves among some acts. -/
def savesOf (acts : List Act) : List Save :=
  acts.filterMap fun
    | .save s => some s
    | _ => none

/-- The deployments that can be reached by some acts, one after the other.  Between two acts, quiet
deployments with the same channels and webhooks may follow each other. -/
inductive Traffic (n : Notifier) (start : Deployment) : List Act → Deployment → Prop
  | begin : Traffic n start [] start
  | act {acts : List Act} {d : Deployment} (x : Act) (before : Traffic n start acts d) :
      Traffic n start (acts ++ [x]) (d.run (x.program n)).2
  | meanwhile {acts : List Act} {d d' : Deployment} (before : Traffic n start acts d)
      (quiet : d'.Quiet) (channels : d'.registry.channels = d.registry.channels)
      (webhooks : d'.registry.webhooks = d.registry.webhooks) : Traffic n start acts d'

variable {n : Notifier} {start d : Deployment} {acts : List Act}

/-- The deployment after some acts with nothing between them. -/
def afterActs (n : Notifier) (d : Deployment) (acts : List Act) : Deployment :=
  acts.foldl (fun d x => (d.run (x.program n)).2) d

theorem Traffic.afterActs (h : Traffic n start acts d) (more : List Act) :
    Traffic n start (acts ++ more) (afterActs n d more) := by
  induction more generalizing acts d with
  | nil =>
      rw [List.append_nil]
      exact h
  | cons x more ih =>
      have hNext := ih (h.act x)
      rwa [List.append_assoc, List.singleton_append] at hNext

theorem Act.run_transition (n : Notifier) (d : Deployment) (w : Worker) (a : Alert) (kind : String) :
    (d.run ((Act.transition w a kind).program n)).2 = (d.run (w.transition a kind)).2 := by
  rcases hRun : d.run (w.transition a kind) with ⟨e | b, after⟩
  · exact congrArg Prod.snd (run_bind_error hRun)
  · exact congrArg Prod.snd (run_bind hRun)

theorem test_reads (n : Notifier) (teamIds : List Int) (teamId : Int) :
    (TeamSettings.test n teamIds teamId).Reads := by
  have hGet : (get teamIds teamId).Reads := by
    unfold get
    split
    · exact fun _ _ => rfl
    · refine (webhookChannel_reads teamId).bind fun found => ?_
      cases found with
      | none => exact fun _ _ => rfl
      | some channel => exact reads_request (by rintro call ⟨⟩; rfl)
  refine hGet.bind fun w => ?_
  split
  · exact fun _ _ => rfl
  · exact fun d hUnit => Notifier.registry_run (sendTest_asks n w teamId) hUnit

/-- Tests and transitions belong to what may be between two saves. -/
theorem Traffic.history (hStart : start.Quiet) (h : Traffic n start acts d) :
    History n start (savesOf acts) d := by
  induction h with
  | begin => exact .begin
  | act x before ih =>
      have hQuiet := ih.quiet hStart
      rw [savesOf, List.filterMap_append]
      cases x with
      | save s => exact ih.save s
      | test teamIds teamId =>
          have hSame := test_reads n teamIds teamId _ hQuiet.unit
          refine (List.append_nil _).symm ▸ ih.meanwhile (hQuiet.run _) ?_ ?_
          · exact congrArg Registry.channels hSame
          · exact congrArg Registry.webhooks hSame
      | transition w a kind =>
          obtain ⟨hChannels, hWebhooks⟩ := Worker.run_transition_keeps hQuiet w a kind
          rw [Act.run_transition]
          exact (List.append_nil _).symm ▸ ih.meanwhile (hQuiet.run _) hChannels hWebhooks
  | meanwhile before quiet channels webhooks ih => exact ih.meanwhile quiet channels webhooks

/-! ## What is posted -/

variable {standing : Int → Option Footing} {c : Channel} {w : Webhook} {teamId : Int}

/-- A test delivery to a webhook goes to its address. -/
theorem url_of_posted_sendTest (h : d.Quiet) {p : Post}
    (hPosted : p ∈ d.posted (sendTest n w teamId)) : p.url = w.url := by
  have hEq : d.posted (sendTest n w teamId) = (n.postOf? w (testPayload teamId d.now)).toList :=
    (Deployment.posted_silent_bind (silent_request rfl) d.run_now).trans (posted_sendWebhook_eq h ..)
  rw [hEq] at hPosted
  exact Notifier.url_of_postOf? (Option.mem_toList.mp hPosted)

theorem posted_save_refused (n : Notifier) {s : Save} (h : ¬s.IsPermitted) :
    d.posted (s.program n) = [] := by
  have hContains : (!s.teamIds.contains s.teamId) = true := by
    simpa [Save.IsPermitted] using h
  rw [Save.program, TeamSettings.save, hContains]
  rfl

/-- A save of an empty address posts nothing. -/
theorem posted_save_empty (n : Notifier) {teamIds : List Int} (hMember : teamId ∈ teamIds)
    (secret : String) : d.posted (save n teamIds teamId "" secret) = [] := by
  have hContains : (!teamIds.contains teamId) = false := by simpa using hMember
  rw [TeamSettings.save, hContains]
  exact (Deployment.posted_silent_bind (silent_request rfl) d.run_now).trans
    (Deployment.posted_of_silent (clear_silent teamId d.now))

/-- A save posts to the address that it has stored. -/
theorem posted_save_nonempty (h : d.Quiet) (n : Notifier) (s : Save) :
    ∀ p ∈ d.posted (s.program n), p.url ≠ "" := by
  intro p hPosted
  by_cases hPermitted : s.IsPermitted
  case neg =>
    rw [posted_save_refused n hPermitted] at hPosted
    cases hPosted
  by_cases hUrl : s.url = ""
  · rw [Save.program, hUrl, posted_save_empty n hPermitted] at hPosted
    cases hPosted
  · rw [Save.program, save_eq n hPermitted hUrl] at hPosted
    obtain ⟨c, housed, -, -, ⟨-, w, after, hKeep, -, -, hAddress, -⟩ | ⟨-, after, hKeep, -⟩⟩ :=
      run_keep_outcomes n h s.teamId s.url s.secret
    · rw [Deployment.posted_silent_bind (keep_silent _ _ _ _) hKeep] at hPosted
      rw [url_of_posted_sendTest (h.of_run hKeep) hPosted, hAddress]
      exact hUrl
    · rw [Deployment.posted_silent_fail (keep_silent _ _ _ _) hKeep] at hPosted
      cases hPosted

/-- A test looks at the address first. -/
theorem posted_test_nonempty (h : d.Quiet) (n : Notifier) (teamIds : List Int) (teamId : Int) :
    ∀ p ∈ d.posted (TeamSettings.test n teamIds teamId), p.url ≠ "" := by
  intro p hPosted
  rw [TeamSettings.test] at hPosted
  rcases hGet : d.run (get teamIds teamId) with ⟨e | w, after⟩
  · rw [Deployment.posted_silent_fail (get_silent _ _) hGet] at hPosted
    cases hPosted
  · rw [Deployment.posted_silent_bind (get_silent _ _) hGet] at hPosted
    by_cases hUrl : w.url = ""
    · rw [if_pos (by simp [hUrl])] at hPosted
      cases hPosted
    · rw [if_neg (by simp [hUrl])] at hPosted
      rw [url_of_posted_sendTest (h.of_run hGet) hPosted]
      exact hUrl

/-- How a webhook that was verified stands once it is cleared. -/
def Footing.cleared : Footing := ⟨"", true⟩

/-- Notifying a channel posts to the empty address exactly if the webhook of its team was verified and
is cleared. -/
theorem Stands.posted_nowhere_iff_cleared (h : Stands standing d.registry) (hQuiet : d.Quiet)
    (hMem : c ∈ d.registry.channels) (n : Notifier) (a : Alert) (kind : String) :
    (∃ p ∈ d.posted (n.sendAlert a c kind), p.url = "") ↔ standing c.teamId = some .cleared := by
  have hFooting := h.at_home (Registry.home?_of_mem h.teams h.kinds hMem)
  rw [Notifier.posted_sendAlert hQuiet, ← hFooting]
  constructor
  · rintro ⟨p, hPosted, hUrl⟩
    obtain ⟨w, hNotified, hPost⟩ := Option.bind_eq_some_iff.mp (Option.mem_toList.mp hPosted)
    obtain ⟨-, hFind, hVerified⟩ := Registry.notified?_eq_some.mp hNotified
    rw [hFind, Option.map_some, Footing.ofWebhook, hVerified, ← Notifier.url_of_postOf? hPost, hUrl]
    rfl
  · intro hCleared
    obtain ⟨w, hFind, hIs⟩ := Option.map_eq_some_iff.mp hCleared
    obtain ⟨hUrl, hVerified⟩ := Footing.mk.inj hIs
    have hNotified : d.registry.notified? c = some w :=
      Registry.notified?_eq_some.mpr ⟨h.kinds c hMem, hFind, hVerified⟩
    have hPost := n.postOf?_bare (h.bare c.id w hFind hUrl)
    rw [hNotified, Option.bind_some, hPost]
    exact ⟨_, List.mem_singleton_self _, hUrl⟩

/-- A transition posts to the empty address exactly if its alert has a row and its team has a webhook
that was verified and is cleared. -/
theorem Stands.transition_posted_nowhere_iff (h : Stands standing d.registry) (hQuiet : d.Quiet)
    (w : Worker) (a : Alert) (kind : String) :
    (∃ p ∈ d.posted (w.transition a kind), p.url = "") ↔
      (d.registry.alert? a.id).isSome ∧ standing a.teamId = some .cleared := by
  rw [Worker.posted_transition hQuiet]
  split
  case isFalse hRow => simp [hRow]
  case isTrue hRow =>
    constructor
    · rintro ⟨p, hPosted, hUrl⟩
      obtain ⟨c, hMem, hSent⟩ := List.mem_flatMap.mp hPosted
      obtain ⟨hChannel, hTeam⟩ := Registry.mem_channelsOf.mp (List.mem_of_mem_filter hMem)
      rw [← hTeam]
      exact ⟨hRow, (h.posted_nowhere_iff_cleared hQuiet hChannel w.notifier a kind).mp ⟨p, hSent, hUrl⟩⟩
    · rintro ⟨-, hCleared⟩
      rw [← h.footing a.teamId] at hCleared
      obtain ⟨_, hWebhook, -⟩ := Option.map_eq_some_iff.mp hCleared
      obtain ⟨c, hHome, -⟩ := Option.bind_eq_some_iff.mp hWebhook
      obtain ⟨hChannel, hTeam, -⟩ := Registry.mem_of_home? hHome
      rw [h.footing, ← hTeam] at hCleared
      obtain ⟨p, hSent, hUrl⟩ :=
        (h.posted_nowhere_iff_cleared hQuiet hChannel w.notifier a kind).mpr hCleared
      refine ⟨p, List.mem_flatMap.mpr ⟨c, List.mem_filter.mpr ⟨?_, h.enabled c hChannel⟩, hSent⟩, hUrl⟩
      exact Registry.mem_channelsOf.mpr ⟨hChannel, hTeam⟩

/-- Two addresses were stored for a team, and then its webhook was cleared. -/
def Emptied (n : Notifier) (saves : List Save) (teamId : Int) : Prop :=
  2 ≤ addressCount (storedUrls n saves teamId) ∧ (storedUrls n saves teamId).getLast? = some ""

instance (n : Notifier) (saves : List Save) (teamId : Int) : Decidable (Emptied n saves teamId) :=
  inferInstanceAs (Decidable (_ ∧ _))

theorem footing_eq_cleared {n : Notifier} {saves : List Save} {teamId : Int} :
    footing n saves teamId = some .cleared ↔ Emptied n saves teamId := by
  rw [footing, Footing.ofUrls, Emptied]
  generalize storedUrls n saves teamId = urls
  constructor
  · intro h
    split at h
    · cases h
    next hSome =>
      obtain ⟨hLast, hTwo⟩ := Footing.mk.inj (Option.some.inj h)
      refine ⟨of_decide_eq_true hTwo, ?_⟩
      cases hUrls : urls.getLast? with
      | none => simp [List.getLast?_eq_none_iff.mp hUrls, addressCount] at hSome
      | some url =>
          rw [hUrls] at hLast
          exact congrArg some hLast
  · rintro ⟨hTwo, hLast⟩
    rw [if_neg (by omega), hLast, decide_eq_true hTwo]
    rfl

/-- After any saves, test deliveries and transitions from a beginning without channels and webhooks, no
save and no test posts to the empty address, and a transition does exactly if it is stored and the
webhook of its team was cleared after two addresses had been stored. -/
theorem posted_nowhere_iff (hStart : start.Quiet) (hChannels : start.registry.channels = [])
    (hWebhooks : start.registry.webhooks = []) (hTraffic : Traffic n start acts d) (x : Act) :
    (∃ p ∈ d.posted (x.program n), p.url = "") ↔
      ∃ w a kind, x = .transition w a kind ∧ (d.registry.alert? a.id).isSome ∧
        Emptied n (savesOf acts) a.teamId := by
  have hHistory := hTraffic.history hStart
  have hQuiet := hHistory.quiet hStart
  have hStands := hHistory.stands hStart hChannels hWebhooks
  cases x with
  | save s =>
      refine iff_of_false ?_ ?_
      · rintro ⟨p, hPosted, hUrl⟩
        exact posted_save_nonempty hQuiet n s p hPosted hUrl
      · rintro ⟨w, a, kind, hOther, -⟩
        cases hOther
  | test teamIds teamId =>
      refine iff_of_false ?_ ?_
      · rintro ⟨p, hPosted, hUrl⟩
        exact posted_test_nonempty hQuiet n teamIds teamId p hPosted hUrl
      · rintro ⟨w, a, kind, hOther, -⟩
        cases hOther
  | transition w a kind =>
      have hPosted : d.posted ((Act.transition w a kind).program n) = d.posted (w.transition a kind) :=
        Deployment.posted_bind_silent fun _ => asks_pure ()
      rw [hPosted, hStands.transition_posted_nowhere_iff hQuiet, footing_eq_cleared]
      constructor
      · exact fun hEmptied => ⟨w, a, kind, rfl, hEmptied⟩
      · rintro ⟨_, _, _, hSame, hEmptied⟩
        cases hSame
        exact hEmptied

/-- A triggered alert of team 1. -/
def triggeredAlert : Alert :=
  ⟨1, 1, 1, "Spike", none, Alert.triggered, 10, 1, 4, false, none, none, ⟨0⟩, ⟨0⟩⟩

/-- A deployment in which there is nothing but this alert. -/
def alertedTeam : Deployment :=
  { Deployment.initial ⟨0⟩ false with registry := { Registry.empty with alerts := [triggeredAlert] } }

/-- Team 1 saves an address. -/
def addressSaved : Act := .save ⟨[1], 1, "https://hooks.example.com/a", ""⟩

/-- Team 1 clears its webhook. -/
def addressCleared : Act := .save ⟨[1], 1, "", ""⟩

/-- The alert resolves. -/
def alertResolved : Act :=
  .transition ⟨"worker-a", Worker.usualLeaseMicros, ⟨none⟩⟩ (triggeredAlert.resolve ⟨1000⟩)
    resolvedKind

/-- After one address and clearing nothing is posted to the empty address, but after two addresses and
clearing something is. -/
theorem cleared_after_one_or_two_addresses :
    (¬∃ p ∈ (afterActs ⟨none⟩ alertedTeam [addressSaved, addressCleared]).posted
        (alertResolved.program ⟨none⟩), p.url = "") ∧
      ∃ p ∈ (afterActs ⟨none⟩ alertedTeam [addressSaved, addressSaved, addressCleared]).posted
        (alertResolved.program ⟨none⟩), p.url = "" := by
  have hStart : alertedTeam.Quiet := ⟨rfl, rfl, rfl⟩
  have hBegin : Traffic ⟨none⟩ alertedTeam [] alertedTeam := .begin
  constructor
  · rw [posted_nowhere_iff hStart rfl rfl (hBegin.afterActs [addressSaved, addressCleared])]
    rintro ⟨_, _, _, hSame, -, hEmptied⟩
    cases hSame
    exact absurd hEmptied (by decide)
  · rw [posted_nowhere_iff hStart rfl rfl
      (hBegin.afterActs [addressSaved, addressSaved, addressCleared])]
    exact ⟨_, _, _, rfl, by decide +kernel, by decide⟩

/-- After two addresses and clearing, the stored address is empty and a test posts nothing, but the
alert that resolves is posted to the empty address. -/
theorem cleared_address_posted :
    let d := afterActs ⟨none⟩ alertedTeam [addressSaved, addressSaved, addressCleared]
    d.registry.webhooks.map Webhook.url = [""] ∧
      d.posted ((Act.test [1] 1).program ⟨none⟩) = [] ∧
      (d.posted (alertResolved.program ⟨none⟩)).map Post.url = [""] := by
  decide +kernel

end Triage.Webhook.TeamSettings
