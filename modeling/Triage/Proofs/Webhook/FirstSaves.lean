import Triage.Proofs.Deployment.Schedules
import Triage.Proofs.Webhook.Settings

/-!
# Saving for a team for the first time

A save looks whether the team has a webhook channel, and makes one if it was shown none.  Nothing in
the tables stands in the way of a second one.  From no channels on, and however saves for any teams
take turns, each team has at most one webhook channel at every moment exactly when no save makes one
after another save has made one that it did not see (`one_webhook_channel_iff`).  Two first saves for
one team can do this to each other (`first_saves_furnish_twice`).

A task is one save.  Nothing else is asked of the deployment meanwhile.
-/

namespace Triage

/-- The webhook channels of a team. -/
def Registry.webhookChannels (r : Registry) (teamId : Int) : List Channel :=
  r.channels.filter fun c => c.teamId = teamId && c.kind = Channel.webhookKind

theorem ChannelDraft.complete_fields {d : ChannelDraft} {id : Int} {now : Instant} {c : Channel}
    (h : d.complete id now = .ok c) :
    d.teamId = some c.teamId ∧ c.kind = d.kind.getD Channel.webhookKind := by
  simp only [ChannelDraft.complete, bind, Except.bind, pure, Except.pure] at h
  cases hTeam : d.teamId with
  | none => simp [hTeam, needed] at h
  | some teamId =>
      simp only [hTeam, needed] at h
      split at h
      · cases h
      · cases h
        exact ⟨rfl, rfl⟩

/-- A channel that is made is added to the others. -/
theorem Registry.channels_of_created {r after : Registry} {now : Instant} {freshUuid : String}
    {d : ChannelDraft} {c : Channel} (h : r.run now freshUuid (.createChannel d) = (.ok c, after)) :
    after.channels = r.channels ++ [c] ∧ d.teamId = some c.teamId ∧
      c.kind = d.kind.getD Channel.webhookKind := by
  unfold run at h
  split at h
  · cases h
  simp only [apply, changed] at h
  split at h
  next row hAdded =>
    cases h
    exact ⟨rfl, ChannelDraft.complete_fields (addedRow_eq_ok.mp hAdded).1⟩
  · cases h

/-- One more webhook channel belongs to its own team. -/
theorem Registry.webhookChannels_append {r after : Registry} {c : Channel}
    (hChannels : after.channels = r.channels ++ [c]) (hKind : c.kind = Channel.webhookKind)
    (teamId : Int) :
    (after.webhookChannels teamId).length =
      (r.webhookChannels teamId).length + if c.teamId = teamId then 1 else 0 := by
  rw [webhookChannels, hChannels, List.filter_append, List.length_append, ← webhookChannels]
  by_cases hMine : c.teamId = teamId <;> simp [hMine, hKind]

/-- Whether a request asks for the channels of a team. -/
def Request.looksFor (teamId : Int) : Request → Bool
  | .registry (.listChannels id false) => decide (id = teamId)
  | _ => false

/-- Whether a request is to make a webhook channel for a team. -/
def Request.furnishes (teamId : Int) : Request → Bool
  | .registry (.createChannel d) =>
    decide (d.teamId = some teamId) && decide (d.kind = some Channel.webhookKind)
  | _ => false

/-- Whether a webhook channel is made for a team in a moment. -/
def Moment.furnishes (m : Moment ι) (teamId : Int) : Bool :=
  m.request.furnishes teamId && m.reply.toBool

namespace Webhook.TeamSettings

open Program Conduct

/-- What the requests of a save tell about it: the team that it was shown to have no webhook
channel, until it makes one. -/
def noteEmpty (s : Option Int) (_before : Deployment) :
    (q : Request) → Except Failure q.Reply → Option Int
  | .registry (.listChannels teamId false), .ok channels =>
    if (List.find? (fun c => c.kind = Channel.webhookKind) (channels : List Channel)).isNone
    then some teamId else none
  | .registry (.createChannel _), _ => none
  | _, _ => s

/-- A save makes no channel but a webhook channel for a team that was shown to have none. -/
def mayFurnish (s : Option Int) : Request → Prop
  | .registry (.createChannel d) =>
    ∃ teamId, s = some teamId ∧ d.teamId = some teamId ∧ d.kind = some Channel.webhookKind
  | .registry call => .channels ∉ call.writes
  | _ => True

/-- The conduct of a save as to channels. -/
def furnishing : Conduct (Option Int) := ⟨noteEmpty, mayFurnish⟩

/-- What a save asks besides channels. -/
inductive Incidental : Request → Prop
  | notifier {q : Request} (asked : Notifier.Asked q) : Incidental q
  | storing {q : Request} (h : Storing q) : Incidental q

variable {s : Option Int}

theorem Incidental.passes {q : Request} (h : Incidental q) : furnishing.Passes s q := by
  cases h with
  | notifier asked =>
      cases asked with
      | webhook channelId =>
          exact ⟨by simp [furnishing, mayFurnish, RegistryCall.writes], fun before reply => rfl⟩
      | _ => exact ⟨trivial, fun before reply => rfl⟩
  | storing h =>
      cases h with
      | nonce | noteChange => exact ⟨trivial, fun before reply => rfl⟩
      | _ => exact ⟨by simp [furnishing, mayFurnish, RegistryCall.writes], fun before reply => rfl⟩

/-- What is asked besides channels leaves no trace. -/
theorem keeps_incidental {p : Program α} (hp : p.Asks Incidental) :
    furnishing.Keeps (fun _ _ => True) s p :=
  keeps_of_asks (hp.mono fun _ h => h.passes) fun _ => trivial

theorem report_incidental (severity : Log.Severity) (component : Log.Component) (message : String)
    (subjects : List (String × Json)) (failure : Option Failure) :
    (report severity component message subjects failure).Asks Incidental :=
  asks_request (.notifier (.record _))

theorem now_incidental : Program.now.Asks Incidental := asks_request (.notifier .now)

theorem incidental_of_storing {p : Program α} (hp : p.Asks Storing) : p.Asks Incidental :=
  hp.mono fun _ => .storing

theorem sendTest_incidental (n : Notifier) (w : Webhook) (teamId : Int) :
    (sendTest n w teamId).Asks Incidental :=
  now_incidental.bind fun _ => (n.sendWebhook_asks w _).mono fun _ => .notifier

/-- Whoever is shown no webhook channel has noted so. -/
theorem webhookChannel_keeps (teamId : Int) :
    furnishing.Keeps (fun outcome s => outcome = .ok none → s = some teamId) s
      (webhookChannel? teamId) := by
  refine Keeps.bind (keeps_request (by simp [furnishing, mayFurnish, RegistryCall.writes]) ?_)
  rintro before (e | channels)
  · exact fun h => by cases h
  · intro h
    have hNone := Except.ok.inj h
    exact if_pos (Option.isNone_iff_eq_none.mpr hNone)

theorem ensureChannel_keeps (teamId : Int) (time : Instant) :
    furnishing.Keeps (fun _ _ => True) s (ensureChannel teamId time) := by
  unfold ensureChannel
  refine Keeps.bind ((webhookChannel_keeps teamId).mono ?_)
  rintro (e | _ | channel) s' hNoted
  · trivial
  · obtain rfl := hNoted rfl
    refine Keeps.bind (keeps_request ⟨teamId, rfl, rfl, rfl⟩ ?_)
    rintro before (e | channel)
    · trivial
    · exact keeps_incidental ((report_incidental ..).bind fun _ => asks_pure _)
  · trivial

theorem clear_keeps (teamId : Int) (time : Instant) :
    furnishing.Keeps (fun _ _ => True) s (clear teamId time) := by
  unfold clear
  refine Keeps.bind ((webhookChannel_keeps teamId).mono ?_)
  rintro (e | _ | channel) s' -
  · trivial
  · trivial
  · refine keeps_incidental ((incidental_of_storing (findWebhook_asks channel.id)).bind fun found => ?_)
    split
    · exact asks_pure _
    · refine (asks_request (.storing (.noteChange _))).bind fun _ => ?_
      exact (asks_request (.storing (.update _))).bind fun _ => report_incidental ..

/-- A save makes no channel but a webhook channel for a team that it was shown to have none. -/
theorem save_keeps (s : Option Int) (n : Notifier) (save : Save) :
    furnishing.Keeps (fun _ _ => True) s (save.program n) := by
  unfold Save.program TeamSettings.save
  dsimp only
  split
  · trivial
  refine Keeps.bind (keeps_of_asks (now_incidental.mono fun _ h => h.passes) ?_)
  rintro (e | time)
  · trivial
  dsimp only
  split
  · exact clear_keeps ..
  refine Keeps.bind ((ensureChannel_keeps save.teamId time).mono ?_)
  rintro (e | channel) s' -
  · trivial
  have hStore : ∀ stored, (do
      let webhook ← storeWebhook channel.id save.url stored time
      sendTest n webhook save.teamId : Program Unit).Asks Incidental := fun stored =>
    (incidental_of_storing (storeWebhook_asks ..)).bind fun webhook => sendTest_incidental ..
  dsimp only
  split
  · exact keeps_incidental ((asks_pure _).bind hStore)
  · exact keeps_incidental ((incidental_of_storing (sealSecret_asks ..)).bind hStore)

variable {d : Deployment}

/-- What a save may ask adds a webhook channel exactly when it makes one. -/
theorem webhookChannels_perform (hUnit : d.openUnit = none) {q : Request} (hMay : mayFurnish s q)
    (teamId : Int) :
    ((d.perform q).2.registry.webhookChannels teamId).length =
      (d.registry.webhookChannels teamId).length +
        if q.furnishes teamId && (d.perform q).1.toBool then 1 else 0 := by
  cases q with
  | registry call =>
      obtain ⟨e, hReply, hSame⟩ | ⟨reply, freshUuid, hReply, hRun⟩ := d.perform_call hUnit call
      · rw [hReply, hSame]
        simp [Except.toBool]
      cases call with
      | createChannel draft =>
          obtain ⟨hChannels, hTeam, hKind⟩ := Registry.channels_of_created hRun
          obtain ⟨emptyTeam, -, hDraftTeam, hDraftKind⟩ := hMay
          rw [hDraftKind, Option.getD_some] at hKind
          rw [Registry.webhookChannels_append hChannels hKind, hReply]
          simp [Request.furnishes, Except.toBool, hTeam, hDraftKind]
      | _ =>
          have hRows := d.registry.run_sameRows d.now freshUuid _ (t := .channels) (by exact hMay)
          rw [hRun] at hRows
          rw [Registry.webhookChannels, show _ = d.registry.channels from hRows,
            ← Registry.webhookChannels]
          rfl
  | _ =>
      rw [d.perform_registry hUnit rfl]
      rfl

/-- Whoever has noted that a team has no webhook channel has just looked, or had noted it before. -/
theorem noteEmpty_eq_some (hUnit : d.openUnit = none) {q : Request} {teamId : Int}
    (h : noteEmpty s d q (d.perform q).1 = some teamId) :
    s = some teamId ∨ q.looksFor teamId = true ∧ d.registry.webhookChannels teamId = [] := by
  cases q with
  | registry call =>
      cases call with
      | listChannels id enabledOnly =>
          cases enabledOnly with
          | true => exact .inl h
          | false =>
              obtain ⟨e, hReply, -⟩ | ⟨reply, freshUuid, hReply, hRun⟩ :=
                d.perform_call hUnit (.listChannels id false)
              · rw [hReply] at h
                exact .inl h
              have hShown : reply = d.registry.channelsOf id := by
                unfold Registry.run at hRun
                split at hRun
                · cases hRun
                · rw [Registry.listChannels_eq] at hRun
                  exact (Except.ok.inj (Prod.mk.inj hRun).1).symm
              rw [hReply, hShown] at h
              simp only [noteEmpty, Option.ite_none_right_eq_some, Option.some.injEq,
                Option.isNone_iff_eq_none] at h
              obtain ⟨hHome, rfl⟩ := h
              refine .inr ⟨decide_eq_true rfl, ?_⟩
              rw [Registry.webhookChannels, List.filter_eq_nil_iff]
              intro c hc
              simpa using Registry.home?_eq_none.mp hHome c hc
      | createChannel draft => cases h
      | _ => exact .inl h
  | _ => exact .inl h

/-- Someone looks at the channels of a team, then a webhook channel is made for it, and then the one
who looked before makes another one. -/
def Overtaken (teamId : Int) (trace : List (Moment ι)) : Prop :=
  ∃ look other own, [look, other, own].Sublist trace ∧ look.mark = own.mark ∧
    look.request.looksFor teamId = true ∧ other.furnishes teamId = true ∧
    own.furnishes teamId = true

/-- Saves on their way, after some moments: they keep to their conduct, the webhook channels are
those that have been made, and whoever has noted that a team has none looked before any was made. -/
structure Underway (s : ι → Option Int) (trace : List (Moment ι)) (c : Crew ι Unit) : Prop where
  unit : c.deployment.openUnit = none
  keeps : ∀ i, furnishing.Keeps (fun _ _ => True) (s i) (c.task i).program
  counted : ∀ teamId, (c.deployment.registry.webhookChannels teamId).length =
    trace.countP fun m => m.furnishes teamId
  looked : ∀ i teamId, s i = some teamId → ∃ earlier look later,
    trace = earlier ++ look :: later ∧ look.mark = i ∧ look.request.looksFor teamId = true ∧
      ∀ m ∈ earlier, m.furnishes teamId = false
  overtaken : ∀ teamId, 1 < (trace.countP fun m => m.furnishes teamId) → Overtaken teamId trace

theorem not_furnishes_of_looksFor {m : Moment ι} {teamId : Int}
    (h : m.request.looksFor teamId = true) : m.furnishes teamId = false := by
  obtain ⟨mark, request, reply, before⟩ := m
  cases request with
  | registry call => cases call <;> first | rfl | cases h
  | _ => rfl

theorem Overtaken.append {teamId : Int} {trace : List (Moment ι)} (h : Overtaken teamId trace)
    (more : List (Moment ι)) : Overtaken teamId (trace ++ more) := by
  obtain ⟨look, other, own, hSublist, hRest⟩ := h
  exact ⟨look, other, own, hSublist.trans (List.sublist_append_left trace more), hRest⟩

namespace Underway

variable {ι : Type} {s : ι → Option Int} {trace : List (Moment ι)} {c : Crew ι Unit} {i : ι}
  {q : Request} {next : Except Failure q.Reply → Program Unit}

/-- A save that makes a webhook channel for a team after another one has been made looked before. -/
theorem overtaken_of_furnishes (h : Underway s trace c)
    (hProgram : (c.task i).program = .ask q next) {teamId : Int}
    (hMakes : (c.moment i q).furnishes teamId = true)
    (hBefore : 0 < trace.countP fun m => m.furnishes teamId) :
    Overtaken teamId (trace ++ [c.moment i q]) := by
  have hMay : mayFurnish (s i) q := Crew.allows_of_keeps (k := fun _ => furnishing) h.keeps hProgram
  have hNoted : s i = some teamId := by
    have hFurnishes : q.furnishes teamId = true := (Bool.and_eq_true_iff.mp hMakes).1
    cases q with
    | registry call =>
        cases call with
        | createChannel draft =>
            obtain ⟨emptyTeam, hNoted, hTeam, -⟩ := hMay
            simp only [Request.furnishes, Bool.and_eq_true, decide_eq_true_eq] at hFurnishes
            rw [hNoted, ← hTeam, hFurnishes.1]
        | _ => cases hFurnishes
    | _ => cases hFurnishes
  obtain ⟨earlier, look, later, rfl, hMark, hLooks, hNone⟩ := h.looked i teamId hNoted
  obtain ⟨other, hOther, hOtherMakes⟩ := List.countP_pos_iff.mp hBefore
  -- The other channel was not made before the look, and the look itself makes none.
  have hLater : other ∈ later := by
    rcases List.mem_append.mp hOther with hEarlier | hRest
    · rw [hNone other hEarlier] at hOtherMakes
      cases hOtherMakes
    · rcases List.mem_cons.mp hRest with rfl | hLater
      · rw [not_furnishes_of_looksFor hLooks] at hOtherMakes
        cases hOtherMakes
      · exact hLater
  refine ⟨look, other, c.moment i q, ?_, hMark, hLooks, hOtherMakes, hMakes⟩
  have hTail : [look, other].Sublist (earlier ++ look :: later) :=
    ((List.singleton_sublist.mpr hLater).cons_cons look).trans (List.sublist_append_right _ _)
  exact hTail.append (List.Sublist.refl [c.moment i q])

theorem advance (h : Underway s trace c) (micros : Int) :
    Underway s trace { c with deployment := c.deployment.advance micros } where
  unit := h.unit
  keeps := h.keeps
  counted := h.counted
  looked := h.looked
  overtaken := h.overtaken

variable [DecidableEq ι]

theorem afterRequest (h : Underway s trace c) (hProgram : (c.task i).program = .ask q next) :
    Underway (c.noted (fun _ => furnishing) s i q) (trace ++ [c.moment i q])
      (c.afterRequest i q next) where
  unit := (c.found i).perform_openUnit h.unit q
  keeps := Crew.keeps_afterRequest h.keeps hProgram
  counted teamId := by
    have hMay : mayFurnish (s i) q :=
      Crew.allows_of_keeps (k := fun _ => furnishing) h.keeps hProgram
    have hPerform := webhookChannels_perform (d := c.found i) h.unit hMay teamId
    rw [List.countP_append, List.countP_singleton, ← h.counted teamId]
    exact hPerform
  looked j teamId hNoted := by
    by_cases hj : j = i
    · subst hj
      rw [Crew.noted_self] at hNoted
      rcases noteEmpty_eq_some (d := c.found j) h.unit hNoted with hBefore | ⟨hLooks, hEmpty⟩
      · obtain ⟨earlier, look, later, rfl, hRest⟩ := h.looked j teamId hBefore
        exact ⟨earlier, look, later ++ [c.moment j q], by simp, hRest⟩
      · refine ⟨trace, c.moment j q, [], rfl, rfl, hLooks, ?_⟩
        have hNone : (trace.countP fun m => m.furnishes teamId) = 0 := by
          rw [← h.counted teamId]
          exact List.length_eq_zero_iff.mpr hEmpty
        simpa [List.countP_eq_zero] using hNone
    · rw [Crew.noted_other hj] at hNoted
      obtain ⟨earlier, look, later, rfl, hRest⟩ := h.looked j teamId hNoted
      exact ⟨earlier, look, later ++ [c.moment i q], by simp, hRest⟩
  overtaken teamId hMany := by
    rw [List.countP_append, List.countP_singleton] at hMany
    by_cases hMakes : (c.moment i q).furnishes teamId = true
    · rw [if_pos hMakes] at hMany
      exact h.overtaken_of_furnishes hProgram hMakes (by omega)
    · rw [if_neg hMakes] at hMany
      exact (h.overtaken teamId hMany).append _

/-- The whole of a schedule. -/
theorem run (h : Underway s trace c) (schedule : List (Move ι)) :
    ∃ s, Underway s (trace ++ (c.run schedule).1) (c.run schedule).2 := by
  let inv (trace : List (Moment ι)) (c : Crew ι Unit) : Prop := ∃ s, Underway s trace c
  have hClock : ∀ {trace c} (micros : Int), .clock micros ∈ schedule → inv trace c →
      inv trace { c with deployment := c.deployment.advance micros } := fun micros _ ⟨s, h⟩ =>
    ⟨s, h.advance micros⟩
  have hTurn : ∀ {trace c i q next}, (c.task i).program = .ask q next → inv trace c →
      inv (trace ++ [c.moment i q]) (c.afterRequest i q next) := fun hProgram ⟨_, h⟩ =>
    ⟨_, h.afterRequest hProgram⟩
  exact @Crew.run_follows ι Unit _ c inv schedule hClock hTurn trace ⟨s, h⟩

end Underway

/-- Saves over one deployment, each of them one task. -/
def crewOfSaves {ι : Type} (d : Deployment) (saves : ι → Save) (n : ι → Notifier)
    (correlation : ι → Option String) : Crew ι Unit :=
  ⟨d, fun i => ⟨(saves i).program (n i), correlation i⟩⟩

theorem Underway.initial {ι : Type} {d : Deployment} (hUnit : d.openUnit = none)
    (hNone : d.registry.channels = []) (saves : ι → Save) (n : ι → Notifier)
    (correlation : ι → Option String) :
    Underway (fun _ => none) [] (crewOfSaves d saves n correlation) where
  unit := hUnit
  keeps i := save_keeps none (n i) (saves i)
  counted teamId := by
    rw [crewOfSaves, Registry.webhookChannels, hNone]
    rfl
  looked i teamId hNoted := by cases hNoted
  overtaken teamId hMany := absurd hMany (Nat.not_lt_zero 1)

/-- For every interleaving of any saves for any teams, from no channels on: each team has at most one
webhook channel at every moment exactly when none of the saves that have looked at a team is
overtaken by another one before it makes a webhook channel for the team. -/
theorem one_webhook_channel_iff {ι : Type} [DecidableEq ι] {d : Deployment}
    (hUnit : d.openUnit = none) (hNone : d.registry.channels = []) (saves : ι → Save)
    (n : ι → Notifier) (correlation : ι → Option String) (schedule : List (Move ι)) :
    let c := crewOfSaves d saves n correlation
    (∀ k teamId,
        ((c.run (schedule.take k)).2.deployment.registry.webhookChannels teamId).length ≤ 1) ↔
      ∀ teamId, ¬Overtaken teamId (c.run schedule).1 := by
  intro c
  have hUnderway (moves : List (Move ι)) : ∃ s, Underway s (c.run moves).1 (c.run moves).2 :=
    (Underway.initial hUnit hNone saves n correlation).run moves
  constructor
  · rintro hOne teamId ⟨look, other, own, hSublist, -, -, hOther, hOwn⟩
    obtain ⟨s, hAll⟩ := hUnderway schedule
    have hEnd := hOne schedule.length teamId
    rw [List.take_length, hAll.counted] at hEnd
    have hTwo : ([other, own].countP fun m => m.furnishes teamId) = 2 := by simp [hOther, hOwn]
    have hMost : ([other, own].countP fun m => m.furnishes teamId) ≤
        (c.run schedule).1.countP fun m => m.furnishes teamId :=
      ((List.sublist_cons_self look _).trans hSublist).countP_le
    omega
  · intro hNot k teamId
    obtain ⟨s, hPart⟩ := hUnderway (schedule.take k)
    rw [hPart.counted]
    refine Nat.le_of_not_lt fun hMany => hNot teamId ?_
    have hWhole := Crew.moments_append c (schedule.take k) (schedule.drop k)
    rw [List.take_append_drop] at hWhole
    rw [hWhole]
    exact (hPart.overtaken teamId hMany).append _

/-- Two users of a team, each of whom saves an address for it. -/
def twoFirstSaves (i : Bool) : Save :=
  ⟨[1], 1, if i then "https://hooks.example.com/b" else "https://hooks.example.com/a", ""⟩

/-- One first save after the other: the second one finds the channel of the first one. -/
theorem first_saves_in_turn_furnish_once :
    let c := crewOfSaves (Deployment.initial ⟨0⟩ false) twoFirstSaves (fun _ => ⟨none⟩) fun _ => none
    let schedule := List.replicate 20 (.turn false) ++ List.replicate 20 (.turn true)
    ((c.run schedule).2.deployment.registry.webhookChannels 1).length = 1 ∧
      ∀ teamId, ¬Overtaken teamId (c.run schedule).1 := by
  intro c schedule
  have hFew : ∀ k < 41, (c.run (schedule.take k)).2.deployment.registry.channels.length ≤ 1 := by
    decide +kernel
  have hAlways (k : Nat) : (c.run (schedule.take k)).2.deployment.registry.channels.length ≤ 1 := by
    have hLength : schedule.length = 40 := rfl
    have hTake : schedule.take k = schedule.take (min k 40) := by
      rw [List.take_eq_take_iff, hLength]
      omega
    rw [hTake]
    exact hFew (min k 40) (by omega)
  refine ⟨by decide +kernel, ?_⟩
  refine (one_webhook_channel_iff (d := Deployment.initial ⟨0⟩ false) rfl rfl twoFirstSaves
    (fun _ => ⟨none⟩) (fun _ => none) schedule).mp fun k teamId => ?_
  exact Nat.le_trans (List.length_filter_le _ _) (hAlways k)

/-- Both look before either makes a channel, and then the team has two. -/
theorem first_saves_furnish_twice :
    let c := crewOfSaves (Deployment.initial ⟨0⟩ false) twoFirstSaves (fun _ => ⟨none⟩) fun _ => none
    let schedule := List.replicate 2 (.turn false) ++ List.replicate 20 (.turn true) ++
      List.replicate 20 (.turn false)
    ((c.run schedule).2.deployment.registry.webhookChannels 1).length = 2 := by
  decide +kernel

end Webhook.TeamSettings
end Triage
