import Triage.Proofs.Alert.Trials
import Triage.Proofs.Registry.Webhooks

/-!
# Announcing a transition to a team

A transition is announced to the enabled channels of the team of its alert, one after the other.  Each
gets an attempt of its own: a row is recorded, and if that succeeds the delivery is tried once
(`Attempt`).  The marks that the attempts leave among the moments of the run, and the rows that are left
in the end, are told by the outcomes of the attempts alone, and sending goes on in a deployment whose
tables differ from the ones before only in the deliveries that are recorded (`Trial.Faithful`).  So it
is whatever fails and however long it takes (`transition_announced`).

Nothing is said of what others do to the tables meanwhile.
-/

namespace Triage

open Program Deployment

/-- What became of a channel: the failure to record a delivery, or its trial. -/
structure Attempt where
  channel : Channel
  trial : Except Failure Trial

namespace Attempt

/-- The steps of an attempt, in order. -/
def marks (x : Attempt) : List Mark :=
  match x.trial with
  | .error e => [.recorded (some x.channel.id) (.error e)]
  | .ok t =>
    [.recorded (some x.channel.id) (.ok t.pending), .sending, .updated t.settled.draft t.stored]

/-- The row that an attempt leaves. -/
def row? (x : Attempt) : Option Delivery := x.trial.toOption.map Trial.row

end Attempt

/-- A trial of a channel in a run with some moments.  Its row begins as pending and ends as sent only
if sending succeeded, as failed only if it failed, and as pending exactly if it could not be updated.
Sending was a part of the run that began once the row was recorded, and the other tables were as given
then. -/
structure Trial.Faithful (w : Worker) (a : Alert) (kind : String) (tables : Registry)
    (moments : List (Moment Unit)) (channel : Channel) (t : Trial) : Prop where
  begins : ∃ id time, t.pending = .untried id a.id channel.id kind time
  sent : t.row.status = Delivery.sent → ∃ time, t.sent = .ok time ∧ t.row.sentAt = some time
  failed : t.row.status = Delivery.failed →
    ∃ e, t.sent = .error e ∧ t.row.errorMessage = some e.message
  pending : t.row.status = Delivery.pending ↔ ∃ e, t.stored = .error e
  sends : ∃ (before : Deployment) (hitches : List Hitch),
    t.pending ∈ before.registry.deliveries ∧
    before.registry = { tables with deliveries := before.registry.deliveries } ∧
    (∀ h ∈ hitches, h.Delays) ∧
    let sending := before.runAmid hitches (w.notifier.sendAlert a channel kind)
    sending.outcome = t.sent.map (fun _ => ()) ∧ sending.moments <:+: moments

/-- A course in which a notification was tried on some channels, one after the other. -/
structure Announced (w : Worker) (a : Alert) (kind : String) (d : Deployment)
    (attempts : List Attempt) (moments : List (Moment Unit)) (outcome : Except Failure Unit)
    (after : Deployment) : Prop extends after.Quiet where
  done : outcome = .ok ()
  steps : moments.filterMap Moment.mark? = attempts.flatMap Attempt.marks
  rows : after.registry = { d.registry with
    deliveries := d.registry.deliveries ++ attempts.filterMap Attempt.row? }
  faithful : ∀ x ∈ attempts, ∀ t, x.trial = .ok t →
    t.Faithful w a kind d.registry moments x.channel

/-- An attempt that is a run on its channel by itself, as a part of the course of a larger run.  The
tables were as given when it began, but for the deliveries that were recorded before. -/
def Attempt.Alone (w : Worker) (a : Alert) (kind : String) (tables : Registry)
    (moments : List (Moment Unit)) (x : Attempt) : Prop :=
  ∃ (before : Deployment) (hitches : List Hitch), before.Quiet ∧ (∀ h ∈ hitches, h.Delays) ∧
    before.registry = { tables with deliveries := before.registry.deliveries } ∧
    let course := before.runAmid hitches (w.notifyChannel a kind x.channel)
    Announced w a kind before [x] course.moments course.outcome course.after ∧
      course.moments <:+: moments

variable {tables : Registry} {d : Deployment} {w : Worker} {a : Alert} {kind : String}

namespace Worker

/-! ## One channel -/

/-- A trial whose row began as pending, and in which sending ran by itself. -/
theorem faithful_of_run {t : Trial} {channel : Channel} {moments : List (Moment Unit)}
    (hBegins : ∃ id time, t.pending = .untried id a.id channel.id kind time)
    (hSends : ∃ (before : Deployment) (hitches : List Hitch),
      Keeping (tables.recording t.pending) before ∧ (∀ h ∈ hitches, h.Delays) ∧
      let sending := before.runAmid hitches (w.notifier.sendAlert a channel kind)
      sending.outcome = t.sent.map (fun _ => ()) ∧ sending.moments <:+: moments) :
    t.Faithful w a kind tables moments channel := by
  have hPending : t.pending.status = Delivery.pending := by
    obtain ⟨id, time, hRow⟩ := hBegins
    rw [hRow]
    rfl
  have hSent : Delivery.pending ≠ Delivery.sent := by decide
  have hFailed : Delivery.pending ≠ Delivery.failed := by decide
  have hApart : Delivery.failed ≠ Delivery.sent := by decide
  obtain ⟨before, hitches, hKeeps, hHitches, hRun⟩ := hSends
  have hRecorded : t.pending ∈ before.registry.deliveries ∧
      before.registry = { tables with deliveries := before.registry.deliveries } := by
    rw [hKeeps.tables_eq]
    exact ⟨List.mem_append_right _ (.head _), rfl⟩
  refine ⟨hBegins, fun hStatus => ?_, fun hStatus => ?_, ⟨fun hStatus => ?_, ?_⟩, before, hitches,
    hRecorded.1, hRecorded.2, hHitches, hRun⟩
  · obtain ⟨e, -, hRow⟩ | ⟨e, -, -, hRow⟩ | ⟨time, -, hOk, hRow⟩ := t.row_cases <;>
      rw [hRow] at hStatus ⊢
    · exact absurd (hPending.symm.trans hStatus) hSent
    · exact absurd hStatus hApart
    · exact ⟨time, hOk, rfl⟩
  · obtain ⟨e, -, hRow⟩ | ⟨e, -, hError, hRow⟩ | ⟨time, -, -, hRow⟩ := t.row_cases <;>
      rw [hRow] at hStatus ⊢
    · exact absurd (hPending.symm.trans hStatus) hFailed
    · exact ⟨e, hError, rfl⟩
    · exact absurd hStatus.symm hApart
  · obtain ⟨e, hError, -⟩ | ⟨e, -, -, hRow⟩ | ⟨time, -, -, hRow⟩ := t.row_cases
    · exact ⟨e, hError⟩
    · exact absurd (hStatus.symm.trans (congrArg Delivery.status hRow)) hFailed
    · exact absurd (hStatus.symm.trans (congrArg Delivery.status hRow)) hSent
  · rintro ⟨e, hError⟩
    rw [Trial.row, hError]
    exact hPending

/-- One channel gets one attempt. -/
theorem notifyChannel_fares (h : d.Quiet) (channel : Channel) :
    (w.notifyChannel a kind channel).Fares Hitch.Delays (fun moments outcome after =>
      ∃ x : Attempt, x.channel = channel ∧ Announced w a kind d [x] moments outcome after) d := by
  rw [notifyChannel_eq]
  refine Fares.now_bind fun h₁ hDelays₁ => ?_
  let time := (h₁.meanwhile d).now
  let q : Request := .registry (.createDelivery (.untried a.id channel.id kind time))
  have hKeeps : Keeping d.registry (h₁.meanwhile d) := (Keeping.mk h rfl).delayed hDelays₁
  refine Fares.attempt_bind (fares_request (q := q) fun h₂ hDelays₂ => ?_)
  have hMarks {reply : Except Failure Delivery} {after : Deployment} {later : List (Moment Unit)}
      (hReply : (h₁.meanwhile d).meet h₂ q = (reply, after)) :
      (d.momentAmid h₁ .now :: ([(h₁.meanwhile d).momentAmid h₂ q] ++ later)).filterMap
        Moment.mark? = .recorded (some channel.id) reply :: later.filterMap Moment.mark? := by
    show Mark.recorded (some channel.id) ((h₁.meanwhile d).meet h₂ q).1 :: _ = _
    rw [hReply]
    rfl
  obtain ⟨e, after, hReply, hKept⟩ | ⟨id, after, hReply, hFresh, hKept⟩ :=
    hKeeps.create hDelays₂ a.id channel.id kind time <;> rw [hReply]
  · refine (report_idles hKept _ _ _ _ _).mono fun later outcome final ⟨hDone, hNone, hFinal⟩ => ?_
    refine ⟨⟨channel, .error e⟩, rfl, hFinal.toQuiet, hDone, ?_, ?_, ?_⟩
    · rw [hMarks hReply, hNone]
      rfl
    · rw [hFinal.tables_eq]
      exact congrArg (fun rows => { d.registry with deliveries := rows })
        (List.append_nil d.registry.deliveries).symm
    · intro x hx t hTrial
      obtain rfl := List.mem_singleton.mp hx
      cases hTrial
  · refine (deliver_fares hFresh hKept channel).mono fun later outcome final
      ⟨hDone, t, hPending, hSteps, hFinal, hitches, hHitches, hSent, hPart⟩ => ?_
    refine ⟨⟨channel, .ok t⟩, rfl, hFinal.toQuiet, hDone, ?_, hFinal.tables_eq, ?_⟩
    · rw [hMarks hReply, hSteps, ← hPending]
      rfl
    · intro x hx t' hTrial
      obtain rfl := List.mem_singleton.mp hx
      obtain rfl := Except.ok.inj hTrial
      refine faithful_of_run ⟨id, time, hPending⟩
        ⟨after, hitches, hPending ▸ hKept, hHitches, hSent, ?_⟩
      exact hPart.trans (List.suffix_append [d.momentAmid h₁ .now, _] later).isInfix

/-! ## All channels -/

theorem faithful_mono {tables' : Registry} {t : Trial} {channel : Channel}
    {moments more : List (Moment Unit)}
    (hTables : tables' = { tables with deliveries := tables'.deliveries })
    (hMoments : moments <:+: more) (h : t.Faithful w a kind tables' moments channel) :
    t.Faithful w a kind tables more channel := by
  refine ⟨h.begins, h.sent, h.failed, h.pending, ?_⟩
  obtain ⟨before, hitches, hMem, hBefore, hHitches, hSent, hPart⟩ := h.sends
  rw [hTables] at hBefore
  exact ⟨before, hitches, hMem, hBefore, hHitches, hSent, hPart.trans hMoments⟩

theorem alone_mono {tables' : Registry} {x : Attempt} {moments more : List (Moment Unit)}
    (hTables : tables' = { tables with deliveries := tables'.deliveries })
    (hMoments : moments <:+: more) (h : x.Alone w a kind tables' moments) :
    x.Alone w a kind tables more := by
  obtain ⟨before, hitches, hQuiet, hHitches, hBefore, hAnnounced, hPart⟩ := h
  rw [hTables] at hBefore
  exact ⟨before, hitches, hQuiet, hHitches, hBefore, hAnnounced, hPart.trans hMoments⟩

theorem announced_append {xs ys : List Attempt} {first later : List (Moment Unit)}
    {mid after : Deployment} {done outcome : Except Failure Unit}
    (hFirst : Announced w a kind d xs first done mid)
    (hLater : Announced w a kind mid ys later outcome after) :
    Announced w a kind d (xs ++ ys) (first ++ later) outcome after where
  toQuiet := hLater.toQuiet
  done := hLater.done
  steps := by
    rw [List.filterMap_append, List.flatMap_append, hFirst.steps, hLater.steps]
  rows := by
    rw [hLater.rows, hFirst.rows, List.filterMap_append, ← List.append_assoc]
  faithful x hx t hTrial := by
    rcases List.mem_append.mp hx with hIn | hIn
    · exact faithful_mono rfl ⟨[], later, rfl⟩ (hFirst.faithful x hIn t hTrial)
    · refine faithful_mono ?_ ⟨first, [], List.append_nil _⟩ (hLater.faithful x hIn t hTrial)
      rw [hFirst.rows]

theorem notifyChannels_fares (h : d.Quiet) (channels : List Channel) :
    (w.notifyChannels a kind channels).Fares Hitch.Delays (fun moments outcome after =>
      ∃ attempts : List Attempt, attempts.map Attempt.channel = channels.filter Channel.enabled ∧
        Announced w a kind d attempts moments outcome after ∧
        ∀ x ∈ attempts, x.Alone w a kind d.registry moments) d := by
  induction channels generalizing d with
  | nil =>
      refine fares_pure ⟨[], rfl, ⟨h, rfl, rfl, ?_, List.forall_mem_nil _⟩, List.forall_mem_nil _⟩
      exact congrArg (fun rows => { d.registry with deliveries := rows })
        (List.append_nil d.registry.deliveries).symm
  | cons channel rest ih =>
      unfold notifyChannels
      cases hEnabled : channel.enabled with
      | false =>
          rw [List.filter_cons_of_neg (by rw [hEnabled]; exact Bool.false_ne_true)]
          exact ih h
      | true =>
          rw [List.filter_cons_of_pos hEnabled]
          refine Fares.bind (((notifyChannel_fares h channel).and (fares_run _ d)).mono
            fun moments outcome mid ⟨⟨x, hChannel, hFirst⟩, hitches, hHitches, hRun⟩ => ?_)
          obtain rfl := hFirst.done
          refine (ih hFirst.toQuiet).mono
            fun later outcome after ⟨attempts, hRest, hLater, hAlone⟩ => ?_
          refine ⟨x :: attempts, congrArg₂ List.cons hChannel hRest,
            announced_append hFirst hLater, List.forall_mem_cons.mpr ⟨?_, fun y hy => ?_⟩⟩
          · refine ⟨d, hitches, h, hHitches, rfl, ?_⟩
            rw [hChannel, hRun]
            exact ⟨hFirst, [], later, rfl⟩
          · refine alone_mono ?_ ⟨moments, [], List.append_nil _⟩ (hAlone y hy)
            rw [hFirst.rows]

/-- A transition is announced to the channels of the team that are enabled, in the order in which they
are listed, and to no others; only a team whose channels cannot be listed hears nothing.  Each channel
gets one attempt.  First a row of its own is recorded as pending.  If that succeeds, sending is tried
once, and then the row is updated with the outcome: the row that is left tells it truly, and stays
pending exactly if the update failed.  What the attempts leave are their rows and nothing else, and no
attempt hangs on another: each is a run on its channel by itself. -/
theorem transition_announced (w : Worker) (a : Alert) (kind : String) (hQuiet : d.Quiet)
    {hitches : List Hitch} (hHitches : ∀ h ∈ hitches, h.Delays) :
    let course := d.runAmid hitches (w.notifyTeam a kind)
    let first := hitches.head?.getD .absent
    (∀ e, first.failure = some e → course.outcome = .error e ∧
      course.moments.filterMap Moment.mark? = [] ∧ course.after.registry = d.registry) ∧
    (first.failure = none → ∃ attempts : List Attempt,
      attempts.map Attempt.channel = (d.registry.channelsOf a.teamId).filter Channel.enabled ∧
      Announced w a kind d attempts course.moments course.outcome course.after ∧
      ∀ x ∈ attempts, x.Alone w a kind d.registry course.moments) := by
  intro course first
  have hDelays : first.Delays := by
    cases hitches with
    | nil => exact Hitch.absent_delays
    | cons h rest => exact hHitches h (.head _)
  have hKeeps : Keeping d.registry (first.meanwhile d) := (Keeping.mk hQuiet rfl).delayed hDelays
  let q : Request := .registry (.listChannels a.teamId false)
  constructor
  · intro e hFails
    have hMet : d.meet first q = (.error e, first.meanwhile d) := by
      rw [meet, hFails]
      rfl
    have hCourse : course = ⟨[d.momentAmid first q], .error e, first.meanwhile d⟩ :=
      runAmid_request_failed hMet
    rw [hCourse]
    exact ⟨rfl, rfl, hKeeps.tables_eq⟩
  · intro hCarriedOut
    have hMet : ∃ mid, d.meet first q = (.ok (d.registry.channelsOf a.teamId), mid) ∧
        Keeping d.registry mid := by
      rw [meet, hCarriedOut, hKeeps.perform_eq_apply, hKeeps.tables_eq, Registry.listChannels_eq]
      exact ⟨_, rfl, ⟨hKeeps.unit, hKeeps.staged, hQuiet.there⟩, rfl⟩
    obtain ⟨mid, hMet, hMid⟩ := hMet
    let rest := mid.runAmid hitches.tail (w.notifyChannels a kind (d.registry.channelsOf a.teamId))
    have hCourse : course = { rest with moments := d.momentAmid first q :: rest.moments } :=
      runAmid_request_ok hMet
    obtain ⟨attempts, hChannels, hRest, hAlone⟩ := (notifyChannels_fares hMid.toQuiet
      (d.registry.channelsOf a.teamId)).course Hitch.absent_delays
        fun h hMem => hHitches h (List.mem_of_mem_tail hMem)
    rw [hCourse]
    have hPart : rest.moments <:+: d.momentAmid first q :: rest.moments :=
      ⟨[d.momentAmid first q], [], List.append_nil _⟩
    rw [hMid.tables_eq] at hAlone
    refine ⟨attempts, hChannels, ⟨hRest.toQuiet, hRest.done, hRest.steps, ?_, ?_⟩,
      fun x hx => alone_mono rfl hPart (hAlone x hx)⟩
    · rw [hRest.rows, hMid.tables_eq]
    · intro x hx t hTrial
      have hFaithful := hRest.faithful x hx t hTrial
      rw [hMid.tables_eq] at hFaithful
      exact faithful_mono rfl hPart hFaithful

/-- A team with three webhook channels, of which one is not enabled and none has a webhook. -/
def pagedDeployment : Deployment :=
  let channel (id : Int) (enabled : Bool) : Channel :=
    ⟨id, 1, "Pager", Channel.webhookKind, enabled, ⟨0⟩, ⟨0⟩⟩
  { Deployment.initial ⟨1000⟩ false with
    registry := { Registry.empty with channels := [channel 1 true, channel 2 false, channel 3 true] } }

/-- Hitches that let the first delivery fail to be recorded. -/
def unrecordedFirst : List Hitch :=
  [.absent, .absent, ⟨id, some (.registry "create_alert_notification")⟩]

/-- The two enabled channels get their attempts. -/
theorem pagers_announced :
    pagedDeployment.Quiet ∧ (∀ h ∈ unrecordedFirst, h.Delays) ∧
      let w : Worker := ⟨"worker-a", Worker.usualLeaseMicros, ⟨none⟩⟩
      let a : Alert :=
        ⟨1, 1, 1, "Spike", none, Alert.triggered, 1, 1, 4, false, none, none, ⟨0⟩, ⟨0⟩⟩
      let course := pagedDeployment.runAmid unrecordedFirst (w.notifyTeam a "triggered")
      ∃ attempts : List Attempt, attempts.length = 2 ∧ Announced w a "triggered" pagedDeployment
        attempts course.moments course.outcome course.after := by
  have hQuiet : pagedDeployment.Quiet := ⟨rfl, rfl, rfl⟩
  have hDelays : ∀ h ∈ unrecordedFirst, h.Delays := by
    have hFails : (⟨id, some (.registry "create_alert_notification")⟩ : Hitch).Delays :=
      Hitch.absent_delays
    intro h hMem
    simp only [unrecordedFirst, List.mem_cons, List.not_mem_nil, or_false] at hMem
    obtain rfl | rfl | rfl := hMem
    exacts [Hitch.absent_delays, Hitch.absent_delays, hFails]
  refine ⟨hQuiet, hDelays, ?_⟩
  intro w a course
  obtain ⟨attempts, hChannels, hAnnounced, -⟩ :=
    (transition_announced w a "triggered" hQuiet hDelays).2 rfl
  refine ⟨attempts, ?_, hAnnounced⟩
  have hLength := congrArg List.length hChannels
  rwa [List.length_map, Registry.channelsOf, ((List.mergeSort_perm _ _).filter _).length_eq]
    at hLength

end Worker

end Triage
