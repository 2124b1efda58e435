import Triage.Alert.Worker
import Triage.Proofs.Deployment.Adversity
import Triage.Proofs.Deployment.Requests
import Triage.Proofs.Registry.Keys
import Triage.Proofs.Webhook.Sending

/-!
# Trying one delivery

Once its row is recorded, a delivery is sent and the row is updated with what became of that
(`deliver`).  The marks that these steps leave among the moments of the run, and the row that is left
in the end, are told by two outcomes, that of sending and that of updating (`Trial`), whatever fails
and however long it takes (`deliver_fares`).
-/

namespace Triage

open Program Deployment

/-- A step of an announcement: a delivery is recorded, sending begins, a delivery is updated. -/
inductive Mark where
  | recorded (channelId : Option Int) (reply : Except Failure Delivery)
  | sending
  | updated (draft : DeliveryDraft) (reply : Except Failure Unit)

/-- The step of an announcement that a moment is. -/
def Moment.mark? {ι : Type} (m : Moment ι) : Option Mark :=
  match m with
  | ⟨_, .registry (.createDelivery draft), reply, _⟩ => some (.recorded draft.channelId reply)
  | ⟨_, .reach .send, _, _⟩ => some .sending
  | ⟨_, .registry (.updateDelivery draft), reply, _⟩ => some (.updated draft reply)
  | _ => none

/-- A delivery that has not been tried. -/
def Delivery.untried (id alertId channelId : Int) (kind : String) (time : Instant) : Delivery :=
  ⟨id, alertId, channelId, kind, Delivery.pending, none, none, time⟩

/-- The draft of such a delivery. -/
def DeliveryDraft.untried (alertId channelId : Int) (kind : String) (time : Instant) :
    DeliveryDraft :=
  ⟨none, some alertId, some channelId, some kind, some Delivery.pending, none, none, some time⟩

namespace Registry

/-- The tables with another delivery. -/
def recording (r : Registry) (row : Delivery) : Registry :=
  { r with deliveries := r.deliveries ++ [row] }

theorem apply_createDelivery (r : Registry) (now : Instant) (freshUuid : String)
    (alertId channelId : Int) (kind : String) (time : Instant) :
    let row := .untried (nextId (r.deliveries.map Delivery.id)) alertId channelId kind time
    r.apply now freshUuid (.createDelivery (.untried alertId channelId kind time)) =
      (.ok row, r.recording row) := by
  intro row
  let draft : DeliveryDraft := .untried alertId channelId kind time
  have hAdded : addedRow (RegistryCall.operation (.createDelivery draft)) "alert_notifications"
      draft.id (r.deliveries.map Delivery.id) (draft.complete · now) (fun _ => none) = .ok row :=
    addedRow_eq_ok.mpr ⟨rfl, nextId_notMem _, rfl⟩
  exact changed_ok hAdded _

/-- The row that was recorded last is written over, and no other. -/
theorem apply_updateDelivery {r : Registry} {row settled : Delivery}
    (hFresh : row.id ∉ r.deliveries.map Delivery.id) (hSame : settled.id = row.id)
    (hOnto : settled.draft.onto row = .ok settled) (now : Instant) (freshUuid : String) :
    (r.recording row).apply now freshUuid (.updateDelivery settled.draft) =
      (.ok (), r.recording settled) := by
  let isMeant (x : Delivery) : Bool := decide (some x.id = settled.draft.id)
  have hMeant : isMeant row = true := decide_eq_true (congrArg some hSame.symm)
  have hOthers : ∀ x ∈ r.deliveries, isMeant x = false := fun x hx => decide_eq_false fun h =>
    hFresh (List.mem_map.mpr ⟨x, hx, (Option.some.inj h).trans hSame⟩)
  have hFind : (r.deliveries ++ [row]).find? isMeant = some row := by
    rw [List.find?_append, List.find?_eq_none.mpr fun x hx => Bool.eq_false_iff.mp (hOthers x hx),
      Option.none_or, List.find?_cons_of_pos hMeant]
  have hRows : ((r.deliveries ++ [row]).map fun x => if isMeant x then settled else x) =
      r.deliveries ++ [settled] := by
    have hKept : (r.deliveries.map fun x => if isMeant x then settled else x) = r.deliveries := by
      refine (List.map_congr_left fun x hx => ?_).trans (List.map_id _)
      rw [hOthers x hx]
      rfl
    rw [List.map_append, hKept, List.map_singleton, if_pos hMeant]
  have hUpdated : updatedRows (RegistryCall.operation (.updateDelivery settled.draft)) isMeant
      settled.draft.onto (.delivery settled.draft.id) (r.recording row).deliveries =
        .ok (r.deliveries ++ [settled]) :=
    updatedRows_eq_ok.mpr ⟨row, settled, hFind, hOnto, hRows.symm⟩
  exact written_ok hUpdated _

end Registry

/-- What became of a delivery that was recorded: the time at which it was known to be sent or the
failure to send it, and whether its row could be updated. -/
structure Trial where
  pending : Delivery
  sent : Except Failure Instant
  stored : Except Failure Unit

namespace Trial

/-- The row with the outcome of sending. -/
def settled (t : Trial) : Delivery :=
  match t.sent with
  | .ok time => { t.pending with status := Delivery.sent, sentAt := some time }
  | .error e => { t.pending with status := Delivery.failed, errorMessage := some e.message }

/-- The row that is left in the end. -/
def row (t : Trial) : Delivery :=
  match t.stored with
  | .ok _ => t.settled
  | .error _ => t.pending

/-- The row stays as it was, or it tells whether sending succeeded. -/
theorem row_cases (t : Trial) :
    (∃ e, t.stored = .error e ∧ t.row = t.pending) ∨
      (∃ e, t.stored = .ok () ∧ t.sent = .error e ∧
        t.row = { t.pending with status := Delivery.failed, errorMessage := some e.message }) ∨
      ∃ time, t.stored = .ok () ∧ t.sent = .ok time ∧
        t.row = { t.pending with status := Delivery.sent, sentAt := some time } := by
  obtain ⟨pending, sent, stored⟩ := t
  cases stored with
  | error e => exact .inl ⟨e, rfl, rfl⟩
  | ok _ =>
      cases sent with
      | error e => exact .inr (.inl ⟨e, rfl, rfl, rfl⟩)
      | ok time => exact .inr (.inr ⟨time, rfl, rfl, rfl⟩)

theorem settled_id (t : Trial) : t.settled.id = t.pending.id := by
  rw [settled]
  split <;> rfl

theorem onto_pending (t : Trial) : t.settled.draft.onto t.pending = .ok t.settled := by
  rw [settled]
  split <;> rfl

end Trial

/-- A quiet deployment with given tables. -/
structure Deployment.Keeping (tables : Registry) (d : Deployment) : Prop extends d.Quiet where
  tables_eq : d.registry = tables

theorem Webhook.Notifier.Onward.unmarked {ι : Type} {m : Moment ι}
    (h : Webhook.Notifier.Onward m.request) : m.mark? = none := by
  obtain ⟨mark, q, reply, before⟩ := m
  obtain ⟨hAsked, hNot⟩ := h
  cases hAsked with
  | reach stage => cases stage <;> first | exact absurd rfl hNot | rfl
  | _ => rfl

variable {tables : Registry} {d : Deployment} {w : Worker} {a : Alert} {kind : String}

namespace Deployment.Keeping

theorem delayed {h : Hitch} (hDelays : h.Delays) (hKeeps : Keeping tables d) :
    Keeping tables (h.meanwhile d) := by
  obtain ⟨micros, hMeanwhile⟩ := hDelays
  rw [hMeanwhile]
  exact ⟨⟨hKeeps.unit, hKeeps.staged, hKeeps.there⟩, hKeeps.tables_eq⟩

/-- A program that keeps the tables at each of its requests keeps them. -/
theorem fares {ask : Request → Prop} {p : Program α} (hAsks : p.Asks ask)
    (hKeep : ∀ (d : Deployment) q, ask q → d.Quiet → (d.perform q).2.registry = d.registry)
    (hKeeps : Keeping tables d) :
    p.Fares Hitch.Delays (fun moments _ after =>
      (∀ m ∈ moments, ask m.request) ∧ Keeping tables after) d := by
  refine (fares_of_asks (Keeping tables) hAsks (fun _ _ hDelays h => h.delayed hDelays)
    (fun d q hAsk h => ⟨h.toQuiet.perform q, ?_⟩) hKeeps).mono
    fun _ _ _ ⟨hAsked, hAfter⟩ => ⟨fun m hm => (hAsked m hm).1, hAfter⟩
  exact (hKeep d q hAsk h.toQuiet).trans h.tables_eq

/-- A delivery cannot be recorded, or a row of its own is added for it. -/
theorem create {h : Hitch} (hDelays : h.Delays) (hKeeps : Keeping tables d) (alertId channelId : Int)
    (kind : String) (time : Instant) :
    (∃ e after, d.meet h (.registry (.createDelivery (.untried alertId channelId kind time))) =
        (.error e, after) ∧ Keeping tables after) ∨
      ∃ (id : Int) (after : Deployment),
        d.meet h (.registry (.createDelivery (.untried alertId channelId kind time))) =
          (.ok (.untried id alertId channelId kind time), after) ∧
        id ∉ tables.deliveries.map Delivery.id ∧
        Keeping (tables.recording (.untried id alertId channelId kind time)) after := by
  have hDelayed := hKeeps.delayed hDelays
  obtain ⟨e, hFail⟩ | hDone :=
    d.meet_cases h (.registry (.createDelivery (.untried alertId channelId kind time)))
  · exact .inl ⟨_, _, hFail, hDelayed⟩
  · rw [hDelayed.perform_eq_apply, hDelayed.tables_eq, Registry.apply_createDelivery] at hDone
    have hThere := hDelayed.there
    rw [hDelayed.tables_eq] at hThere
    exact .inr ⟨_, _, hDone, nextId_notMem _, ⟨⟨hDelayed.unit, hDelayed.staged, hThere⟩, rfl⟩⟩

/-- The row that was recorded last cannot be updated, or it is. -/
theorem update {h : Hitch} (hDelays : h.Delays) {row settled : Delivery}
    (hFresh : row.id ∉ tables.deliveries.map Delivery.id) (hSame : settled.id = row.id)
    (hOnto : settled.draft.onto row = .ok settled) (hKeeps : Keeping (tables.recording row) d) :
    (∃ e after, d.meet h (.registry (.updateDelivery settled.draft)) = (.error e, after) ∧
        Keeping (tables.recording row) after) ∨
      ∃ after, d.meet h (.registry (.updateDelivery settled.draft)) = (.ok (), after) ∧
        Keeping (tables.recording settled) after := by
  have hDelayed := hKeeps.delayed hDelays
  obtain ⟨e, hFail⟩ | hDone := d.meet_cases h (.registry (.updateDelivery settled.draft))
  · exact .inl ⟨_, _, hFail, hDelayed⟩
  · rw [hDelayed.perform_eq_apply, hDelayed.tables_eq,
      Registry.apply_updateDelivery hFresh hSame hOnto] at hDone
    have hThere := hDelayed.there
    rw [hDelayed.tables_eq] at hThere
    exact .inr ⟨_, hDone, ⟨⟨hDelayed.unit, hDelayed.staged, hThere⟩, rfl⟩⟩

end Deployment.Keeping

/-! ## The parts of an attempt -/

namespace Worker

/-- Stores what became of a delivery; a failure to do so is only logged. -/
def storeDelivery (delivery : Delivery) : Program Unit := do
  request (.noteChange (.delivery delivery))
  match ← (registry (.updateDelivery delivery.draft)).attempt with
  | .ok _ => return ()
  | .error e =>
    report .error .worker ("Failed to update notification record: " ++ e.message)
      [("notification_id", .int delivery.id)] none

/-- Sends a delivery whose row is recorded, and stores what became of it. -/
def deliver (w : Worker) (a : Alert) (kind : String) (channel : Channel) (pending : Delivery) :
    Program Unit := do
  match ← (w.notifier.sendAlert a channel kind).attempt with
  | .ok () => storeDelivery { pending with status := Delivery.sent, sentAt := some (← now) }
  | .error e =>
    report .error .worker ("Failed to send " ++ kind ++ " notification via " ++ channel.kind
      ++ " channel: " ++ e.message)
      [("alert_id", .int a.id), ("channel_id", .int channel.id)] none
    storeDelivery { pending with status := Delivery.failed, errorMessage := some e.message }

/-- An attempt to notify a channel records a row and delivers. -/
theorem notifyChannel_eq (w : Worker) (a : Alert) (kind : String) (channel : Channel) :
    w.notifyChannel a kind channel = (do
      let time ← now
      let created ← (registry (.createDelivery (.untried a.id channel.id kind time))).attempt
      match created with
      | .error e =>
        report .error .worker ("Failed to create notification record: " ++ e.message)
          [("alert_id", .int a.id), ("channel_id", .int channel.id)] none
      | .ok pending => w.deliver a kind channel pending) := by
  refine bind_congr fun time => bind_congr fun created => ?_
  cases created with
  | error e => rfl
  | ok pending =>
      refine bind_congr fun sent => ?_
      cases sent with
      | ok _ => rfl
      | error e => rfl

/-- What a part of an announcement leaves that takes none of its steps: the tables, and no failure. -/
def Idles (tables : Registry) (moments : List (Moment Unit)) (outcome : Except Failure Unit)
    (after : Deployment) : Prop :=
  outcome = .ok () ∧ moments.filterMap Moment.mark? = [] ∧ Keeping tables after

theorem report_idles (hKeeps : Keeping tables d) (severity : Log.Severity)
    (component : Log.Component) (message : String) (subjects : List (String × Json))
    (failure : Option Failure) :
    (report severity component message subjects failure).Fares Hitch.Delays (Idles tables) d := by
  refine fares_request fun h hDelays => ?_
  have hDelayed := hKeeps.delayed hDelays
  rw [meet_sure rfl]
  exact ⟨rfl, rfl, ⟨hDelayed.unit, hDelayed.staged, hDelayed.there⟩, hDelayed.tables_eq⟩

/-- Sending begins once and leaves the tables as they are, and it is a run by itself. -/
theorem sendAlert_fares (hKeeps : Keeping tables d) (channel : Channel) :
    (w.notifier.sendAlert a channel kind).Fares Hitch.Delays (fun moments outcome after =>
      moments.filterMap Moment.mark? = [.sending] ∧ Keeping tables after ∧
        ∃ hitches : List Hitch, (∀ h ∈ hitches, h.Delays) ∧
          d.runAmid hitches (w.notifier.sendAlert a channel kind) = ⟨moments, outcome, after⟩) d := by
  have hSteps : (w.notifier.sendAlert a channel kind).Fares Hitch.Delays
      (fun moments _ _ => moments.filterMap Moment.mark? = [.sending]) d := by
    obtain ⟨rest, hSend, hRest⟩ := w.notifier.send_eq
      (fun status time => .good (Webhook.Payload.ofAlert a status time)) (.ofChannel channel) kind
    rw [Webhook.Notifier.sendAlert, hSend]
    refine Fares.request_bind (fun _ _ _ _ => rfl) fun h _ _ _ => ?_
    refine (fares_asked hRest _).mono fun later _ _ hAsked => ?_
    have hNone : later.filterMap Moment.mark? = [] :=
      List.filterMap_eq_nil_iff.mpr fun m hm => (hAsked m hm).unmarked
    exact congrArg (Mark.sending :: ·) hNone
  have hKept := hKeeps.fares (w.notifier.sendAlert_asks a channel kind)
    fun d q hAsked hQuiet => hAsked.perform_registry hQuiet.unit
  exact ((hSteps.and hKept).and (fares_run _ d)).mono
    fun _ _ _ ⟨⟨hSteps, _, hKept⟩, hRun⟩ => ⟨hSteps, hKept, hRun⟩

/-- The outcome of sending is stored, or the row stays as it was. -/
theorem storeDelivery_fares (t : Trial) (hFresh : t.pending.id ∉ tables.deliveries.map Delivery.id)
    (hKeeps : Keeping (tables.recording t.pending) d) :
    (storeDelivery t.settled).Fares Hitch.Delays (fun moments outcome after =>
      outcome = .ok () ∧ ∃ stored : Except Failure Unit,
        moments.filterMap Moment.mark? = [.updated t.settled.draft stored] ∧
        Keeping (tables.recording { t with stored }.row) after) d := by
  refine Fares.request_bind (fun h e _ hReply => ?_) fun h _ hDelays _ => ?_
  · rw [meet_sure rfl] at hReply
    cases hReply
  have hDelayed := hKeeps.delayed hDelays
  have hNoted : d.meet h (.noteChange (.delivery t.settled)) = (.ok (), h.meanwhile d) := by
    rw [meet_sure rfl]
    exact congrArg (Prod.mk _) ((h.meanwhile d).noteChange_eq hDelayed.unit _)
  rw [hNoted]
  let q : Request := .registry (.updateDelivery t.settled.draft)
  refine Fares.attempt_bind (fares_request (q := q) fun h' hDelays' => ?_)
  have hMarks {reply : Except Failure Unit} {after : Deployment} {later : List (Moment Unit)}
      (hReply : (h.meanwhile d).meet h' q = (reply, after))
      (hNone : later.filterMap Moment.mark? = []) :
      (d.momentAmid h (.noteChange (.delivery t.settled)) ::
        ([(h.meanwhile d).momentAmid h' q] ++ later)).filterMap Moment.mark? =
      [.updated t.settled.draft reply] := by
    show .updated t.settled.draft ((h.meanwhile d).meet h' q).1 ::
      later.filterMap Moment.mark? = _
    rw [hReply, hNone]
  obtain ⟨e, after, hReply, hKept⟩ | ⟨after, hReply, hKept⟩ :=
    hDelayed.update hDelays' hFresh t.settled_id t.onto_pending <;> rw [hReply]
  · refine (report_idles hKept _ _ _ _ _).mono fun later outcome final ⟨hDone, hNone, hFinal⟩ => ?_
    exact ⟨hDone, .error e, hMarks hReply hNone, hFinal⟩
  · exact ⟨rfl, .ok (), hMarks hReply rfl, hKept⟩

/-- A delivery is sent once, and then its row is updated with the outcome. -/
theorem deliver_fares {pending : Delivery} (hFresh : pending.id ∉ tables.deliveries.map Delivery.id)
    (hKeeps : Keeping (tables.recording pending) d) (channel : Channel) :
    (w.deliver a kind channel pending).Fares Hitch.Delays (fun moments outcome after =>
      outcome = .ok () ∧ ∃ t : Trial, t.pending = pending ∧
        moments.filterMap Moment.mark? = [.sending, .updated t.settled.draft t.stored] ∧
        Keeping (tables.recording t.row) after ∧
        ∃ hitches : List Hitch, (∀ h ∈ hitches, h.Delays) ∧
          let sending := d.runAmid hitches (w.notifier.sendAlert a channel kind)
          sending.outcome = t.sent.map (fun _ => ()) ∧ sending.moments <:+: moments) d := by
  refine Fares.attempt_bind ((sendAlert_fares hKeeps channel).mono
    fun sending sent mid ⟨hSending, hMid, hitches, hHitches, hRun⟩ => ?_)
  -- What is said of the whole once the outcome of sending is noted.
  have hEnd {t : Trial} {later : List (Moment Unit)} (noted : List (Moment Unit))
      (hSent : sent = t.sent.map fun _ => ()) (hNoted : noted.filterMap Moment.mark? = [])
      (hLater : later.filterMap Moment.mark? = [.updated t.settled.draft t.stored]) :
      (sending ++ (noted ++ later)).filterMap Moment.mark? =
          [.sending, .updated t.settled.draft t.stored] ∧
        ∃ hitches : List Hitch, (∀ h ∈ hitches, h.Delays) ∧
          let course := d.runAmid hitches (w.notifier.sendAlert a channel kind)
          course.outcome = t.sent.map (fun _ => ()) ∧
            course.moments <:+: sending ++ (noted ++ later) := by
    refine ⟨?_, hitches, hHitches, ?_⟩
    · rw [List.filterMap_append, List.filterMap_append, hSending, hNoted, hLater]
      rfl
    · rw [hRun]
      exact ⟨hSent, [], noted ++ later, rfl⟩
  cases sent with
  | ok _ =>
      refine Fares.now_bind fun h hDelays => ?_
      let time := (h.meanwhile mid).now
      refine (storeDelivery_fares ⟨pending, .ok time, .ok ()⟩ hFresh (hMid.delayed hDelays)).mono
        fun later outcome final ⟨hDone, stored, hLater, hFinal⟩ => ?_
      let t : Trial := ⟨pending, .ok time, stored⟩
      obtain ⟨hMarks, hRun⟩ := hEnd (t := t) [mid.momentAmid h .now] rfl rfl hLater
      exact ⟨hDone, t, rfl, hMarks, hFinal, hRun⟩
  | error e =>
      refine Fares.bind ((report_idles hMid _ _ _ _ _).mono
        fun noted outcome after ⟨hDone, hNone, hAfter⟩ => ?_)
      subst hDone
      refine (storeDelivery_fares ⟨pending, .error e, .ok ()⟩ hFresh hAfter).mono
        fun later outcome final ⟨hDone, stored, hLater, hFinal⟩ => ?_
      let t : Trial := ⟨pending, .error e, stored⟩
      obtain ⟨hMarks, hRun⟩ := hEnd (t := t) noted rfl hNone hLater
      exact ⟨hDone, t, rfl, hMarks, hFinal, hRun⟩

end Worker

end Triage
