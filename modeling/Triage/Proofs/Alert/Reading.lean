import Triage.Proofs.Alert.Halves
import Triage.Proofs.Alert.SoundRules
import Triage.Proofs.Deployment.Additions

/-!
# Sound alerts and who keeps them so

A sound alert has a sound rule and stamps that fit its status.  Users and workers write whole rows:
what they have read, with one half changed.  So a task keeps the alerts sound if what it has read is
sound, and if the time at which it moves an alert was told after it had read the alert.  A `Reading`
keeps book of both, and says what may be asked (`Reading.conduct`).  A request that may be asked
keeps all alerts sound (`AlertsSound.perform`) and leaves its task with sound knowledge
(`AlertsSound.note`).
-/

namespace Triage

open Program Conduct

/-- An alert whose stamps fit its status: a triggered one was triggered, and not before it was last
resolved; an active one that was ever triggered was resolved since. -/
structure Alert.SoundState (a : Alert) : Prop where
  known : a.status = Alert.active ∨ a.status = Alert.triggered
  triggered : a.status = Alert.triggered →
    ∃ t, a.lastTriggeredAt = some t ∧ ∀ u, a.resolvedAt = some u → u ≤ t
  active : a.status = Alert.active → ∀ t, a.lastTriggeredAt = some t →
    ∃ u, a.resolvedAt = some u ∧ t ≤ u

/-- A sound alert. -/
structure Alert.Sound (a : Alert) : Prop extends a.SoundRule, a.SoundState

/-- An alert whose stamps are not after a time. -/
structure Alert.PastAt (a : Alert) (time : Instant) : Prop where
  triggered : ∀ t, a.lastTriggeredAt = some t → t ≤ time
  resolved : ∀ t, a.resolvedAt = some t → t ≤ time

namespace Alert

variable {a b : Alert} {time later : Instant}

theorem PastAt.mono (h : a.PastAt time) (hLater : time ≤ later) : a.PastAt later where
  triggered t ht := Int.le_trans (h.triggered t ht) hLater
  resolved t ht := Int.le_trans (h.resolved t ht) hLater

/-- The state is that of the columns that workers keep. -/
theorem SoundState.of_half (h : a.SoundState) (hHalf : Half.state.of b.draft = Half.state.of a.draft) :
    b.SoundState := by
  simp only [Half.of, Alert.draft, AlertDraft.mk.injEq, Option.some.injEq, true_and, and_true] at hHalf
  obtain ⟨hStatus, hTriggered, hResolved⟩ := hHalf
  constructor
  · rw [hStatus]
    exact h.known
  · rw [hStatus, hTriggered, hResolved]
    exact h.triggered
  · rw [hStatus, hTriggered, hResolved]
    exact h.active

theorem PastAt.of_half (h : a.PastAt time) (hHalf : Half.state.of b.draft = Half.state.of a.draft) :
    b.PastAt time := by
  simp only [Half.of, Alert.draft, AlertDraft.mk.injEq, Option.some.injEq, true_and, and_true] at hHalf
  obtain ⟨-, hTriggered, hResolved⟩ := hHalf
  constructor
  · rw [hTriggered]
    exact h.triggered
  · rw [hResolved]
    exact h.resolved

/-- An alert that has just been created: active, and without a stamp. -/
structure Fresh (a : Alert) : Prop where
  active : a.status = Alert.active
  untriggered : a.lastTriggeredAt = none
  unresolved : a.resolvedAt = none

theorem Fresh.soundState (h : a.Fresh) : a.SoundState where
  known := .inl h.active
  triggered hTriggered := absurd (h.active.symm.trans hTriggered) (by decide)
  active _ t ht := by
    rw [h.untriggered] at ht
    cases ht

theorem Fresh.pastAt (h : a.Fresh) (time : Instant) : a.PastAt time where
  triggered t ht := by
    rw [h.untriggered] at ht
    cases ht
  resolved t ht := by
    rw [h.unresolved] at ht
    cases ht

/-- What is written over an alert that was read, once some times have been told: it is moved at one of
these times, or its rule is edited. -/
inductive Revised (a : Alert) (times : List Instant) : Alert → Prop
  | triggered {time : Instant} (hTold : time ∈ times) : a.Revised times (a.trigger time)
  | resolved {time : Instant} (hTold : time ∈ times) : a.Revised times (a.resolve time)
  | edited {b : Alert} (hRule : a.SoundRule → b.SoundRule)
      (hState : Half.state.of b.draft = Half.state.of a.draft) : a.Revised times b

variable {times : List Instant}

/-- A sound alert stays sound when it is moved at a time that is not before its stamps, and when its
rule is edited. -/
theorem Revised.sound (h : a.Revised times b) (hSound : a.Sound)
    (hPast : ∀ t ∈ times, a.PastAt t) : b.Sound := by
  cases h with
  | @triggered time hTold =>
      have hState : (a.trigger time).SoundState :=
        { known := .inr rfl
          triggered := fun _ => ⟨time, rfl, (hPast time hTold).resolved⟩
          active := fun hActive => absurd (a := Alert.triggered = Alert.active) hActive (by decide) }
      exact { hSound.toSoundRule, hState with }
  | @resolved time hTold =>
      have hState : (a.resolve time).SoundState :=
        { known := .inl rfl
          triggered := fun hTriggered =>
            absurd (a := Alert.active = Alert.triggered) hTriggered (by decide)
          active := fun _ t ht => ⟨time, rfl, (hPast time hTold).triggered t ht⟩ }
      exact { hSound.toSoundRule, hState with }
  | edited hRule hHalf =>
      exact { hRule hSound.toSoundRule, hSound.toSoundState.of_half hHalf with }

theorem Revised.pastAt (h : a.Revised times b) (hPast : a.PastAt later)
    (hTimes : ∀ t ∈ times, t ≤ later) : b.PastAt later := by
  cases h with
  | triggered hTold =>
      refine ⟨fun t ht => ?_, hPast.resolved⟩
      obtain rfl := Option.some.inj ht
      exact hTimes _ hTold
  | resolved hTold =>
      refine ⟨hPast.triggered, fun t ht => ?_⟩
      obtain rfl := Option.some.inj ht
      exact hTimes _ hTold
  | edited hRule hHalf => exact hPast.of_half hHalf

/-- Soundness does not depend on what an alert keeps of the row that it is written over. -/
theorem Sound.over (h : a.Sound) (row : Alert) : (a.over row).Sound :=
  ⟨⟨h.named, h.short, h.bare, h.positive, h.condition, h.timeframe, h.described⟩,
    h.known, h.triggered, h.active⟩

theorem PastAt.over (h : a.PastAt time) (row : Alert) : (a.over row).PastAt time :=
  ⟨h.triggered, h.resolved⟩

end Alert

/-- What a task has read of the alerts, and the times that it was told since. -/
structure Reading where
  known : List Alert
  times : List Instant

namespace Reading

def initial : Reading := ⟨[], []⟩

/-- What is read with the reply to a request. -/
def note (s : Reading) (_ : Deployment) : (q : Request) → Except Failure q.Reply → Reading
  | .registry (.listAlerts _), .ok listed => ⟨Prod.fst listed, []⟩
  | .registry (.getAlert _), .ok row => ⟨[row], []⟩
  | .now, .ok time => { s with times := time :: s.times }
  | _, _ => s

/-- What may be asked after a reading: alerts are created sound, and written over by what is made of
a reading, and no pause goes back. -/
def mayAsk (s : Reading) : Request → Prop
  | .registry (.createAlert d) =>
    ∀ id now a, d.complete id now = .ok a → a.SoundRule ∧ a.Fresh
  | .registry (.updateAlert d) => ∃ a ∈ s.known, ∃ b, a.Revised s.times b ∧ d = b.draft
  | .pause micros => 0 ≤ micros
  | _ => True

/-- The conduct of tasks that keep alerts sound. -/
def conduct : Conduct Reading := ⟨note, mayAsk⟩

/-- What is known of the alerts is sound, and was read before the times that have been told since. -/
structure Holds (s : Reading) (now : Instant) : Prop where
  sound : ∀ a ∈ s.known, a.Sound
  past : ∀ a ∈ s.known, a.PastAt now
  order : ∀ a ∈ s.known, ∀ t ∈ s.times, a.PastAt t
  times : ∀ t ∈ s.times, t ≤ now

variable {s : Reading} {now later : Instant}

theorem holds_initial (now : Instant) : initial.Holds now where
  sound a ha := by cases ha
  past a ha := by cases ha
  order a ha := by cases ha
  times t ht := by cases ht

theorem Holds.mono (h : s.Holds now) (hLater : now ≤ later) : s.Holds later where
  sound := h.sound
  past a ha := (h.past a ha).mono hLater
  order := h.order
  times t ht := Int.le_trans (h.times t ht) hLater

/-- Alerts that have just been read. -/
theorem holds_of_rows {rows : List Alert} (hRows : ∀ a ∈ rows, a.Sound ∧ a.PastAt now) :
    Holds ⟨rows, []⟩ now where
  sound a ha := (hRows a ha).1
  past a ha := (hRows a ha).2
  order a ha t ht := by cases ht
  times t ht := by cases ht

/-- A time that has just been told. -/
theorem Holds.told (h : s.Holds now) : Holds { s with times := now :: s.times } now where
  sound := h.sound
  past := h.past
  order a ha := List.forall_mem_cons.mpr ⟨h.past a ha, h.order a ha⟩
  times := List.forall_mem_cons.mpr ⟨Int.le_refl _, h.times⟩

end Reading

namespace Deployment

/-- All alerts are sound, with no stamp from the future, and no unit of work is open. -/
structure AlertsSound (d : Deployment) : Prop where
  unit : d.openUnit = none
  sound : ∀ a ∈ d.registry.alerts, a.Sound ∧ a.PastAt d.now

variable {d : Deployment} {s : Reading} {q : Request}

/-- Time does not go back in a request that may be asked. -/
theorem now_le_of_mayAsk (hMay : s.mayAsk q) : d.now ≤ (d.perform q).2.now := by
  refine d.perform_now_le fun micros hPause => ?_
  subst hPause
  exact hMay

/-- A request that may be asked keeps the alerts sound. -/
theorem AlertsSound.perform (h : d.AlertsSound) (hReading : s.Holds d.now) (hMay : s.mayAsk q) :
    (d.perform q).2.AlertsSound := by
  have hLater : d.now ≤ (d.perform q).2.now := now_le_of_mayAsk hMay
  refine ⟨d.perform_openUnit h.unit q, fun a ha => ?_⟩
  suffices hSound : a.Sound ∧ a.PastAt d.now from ⟨hSound.1, hSound.2.mono hLater⟩
  obtain hSame | ⟨call, reply, freshUuid, hCall, hRun⟩ := d.perform_cases h.unit q
  · rw [hSame] at ha
    exact h.sound a ha
  obtain rfl := Request.eq_of_call? hCall
  obtain hOld | ⟨draft, id, rfl, hNew⟩ | ⟨draft, row, rfl, hOnto⟩ :=
    Registry.mem_alerts_run hRun ha
  · exact h.sound a hOld
  · obtain ⟨hRule, hFresh⟩ := hMay id d.now a hNew
    exact ⟨{ hRule, hFresh.soundState with }, hFresh.pastAt d.now⟩
  · obtain ⟨before, hKnown, b, hRevised, rfl⟩ := hMay
    obtain rfl := Except.ok.inj ((b.onto_draft row).symm.trans hOnto)
    have hSound : b.Sound :=
      hRevised.sound (hReading.sound before hKnown) (hReading.order before hKnown)
    have hPast : b.PastAt d.now := hRevised.pastAt (hReading.past before hKnown) hReading.times
    exact ⟨hSound.over row, hPast.over row⟩

/-- What a task knows stays sound in a request of its own. -/
theorem AlertsSound.note (h : d.AlertsSound) (hReading : s.Holds d.now) (hMay : s.mayAsk q) :
    (s.note d q (d.perform q).1).Holds (d.perform q).2.now := by
  refine Reading.Holds.mono ?_ (now_le_of_mayAsk hMay)
  cases q with
  | registry call =>
      obtain ⟨e, hReply, -⟩ | ⟨reply, freshUuid, hReply, hRun⟩ := d.perform_call h.unit call
      · rw [hReply]
        cases call <;> exact hReading
      · rw [hReply]
        cases call with
        | listAlerts p =>
            exact Reading.holds_of_rows fun a ha =>
              h.sound a (Registry.mem_of_listAlerts hRun a ha)
        | getAlert id =>
            refine Reading.holds_of_rows fun a ha => ?_
            obtain rfl := List.mem_singleton.mp ha
            exact h.sound _ (Registry.mem_of_getAlert hRun)
        | _ => exact hReading
  | now => exact hReading.told
  | _ => exact hReading

end Deployment

/-- A request that writes no alert and does not go back in time. -/
def Request.Apart : Request → Prop
  | .registry call => .alerts ∉ call.writes
  | .pause micros => 0 ≤ micros
  | _ => True

/-- Such a request may be asked after any reading. -/
theorem Request.Apart.mayAsk {q : Request} (h : q.Apart) (s : Reading) : s.mayAsk q := by
  cases q with
  | registry call =>
      cases call with
      | createAlert | updateAlert => exact absurd h (by simp [Request.Apart, RegistryCall.writes])
      | _ => trivial
  | pause micros => exact h
  | _ => trivial

namespace Reading

variable {s : Reading}

/-- What is asked apart from the alerts keeps them sound. -/
theorem keeps_of_apart {p : Program α} (hp : p.Asks Request.Apart) :
    conduct.Keeps (fun _ _ => True) s p :=
  keeps_within (fun _ => True) hp
    (fun s _ _ hApart => ⟨hApart.mayAsk s, fun _ _ => trivial⟩) trivial fun _ _ _ => trivial

/-- The reading of a task that has been told more times since. -/
structure Since (s s' : Reading) : Prop where
  known : s'.known = s.known
  times : ∀ t ∈ s.times, t ∈ s'.times

theorem Since.refl (s : Reading) : s.Since s := ⟨rfl, fun _ ht => ht⟩

theorem Since.trans {s' s'' : Reading} (h : s.Since s') (h' : s'.Since s'') : s.Since s'' :=
  ⟨h'.known.trans h.known, fun t ht => h'.times t (h.times t ht)⟩

theorem since_told (s : Reading) (time : Instant) : s.Since { s with times := time :: s.times } :=
  ⟨rfl, fun _ => List.mem_cons_of_mem time⟩

/-- A request that reads no alerts. -/
def Reads : Request → Prop
  | .registry (.listAlerts _) | .registry (.getAlert _) => True
  | _ => False

theorem since_note {q : Request} (h : ¬Reads q) (before : Deployment)
    (reply : Except Failure q.Reply) : s.Since (s.note before q reply) := by
  cases q with
  | registry call =>
      cases call with
      | listAlerts | getAlert => exact absurd trivial h
      | _ => exact .refl s
  | now =>
      cases reply with
      | error e => exact .refl s
      | ok time => exact since_told s time
  | _ => exact .refl s

end Reading

end Triage
