import Triage.Proofs.Alert.Turns
import Triage.Proofs.Alert.Watch

/-!
# Transitions of workers side by side

Workers with distinct names run their ticks over one deployment, and no lease is found expired while
its holder is still evaluating.  The leases then keep all other workers away from an alert between
grant and release, but a worker decides on the status that it listed before it was granted the
lease.  So the transitions of an alert alternate exactly when each is stored by a worker that was
granted its lease while the alert still had the status that it had listed
(`transitions_alternate_iff`).  When an alert has changed in between, the same transition is stored
and announced twice in a row (`transition_repeated`).
-/

namespace Triage

/-- The status that a draft gives an alert. -/
def AlertDraft.statusFor (a : Int) (d : AlertDraft) : Option String :=
  if d.id = some a then d.status else none

/-- The status that is stored for an alert in a moment. -/
def Moment.transition (m : Moment ι) (a : Int) : Option String :=
  (m.request.stored m.reply).bind (AlertDraft.statusFor a)

/-- The kind of the notification about an alert that is begun in a moment. -/
def Moment.announces (m : Moment ι) (a : Int) : Option String :=
  match m.request with
  | .registry (.createDelivery d) => if d.alertId = some a then d.kind else none
  | _ => none

/-- The statuses that are stored for an alert, in order. -/
def transitions (a : Int) (trace : List (Moment ι)) : List String :=
  trace.filterMap fun m => m.transition a

/-- Every notification about an alert is about its last transition. -/
def AnnouncesLast (a : Int) : Option String → List (Moment ι) → Prop
  | _, [] => True
  | last, m :: rest =>
    (∀ kind ∈ m.announces a, kind ∈ last.map Alert.kindOf) ∧
      AnnouncesLast a ((m.transition a).or last) rest

namespace Watch

variable {ι : Type} [DecidableEq ι]

/-- No lease is found expired while its holder is still evaluating: once it has been, the holder
asks for nothing but to give it back. -/
def LeasesLast (v : Watch ι) : List (Moment ι) → Prop
  | [] => True
  | m :: rest =>
    (v.lapsed m.mark = true →
      ∀ h ∈ (v.standing m.mark).held, m.request.givesBack h.lease = true) ∧
      (v.after m).LeasesLast rest

instance decidableLeasesLast : (v : Watch ι) → (trace : List (Moment ι)) →
    Decidable (v.LeasesLast trace)
  | _, [] => .isTrue trivial
  | v, m :: rest =>
    have := decidableLeasesLast (v.after m) rest
    inferInstanceAs (Decidable (_ ∧ _))

/-- Whoever stores a transition of an alert was granted the lease while the alert still had the
status that it was listed with. -/
def ListsInTime (a : Int) (v : Watch ι) : List (Moment ι) → Prop
  | [] => True
  | m :: rest =>
    ((m.transition a).isSome = true → ∀ h ∈ (v.standing m.mark).held,
      ((v.standing m.mark).listed a).map Alert.status = h.found.map Alert.status) ∧
      ListsInTime a (v.after m) rest

end Watch

/-- Workers over one deployment, each before some ticks. -/
def Crew.ofWorkers {ι : Type} (d : Deployment) (w : ι → Worker) (n : ι → Nat)
    (correlation : ι → Option String) : Crew ι Unit :=
  ⟨d, fun i => ⟨(w i).ticks (n i), correlation i⟩⟩

/-- Workers, each on its way through its ticks: they keep to their conduct, hold leases in their own
names, and those that have not lapsed are in the ledger. -/
structure OnShift {ι : Type} (w : ι → Worker) (v : Watch ι) (c : Crew ι Unit) : Prop
    extends Underway (fun i => (w i).conduct) v c where
  holder : ∀ i, ∀ h ∈ (v.standing i).held, h.lease.holder = (w i).instanceId
  lease : ∀ i, ∀ h ∈ (v.standing i).held, v.lapsed i = false →
    h.lease ∈ c.deployment.registry.leases

/-- What the row of an alert is, given its last transition: under a lease it is the row that was
found, until a transition is stored, and this is then the last one.  As long as there has been none,
everyone who listed the alert knows the row as it is. -/
structure Tracked {ι : Type} (a : Int) (v : Watch ι) (last : Option String) (r : Registry) :
    Prop where
  found : ∀ i, ∀ h ∈ (v.standing i).held, v.lapsed i = false → h.lease.alertId = a →
    h.stored = none → r.alert? a = h.found
  stored : ∀ i, ∀ h ∈ (v.standing i).held, v.lapsed i = false → h.lease.alertId = a →
    h.stored = none ∨ h.stored = last
  status : ∀ status ∈ last, (r.alert? a).map Alert.status = some status ∧
    (status = Alert.active ∨ status = Alert.triggered)
  untouched : last = none → ∀ i, ∀ x ∈ (v.standing i).known, x.id = a → r.alert? a = some x

theorem Alert.draft_statusFor (a : Int) (b : Alert) :
    b.draft.statusFor a = if b.id = a then some b.status else none := by
  simp [Alert.draft, AlertDraft.statusFor]

theorem Alert.Flips.statuses {x b : Alert} (h : x.Flips b) :
    (x.status = Alert.active ∧ b.status = Alert.triggered) ∨
      (x.status = Alert.triggered ∧ b.status = Alert.active) := by
  cases h with
  | trigger time hActive => exact .inl ⟨hActive, rfl⟩
  | resolve time hTriggered => exact .inr ⟨hTriggered, rfl⟩

/-- Of the two statuses, a transition leads away from the one exactly when it does not lead to
it. -/
theorem Alert.Flips.status_eq_iff {x b : Alert} (h : x.Flips b) {status : String}
    (hStatus : status = Alert.active ∨ status = Alert.triggered) :
    x.status = status ↔ b.status ≠ status := by
  have hNe : Alert.active ≠ Alert.triggered := by decide
  rcases h.statuses with ⟨hx, hb⟩ | ⟨hx, hb⟩ <;> rcases hStatus with rfl | rfl <;>
    simp [hx, hb, hNe, hNe.symm]

/-- Asking to give a lease back ends the holding. -/
theorem Standing.held_note_of_givesBack {s : Standing} {d : Deployment} {q : Request}
    {reply : Except Failure q.Reply} {l : Lease} (h : q.givesBack l = true) :
    (s.note d q reply).held = none := by
  cases q with
  | registry call => cases call <;> first | rfl | exact absurd h Bool.false_ne_true
  | _ => exact absurd h Bool.false_ne_true

/-- A worker gives back only leases of its own. -/
theorem Worker.holder_of_givesBack {w : Worker} {s : Standing} {q : Request} {l : Lease}
    (hMay : w.mayAsk s q) (h : q.givesBack l = true) : l.holder = w.instanceId := by
  cases q with
  | registry call =>
      cases call with
      | releaseLease alertId holder =>
          obtain ⟨-, -, -, rfl⟩ := hMay
          have hBoth : alertId = l.alertId ∧ w.instanceId = l.holder := by
            simpa [Request.givesBack, Request.call?, RegistryCall.givesBack] using h
          exact hBoth.2.symm
      | _ => exact absurd h Bool.false_ne_true
  | _ => exact absurd h Bool.false_ne_true

namespace OnShift

variable {ι : Type} {w : ι → Worker} {v : Watch ι} {c : Crew ι Unit} {i j : ι} {q : Request}
  {next : Except Failure q.Reply → Program Unit}

/-- The turn that a request of a worker is. -/
theorem turn (hShift : OnShift w v c) (hProgram : (c.task i).program = .ask q next) :
    (w i).Turn (v.standing i) c.deployment.registry ((c.found i).perform q).2.registry
      ((v.standing i).note (c.found i) q ((c.found i).perform q).1)
      (q.stored ((c.found i).perform q).1) :=
  Worker.turn (d := c.found i) hShift.unit hShift.keyed (hShift.allows hProgram)

/-- Two workers never hold leases on one alert that have not lapsed. -/
theorem holder_unique (hShift : OnShift w v c)
    (hDistinct : Function.Injective fun i => (w i).instanceId) {h g : Holding}
    (hHeld : h ∈ (v.standing i).held) (hHeld' : g ∈ (v.standing j).held)
    (hRuns : v.lapsed i = false) (hRuns' : v.lapsed j = false)
    (hSame : h.lease.alertId = g.lease.alertId) : i = j := by
  have hKeys := hShift.keyed.leases
  have hFind := find?_key_eq_some hKeys (hShift.lease i h hHeld hRuns)
  have hFind' := find?_key_eq_some hKeys (hShift.lease j g hHeld' hRuns')
  rw [hSame] at hFind
  have hLease : h.lease = g.lease := Option.some.inj (hFind.symm.trans hFind')
  apply hDistinct
  calc (w i).instanceId = h.lease.holder := (hShift.holder i h hHeld).symm
    _ = g.lease.holder := by rw [hLease]
    _ = (w j).instanceId := hShift.holder j g hHeld'

/-- The clocks do not matter. -/
theorem advance (hShift : OnShift w v c) (micros : Int) :
    OnShift w v { c with deployment := c.deployment.advance micros } :=
  ⟨hShift.toUnderway.advance micros, hShift.holder, hShift.lease⟩

variable [DecidableEq ι]

/-- A request leaves every lease in the ledger that is held after it and has not lapsed. -/
theorem lease_after (hShift : OnShift w v c)
    (hDistinct : Function.Injective fun i => (w i).instanceId)
    (hProgram : (c.task i).program = .ask q next) {h : Holding}
    (hHeld : h ∈ ((v.after (c.moment i q)).standing j).held)
    (hRuns : (v.after (c.moment i q)).lapsed j = false) :
    h.lease ∈ ((c.found i).perform q).2.registry.leases := by
  -- What was held before stays in the ledger, unless this request gives it back.
  have hKept : ∀ g ∈ (v.standing j).held, q.givesBack g.lease = false →
      g.lease ∈ ((c.found i).perform q).2.registry.leases := fun g hg hBack => by
    obtain ⟨hBefore, hFound⟩ := Watch.lapsed_before hg hRuns
    exact Deployment.perform_mem_leases (d := c.found i) hShift.unit hShift.keyed
      (hShift.lease j g hg hBefore) hFound hBack
  by_cases hj : j = i
  · subst hj
    have hTurn := hShift.turn hProgram
    rw [Watch.after_self] at hHeld
    -- The worker itself holds something after the request, so it has given nothing back.
    have hBack : ∀ l, q.givesBack l = false := fun l => by
      rw [← Bool.not_eq_true]
      intro hGiven
      rw [Standing.held_note_of_givesBack hGiven] at hHeld
      simp at hHeld
    generalize (v.standing j).note _ q _ = s' at hTurn hHeld
    generalize q.stored _ = st at hTurn
    cases hTurn with
    | aside | listed => exact hKept h hHeld (hBack h.lease)
    | granted hAlerts hFree hHolder hMem =>
        obtain rfl := Option.some.inj hHeld
        exact hMem
    | released => simp at hHeld
    | @stored g x b row hg =>
        obtain rfl := Option.some.inj hHeld
        exact hKept g hg (hBack g.lease)
  · -- Another worker gives back leases in its own name only.
    rw [Watch.after_other hj] at hHeld
    refine hKept h hHeld (Bool.eq_false_iff.mpr fun hGiven => hj (hDistinct ?_))
    calc (w j).instanceId = h.lease.holder := (hShift.holder j h hHeld).symm
      _ = (w i).instanceId := Worker.holder_of_givesBack (hShift.allows hProgram) hGiven

/-- A turn of a worker on shift. -/
theorem afterRequest (hShift : OnShift w v c)
    (hDistinct : Function.Injective fun i => (w i).instanceId)
    (hProgram : (c.task i).program = .ask q next) :
    OnShift w (v.after (c.moment i q)) (c.afterRequest i q next) where
  toUnderway := hShift.toUnderway.afterRequest (fun _ => rfl) hProgram
  holder j h hHeld := by
    by_cases hj : j = i
    · subst hj
      have hTurn := hShift.turn hProgram
      rw [Watch.after_self] at hHeld
      generalize (v.standing j).note _ q _ = s' at hTurn hHeld
      generalize q.stored _ = st at hTurn
      cases hTurn with
      | aside | listed => exact hShift.holder j h hHeld
      | granted hAlerts hFree hHolder =>
          obtain rfl := Option.some.inj hHeld
          exact hHolder
      | released => simp at hHeld
      | @stored g x b row hg =>
          obtain rfl := Option.some.inj hHeld
          exact hShift.holder j g hg
    · rw [Watch.after_other hj] at hHeld
      exact hShift.holder j h hHeld
  lease j h hHeld hRuns := hShift.lease_after hDistinct hProgram hHeld hRuns

/-- A transition of an alert is stored by a worker that holds the lease of the alert and has listed
it, and it is the first one under that lease. -/
theorem stored_turn (hShift : OnShift w v c) (hProgram : (c.task i).program = .ask q next)
    (hLasts : v.lapsed i = true → ∀ h ∈ (v.standing i).held, q.givesBack h.lease = true)
    {a : Int} {status : String} (hTransition : (c.moment i q).transition a = some status) :
    ∃ g x b row, g ∈ (v.standing i).held ∧ v.lapsed i = false ∧ g.stored = none ∧
      g.lease.alertId = a ∧ (v.standing i).listed a = some x ∧ x.id = a ∧ x ∈ (v.standing i).known ∧
      x.Flips b ∧ b.status = status ∧
      ((c.found i).perform q).2.registry.alert? a = some (b.over row) ∧
      ((v.after (c.moment i q)).standing i).held = some { g with stored := some b.status } := by
  have hTurn := hShift.turn hProgram
  have hBack : ∀ l, q.givesBack l = true →
      ((v.standing i).note (c.found i) q ((c.found i).perform q).1).held = none :=
    fun l hGiven => Standing.held_note_of_givesBack hGiven
  have hStored : (q.stored ((c.found i).perform q).1).bind (AlertDraft.statusFor a) = some status :=
    hTransition
  rw [Watch.after_self]
  generalize (v.standing i).note _ q _ = s' at hTurn hBack ⊢
  generalize q.stored _ = st at hTurn hStored
  cases hTurn with
  | @stored g x b row hHeld hFresh hKnown hAlert hFlips hRow hAfter =>
      have hEq : x.id = a ∧ b.status = status := by
        simpa [Alert.draft_statusFor, hFlips.id_eq] using hStored
      obtain ⟨rfl, rfl⟩ := hEq
      -- Had the lease been found expired, the request would have given it back.
      refine ⟨g, x, b, row, hHeld, ?_, hFresh, hAlert, ?_, rfl, hKnown, hFlips, rfl, ?_, rfl⟩
      · rw [← Bool.not_eq_true]
        intro hLapsed
        cases hBack g.lease (hLasts hLapsed g hHeld)
      · exact find?_key_eq_some (hShift.keys i) hKnown
      · rw [hAfter, if_pos rfl]
  | _ => cases hStored

/-- When a transition of the alert is stored, no other worker holds a lease on it. -/
theorem tracked_stored (hShift : OnShift w v c)
    (hDistinct : Function.Injective fun i => (w i).instanceId) {a : Int} {r : Registry}
    {g : Holding} {b row : Alert} (hHeld : g ∈ (v.standing i).held) (hRuns : v.lapsed i = false)
    (hAlert : g.lease.alertId = a) (hRow : r.alert? a = some (b.over row))
    (hStatus : b.status = Alert.active ∨ b.status = Alert.triggered)
    (hAfter : ((v.after (c.moment i q)).standing i).held
      = some { g with stored := some b.status }) :
    Tracked a (v.after (c.moment i q)) (some b.status) r := by
  -- Only the worker that stored the transition still holds a lease on the alert.
  have hSelf : ∀ j, ∀ h ∈ ((v.after (c.moment i q)).standing j).held,
      (v.after (c.moment i q)).lapsed j = false → h.lease.alertId = a →
        h.stored = some b.status := by
    intro j h hj hRuns' hAlert'
    by_cases hEq : j = i
    · subst hEq
      rw [hAfter] at hj
      obtain rfl := Option.some.inj hj
      rfl
    · rw [Watch.after_other hEq] at hj
      exact absurd (hShift.holder_unique hDistinct hj hHeld (Watch.lapsed_before hj hRuns').1 hRuns
        (hAlert'.trans hAlert.symm)) hEq
  exact {
    found := fun j h hj hRuns' hAlert' hFresh => by
      rw [hSelf j h hj hRuns' hAlert'] at hFresh
      cases hFresh
    stored := fun j h hj hRuns' hAlert' => .inr (hSelf j h hj hRuns' hAlert')
    status := fun status hLast => by
      obtain rfl := Option.some.inj hLast
      exact ⟨by rw [hRow]; rfl, hStatus⟩
    untouched := fun hNone => by cases hNone }

end OnShift

namespace Tracked

variable {ι : Type} {w : ι → Worker} {a : Int} {v : Watch ι} {last : Option String}
  {c : Crew ι Unit} {i : ι} {q : Request} {next : Except Failure q.Reply → Program Unit}

/-- A notification about an alert is begun only for its last transition. -/
theorem announces_last (hTracked : Tracked a v last c.deployment.registry) (hShift : OnShift w v c)
    (hProgram : (c.task i).program = .ask q next)
    (hLasts : v.lapsed i = true → ∀ h ∈ (v.standing i).held, q.givesBack h.lease = true) :
    ∀ kind ∈ (c.moment i q).announces a, kind ∈ last.map Alert.kindOf := by
  intro kind hKind
  have hMay := hShift.allows hProgram
  cases q with
  | registry call =>
      cases call with
      | createDelivery d =>
          obtain ⟨h, status, hHeld, hStored, hAlert, hKindOf⟩ := hMay
          have hAbout : d.alertId = some a := by
            by_contra hNe
            simp [Moment.announces, Crew.moment, hNe] at hKind
          have hKind' : d.kind = some kind := by
            simpa [Moment.announces, Crew.moment, hAbout] using hKind
          have hId : h.lease.alertId = a := Option.some.inj (hAlert.symm.trans hAbout)
          have hRuns : v.lapsed i = false := by
            rw [← Bool.not_eq_true]
            intro hLapsed
            cases hLasts hLapsed h hHeld
          rcases hTracked.stored i h hHeld hRuns hId with hNone | hLast
          · rw [hStored] at hNone
            cases hNone
          · rw [← hLast, hStored, Option.map_some, ← hKindOf, hKind']
            rfl
      | _ => cases hKind
  | _ => cases hKind

variable [DecidableEq ι]

/-- A turn in which no transition of the alert is stored. -/
theorem quiet (hTracked : Tracked a v last c.deployment.registry) {r : Registry}
    (hRow : r.alert? a = c.deployment.registry.alert? a)
    (hHeld : ∀ h ∈ ((v.after (c.moment i q)).standing i).held,
      (v.after (c.moment i q)).lapsed i = false → h.lease.alertId = a →
        (h.stored = none → c.deployment.registry.alert? a = h.found) ∧
          (h.stored = none ∨ h.stored = last))
    (hKnown : last = none → ∀ x ∈ ((v.after (c.moment i q)).standing i).known, x.id = a →
      c.deployment.registry.alert? a = some x) :
    Tracked a (v.after (c.moment i q)) last r where
  found j h hj hRuns hAlert hFresh := by
    rw [hRow]
    by_cases hSelf : j = i
    · subst hSelf
      exact (hHeld h hj hRuns hAlert).1 hFresh
    · rw [Watch.after_other hSelf] at hj
      exact hTracked.found j h hj (Watch.lapsed_before hj hRuns).1 hAlert hFresh
  stored j h hj hRuns hAlert := by
    by_cases hSelf : j = i
    · subst hSelf
      exact (hHeld h hj hRuns hAlert).2
    · rw [Watch.after_other hSelf] at hj
      exact hTracked.stored j h hj (Watch.lapsed_before hj hRuns).1 hAlert
  status status hStatus := by
    rw [hRow]
    exact hTracked.status status hStatus
  untouched hNone j x hx hId := by
    rw [hRow]
    by_cases hSelf : j = i
    · subst hSelf
      exact hKnown hNone x hx hId
    · rw [Watch.after_other hSelf] at hx
      exact hTracked.untouched hNone j x hx hId

/-- What is tracked of an alert goes on through a turn in which no lease is found expired that is
still used. -/
theorem afterRequest (hTracked : Tracked a v last c.deployment.registry) (hShift : OnShift w v c)
    (hDistinct : Function.Injective fun i => (w i).instanceId)
    (hProgram : (c.task i).program = .ask q next)
    (hLasts : v.lapsed i = true → ∀ h ∈ (v.standing i).held, q.givesBack h.lease = true) :
    Tracked a (v.after (c.moment i q)) (((c.moment i q).transition a).or last)
      (c.afterRequest i q next).deployment.registry := by
  cases hTransition : (c.moment i q).transition a with
  | some status =>
      obtain ⟨g, x, b, row, hHeld, hRuns, -, hAlert, -, -, -, hFlips, rfl, hRow, hAfter⟩ :=
        hShift.stored_turn hProgram hLasts hTransition
      refine hShift.tracked_stored hDistinct hHeld hRuns hAlert hRow ?_ hAfter
      rcases hFlips.statuses with ⟨-, hb⟩ | ⟨-, hb⟩
      · exact .inr hb
      · exact .inl hb
  | none =>
      have hStored : (q.stored ((c.found i).perform q).1).bind (AlertDraft.statusFor a) = none :=
        hTransition
      have hTurn := hShift.turn hProgram
      -- The row changes only when a transition of the alert itself is stored.
      have hRow : ((c.found i).perform q).2.registry.alert? a = c.deployment.registry.alert? a := by
        generalize (v.standing i).note _ q _ = s' at hTurn
        generalize q.stored _ = st at hTurn hStored
        cases hTurn with
        | aside hAlerts | listed hAlerts | granted hAlerts | released hAlerts =>
            exact Registry.alert?_congr hAlerts a
        | @stored g x b row hHeld hFresh hKnown hAlert hFlips hx hAfter =>
            have hNe : a ≠ x.id := by
              rintro rfl
              simp [Alert.draft_statusFor, hFlips.id_eq] at hStored
            rw [hAfter, if_neg hNe]
      have hLapsed : ∀ h ∈ (v.standing i).held, (v.after (c.moment i q)).lapsed i = false →
          v.lapsed i = false := fun h hHeld hRuns => (Watch.lapsed_before hHeld hRuns).1
      rw [Option.none_or]
      refine hTracked.quiet hRow ?_ ?_ <;> rw [Watch.after_self]
      · generalize (v.standing i).note _ q _ = s' at hTurn
        generalize q.stored _ = st at hTurn hStored
        intro h hHeld hRuns hAlert
        cases hTurn with
        | aside | listed =>
            have hBefore := hLapsed h hHeld hRuns
            exact ⟨hTracked.found i h hHeld hBefore hAlert, hTracked.stored i h hHeld hBefore hAlert⟩
        | granted =>
            obtain rfl := Option.some.inj hHeld
            subst hAlert
            exact ⟨fun _ => rfl, .inl rfl⟩
        | released => simp at hHeld
        | @stored g x b row hg hFresh hKnown hx hFlips =>
            -- A transition of another alert, because none of this one is stored.
            obtain rfl := Option.some.inj hHeld
            have hId : x.id = a := hx.symm.trans hAlert
            simp [Alert.draft_statusFor, hFlips.id_eq, hId] at hStored
      · generalize (v.standing i).note _ q _ = s' at hTurn
        generalize q.stored _ = st at hTurn
        intro hNone x hx hId
        cases hTurn with
        | listed hAlerts hFree hKeys hRows =>
            subst hId
            exact hRows x hx
        | _ => exact hTracked.untouched hNone i x hx hId

/-- A transition is stored in time exactly when it is not the last one over again. -/
theorem inTime_iff (hTracked : Tracked a v last c.deployment.registry) (hShift : OnShift w v c)
    (hProgram : (c.task i).program = .ask q next)
    (hLasts : v.lapsed i = true → ∀ h ∈ (v.standing i).held, q.givesBack h.lease = true)
    {status : String} (hTransition : (c.moment i q).transition a = some status) :
    (∀ h ∈ (v.standing i).held,
        ((v.standing i).listed a).map Alert.status = h.found.map Alert.status) ↔
      ∀ before ∈ last, before ≠ status := by
  obtain ⟨g, x, b, row, hHeld, hRuns, hFresh, hAlert, hListed, hId, hKnown, hFlips, rfl, -⟩ :=
    hShift.stored_turn hProgram hLasts hTransition
  have hFound := hTracked.found i g hHeld hRuns hAlert hFresh
  have hOnly : (∀ h ∈ (v.standing i).held,
      ((v.standing i).listed a).map Alert.status = h.found.map Alert.status) ↔
        some x.status = (c.deployment.registry.alert? a).map Alert.status := by
    rw [Option.mem_def] at hHeld
    simp [hHeld, hListed, hFound]
  rw [hOnly]
  cases hLast : last with
  | none =>
      -- Nothing has been stored yet, so everyone has listed the row as it still is.
      rw [hTracked.untouched hLast i x hKnown hId]
      simp
  | some before =>
      obtain ⟨hStatus, hTwo⟩ := hTracked.status before hLast
      rw [hStatus]
      simpa [eq_comm] using hFlips.status_eq_iff hTwo

end Tracked

section

variable {ι : Type}

/-- Workers before their ticks. -/
theorem OnShift.initial {d : Deployment} (hUnit : d.openUnit = none) (hKeyed : d.registry.Keyed)
    (w : ι → Worker) (n : ι → Nat) (correlation : ι → Option String) :
    OnShift w Watch.initial (Crew.ofWorkers d w n correlation) where
  unit := hUnit
  keyed := hKeyed
  keeps i := (Worker.ticks_keep rfl (n i)).mono fun _ _ _ => trivial
  keys _ := List.nodup_nil
  holder i h hHeld := by cases hHeld
  lease i h hHeld := by cases hHeld

theorem Tracked.initial (a : Int) (r : Registry) : Tracked a (Watch.initial (ι := ι)) none r where
  found i h hHeld := by cases hHeld
  stored i h hHeld := by cases hHeld
  status status hLast := by cases hLast
  untouched _ i x hx := by cases hx

variable [DecidableEq ι] {w : ι → Worker} {a : Int} {v : Watch ι} {last : Option String}
  {c : Crew ι Unit}

theorem isChain_toList_append {R : α → α → Prop} {first : Option α} {a : α} {rest : List α} :
    (first.toList ++ a :: rest).IsChain R ↔ (∀ b ∈ first, R b a) ∧ (a :: rest).IsChain R := by
  cases first <;> simp

/-- The whole run of a shift, from any point on. -/
theorem OnShift.run (hDistinct : Function.Injective fun i => (w i).instanceId)
    (schedule : List (Move ι)) (hShift : OnShift w v c)
    (hTracked : Tracked a v last c.deployment.registry)
    (hLasts : v.LeasesLast (c.run schedule).1) :
    ((last.toList ++ transitions a (c.run schedule).1).IsChain (· ≠ ·) ↔
        v.ListsInTime a (c.run schedule).1) ∧
      (∀ status ∈ transitions a (c.run schedule).1,
        status = Alert.active ∨ status = Alert.triggered) ∧
      AnnouncesLast a last (c.run schedule).1 := by
  -- The last transition is carried along: the next one continues the chain from it.
  induction schedule generalizing v last c with
  | nil => cases last <;> simp [Crew.run, transitions, Watch.ListsInTime, AnnouncesLast]
  | cons move rest ih =>
      cases move with
      | clock micros => exact ih (hShift.advance micros) hTracked hLasts
      | turn i =>
          cases hProgram : (c.task i).program with
          | ask q next =>
              rw [Crew.run_turn hProgram] at hLasts ⊢
              have hAfter := hTracked.afterRequest hShift hDistinct hProgram hLasts.1
              obtain ⟨hChain, hTwo, hAnnounce⟩ :=
                ih (hShift.afterRequest hDistinct hProgram) hAfter hLasts.2
              have hHere := hTracked.announces_last hShift hProgram hLasts.1
              rw [transitions, List.filterMap_cons]
              cases hTransition : (c.moment i q).transition a with
              | none =>
                  rw [hTransition, Option.none_or] at hChain hAnnounce
                  refine ⟨hChain.trans ?_, hTwo, hHere, ?_⟩
                  · simp [Watch.ListsInTime, hTransition]
                  · rwa [hTransition, Option.none_or]
              | some status =>
                  have hInTime := hTracked.inTime_iff hShift hProgram hLasts.1 hTransition
                  rw [hTransition, Option.some_or] at hChain hAnnounce hAfter
                  refine ⟨?_, ?_, hHere, ?_⟩
                  · rw [isChain_toList_append, ← hInTime]
                    refine (and_congr_right' hChain).trans (and_congr_left' ?_)
                    exact ⟨fun h _ => h, fun h => h (by rw [hTransition]; rfl)⟩
                  · rw [List.forall_mem_cons]
                    exact ⟨(hAfter.status status rfl).2, hTwo⟩
                  · rwa [hTransition, Option.some_or]
          | _ =>
              rw [Crew.run_ended (by simp [hProgram])] at hLasts ⊢
              exact ih hShift hTracked hLasts

end

/-- For every interleaving of the ticks of workers with distinct names in which no lease is found
expired while its holder is still evaluating, and for every alert: its transitions alternate
between triggering and resolving exactly when each is stored by a worker that was granted the lease
while the alert still had the status that the worker had listed.  Every notification is about the
last transition. -/
theorem transitions_alternate_iff {ι : Type} [DecidableEq ι] {d : Deployment}
    (hUnit : d.openUnit = none) (hKeyed : d.registry.Keyed) (w : ι → Worker)
    (hDistinct : Function.Injective fun i => (w i).instanceId) (n : ι → Nat)
    (correlation : ι → Option String) (schedule : List (Move ι))
    (hLasts : Watch.initial.LeasesLast ((Crew.ofWorkers d w n correlation).run schedule).1)
    (a : Int) :
    let trace := ((Crew.ofWorkers d w n correlation).run schedule).1
    ((transitions a trace).IsChain (· ≠ ·) ↔ Watch.initial.ListsInTime a trace) ∧
      (∀ status ∈ transitions a trace, status = Alert.active ∨ status = Alert.triggered) ∧
      AnnouncesLast a none trace :=
  OnShift.run hDistinct schedule (OnShift.initial hUnit hKeyed w n correlation)
    (Tracked.initial a d.registry) hLasts

/-- A triggered alert that no issue speaks for any more, and a channel of its team. -/
def overdueAlert : Deployment :=
  { Deployment.initial ⟨10000000000000000⟩ false with
    registry := { Registry.empty with
      alerts := [⟨1, 1, 1, "Spike", none, Alert.triggered, 1, 1, 4, false, some ⟨0⟩, none, ⟨0⟩, ⟨0⟩⟩]
      channels := [⟨1, 1, "Default Webhook", Channel.webhookKind, true, ⟨0⟩, ⟨0⟩⟩] } }

/-- Two workers with names of their own. -/
def twoWorkers (i : Bool) : Worker :=
  ⟨if i then "worker-b" else "worker-a", Worker.usualLeaseMicros, ⟨none⟩⟩

/-- One worker after the other: the second one lists the alert as the first one has left it. -/
theorem one_worker_after_the_other :
    let c := Crew.ofWorkers overdueAlert twoWorkers (fun _ => 1) fun _ => none
    let trace := (c.run (List.replicate 40 (.turn false) ++ List.replicate 40 (.turn true))).1
    Watch.initial.LeasesLast trace ∧ transitions 1 trace = [Alert.active] ∧
      Watch.initial.ListsInTime 1 trace ∧ AnnouncesLast 1 none trace := by
  intro c trace
  have hLasts : Watch.initial.LeasesLast trace := by decide +kernel
  have hOnce : transitions 1 trace = [Alert.active] := by decide +kernel
  have hKeyed : overdueAlert.registry.Keyed := ⟨by decide, by decide, by decide⟩
  have hDistinct : ∀ i j, (twoWorkers i).instanceId = (twoWorkers j).instanceId → i = j := by decide
  obtain ⟨hIff, -, hAnnounce⟩ := transitions_alternate_iff (d := overdueAlert) rfl hKeyed twoWorkers
    (fun i j => hDistinct i j) (fun _ => 1) (fun _ => none) _ hLasts 1
  exact ⟨hLasts, hOnce, hIff.mp (hOnce ▸ .singleton _), hAnnounce⟩

/-- One worker lists the alert, another one resolves it, and then the first one goes on: it is
granted the lease, because the other one has given it back, and resolves the alert once more. -/
theorem transition_repeated :
    let c := Crew.ofWorkers overdueAlert twoWorkers (fun _ => 1) fun _ => none
    let trace := (c.run (List.replicate 3 (.turn true) ++ List.replicate 40 (.turn false)
      ++ List.replicate 40 (.turn true))).1
    Watch.initial.LeasesLast trace ∧ transitions 1 trace = [Alert.active, Alert.active] ∧
      (trace.filterMap fun m => m.announces 1) = [Webhook.resolvedKind, Webhook.resolvedKind] := by
  decide +kernel

end Triage
