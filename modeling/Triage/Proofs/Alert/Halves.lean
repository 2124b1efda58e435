import Triage.Alert.Management
import Triage.Proofs.Alert.Watch

/-!
# The two halves of an alert

Users edit the rule of an alert and workers keep its state, and both write whole rows: what was read
earlier, with one half changed.  So an edit writes back the state that it has read, and a transition
the rule that it has listed.  For every interleaving of edits and ticks, each half of an alert ends
as its own writers have left it exactly when the last write was made from a reading whose other half
was still the one that the other writers had left (`halves_kept_iff`).  When a worker has stored a
transition between the lookup and the write of an edit, the edit reverts it (`transition_reverted`).
-/

namespace Triage

open Program Conduct

/-- The halves of an alert: the rule that users edit, and the state that workers keep. -/
inductive Half where
  | rule
  | state
deriving DecidableEq, Repr

namespace Half

def other : Half → Half
  | .rule => .state
  | .state => .rule

/-- The columns of one half. -/
def of : Half → AlertDraft → AlertDraft
  | .rule, d =>
    { ruleName := d.ruleName, description := d.description, threshold := d.threshold,
      condition := d.condition, timeframe := d.timeframe, highPriority := d.highPriority }
  | .state, d =>
    { status := d.status, lastTriggeredAt := d.lastTriggeredAt, resolvedAt := d.resolvedAt }

/-- What the writers of a half may ask: an alert is written over only by an alert that was read,
with the other half as it was read. -/
def mayAsk (x : Half) (s : Standing) : Request → Prop
  | .registry (.updateAlert d) =>
    ∃ a ∈ s.known, ∃ b, d = Alert.draft b ∧ b.id = a.id ∧ x.other.of b.draft = x.other.of a.draft
  | .registry call => .alerts ∉ call.writes
  | _ => True

/-- The conduct of the writers of a half. -/
def conduct (x : Half) : Conduct Standing := ⟨Standing.note, x.mayAsk⟩

end Half

theorem Alert.Flips.rule_eq {a b : Alert} (h : a.Flips b) :
    Half.rule.of b.draft = Half.rule.of a.draft := by
  cases h <;> rfl

/-- Workers write the state. -/
theorem Worker.mayAsk_half {w : Worker} {s : Standing} {q : Request} (h : w.mayAsk s q) :
    Half.state.mayAsk s q := by
  cases q with
  | registry call =>
      cases call with
      | updateAlert d =>
          obtain ⟨-, a, b, -, -, hKnown, -, hFlips, rfl⟩ := h
          exact ⟨a, hKnown, b, rfl, hFlips.id_eq, hFlips.rule_eq⟩
      | getAlert => exact h.elim
      | createAlert | deleteAlert => exact absurd h.1 (by simp [RegistryCall.writes])
      | _ => simp [Half.mayAsk, RegistryCall.writes]
  | _ => trivial

/-- What a lookup has replied is known from then on. -/
theorem Alerts.get_keeps (s : Standing) (id : Int) (teamIds : List Int) :
    Half.rule.conduct.Keeps (fun outcome s' => ∀ a, outcome = .ok a → s'.known = [a]) s
      (Alerts.get id teamIds) := by
  unfold Alerts.get
  refine Keeps.bind (keeps_request (by simp [Half.conduct, Half.mayAsk, RegistryCall.writes]) ?_)
  rintro before (e | row)
  · exact fun a hOk => by cases hOk
  · dsimp only
    split
    · exact fun a hOk => by cases hOk; rfl
    · exact fun a hOk => by cases hOk

/-- Checking a rule asks nothing.  The check is given by an equation, because a goal about the check
itself would make the unifier run it. -/
theorem Alerts.asks_of_requireSound {kind : Request → Prop} {name : String}
    {threshold condition timeframe : Int} {checked : Program Unit}
    (h : Alerts.requireSound name threshold condition timeframe = checked) : checked.Asks kind := by
  rw [← h]
  unfold Alerts.requireSound
  split
  · exact asks_throw _
  · exact asks_pure _

theorem Alerts.asks_of_describe {kind : Request → Prop} {threshold condition timeframe : Int}
    {described : Program String}
    (h : Alerts.describe threshold condition timeframe = described) : described.Asks kind := by
  rw [← h]
  exact asks_settle _

/-- Users write the rule. -/
theorem Alerts.update_keeps (s : Standing) (id : Int) (teamIds : List Int) (edit : RuleEdit) :
    Half.rule.conduct.Keeps (fun _ _ => True) s (Alerts.update id teamIds edit) := by
  have hPasses : ∀ {s : Standing} {q : Request}, q.call? = none →
      (request q).Asks (Half.rule.conduct.Passes s) := fun {s q} hOther => by
    refine asks_request ?_
    cases q with
    | registry call => simp [Request.call?] at hOther
    | _ => exact ⟨trivial, fun before reply => rfl⟩
  unfold Alerts.update
  refine Keeps.bind ((Alerts.get_keeps s id teamIds).mono ?_)
  rintro (e | row) s' hGet
  · trivial
  have hKnown : row ∈ s'.known := by simp [hGet row rfl]
  have hId : (edit.applyTo row).id = row.id := rfl
  have hState : Half.state.of (edit.applyTo row).draft = Half.state.of row.draft := rfl
  dsimp only
  generalize edit.applyTo row = edited at hId hState
  generalize hChecked : Alerts.requireSound edited.ruleName _ _ _ = checked
  generalize hDescribed : Alerts.describe edited.threshold _ _ = described
  refine Keeps.bind (keeps_of_asks (hPasses rfl) ?_)
  rintro (e | _)
  · trivial
  refine Keeps.bind (keeps_of_asks (asks_of_requireSound hChecked) ?_)
  rintro (e | _)
  · trivial
  refine Keeps.bind (keeps_of_asks (asks_of_describe hDescribed) ?_)
  rintro (e | description)
  · trivial
  refine Keeps.bind (keeps_of_asks (hPasses rfl) ?_)
  rintro (e | time)
  · trivial
  refine Keeps.bind (keeps_of_asks (hPasses rfl) ?_)
  rintro (e | _)
  · trivial
  refine Keeps.bind (keeps_request ⟨row, hKnown, _, rfl, hId, hState⟩ ?_)
  rintro before (e | _) <;> trivial

/-- What a task does with alerts: a worker runs some ticks, a user makes one edit. -/
inductive Job where
  | ticks (w : Worker) (n : Nat)
  | edit (id : Int) (teamIds : List Int) (change : Alerts.RuleEdit)

namespace Job

def program : Job → Program Unit
  | .ticks w n => w.ticks n
  | .edit id teamIds change => do
    let _ ← Alerts.update id teamIds change
    return ()

/-- The half that a task writes. -/
def half : Job → Half
  | .ticks .. => .state
  | .edit .. => .rule

/-- Every task writes only its own half anew. -/
theorem keeps (job : Job) :
    job.half.conduct.Keeps (fun _ _ => True) Standing.initial job.program := by
  cases job with
  | ticks w n =>
      have hTicks := Worker.ticks_keep (w := w) (s := Standing.initial) rfl n
      have hTrivial : w.conduct.Keeps (fun _ _ => True) Standing.initial (w.ticks n) :=
        hTicks.mono fun _ _ _ => trivial
      exact hTrivial.weaken rfl fun s q => Worker.mayAsk_half
  | edit id teamIds change =>
      refine Keeps.bind (p := Alerts.update id teamIds change)
        ((Alerts.update_keeps _ id teamIds change).mono ?_)
      rintro (e | row) s' - <;> trivial

end Job

/-- A program that has ended well. -/
def Program.isDone : Program α → Bool
  | .done _ => true
  | _ => false

/-- Tasks over one deployment. -/
def Crew.ofJobs {ι : Type} (d : Deployment) (job : ι → Job) (correlation : ι → Option String) :
    Crew ι Unit :=
  ⟨d, fun i => ⟨(job i).program, correlation i⟩⟩

/-- The draft that is written over an alert in a moment. -/
def Moment.writes (m : Moment ι) (a : Int) : Option AlertDraft :=
  (m.request.stored m.reply).filter fun d => d.id = some a

/-- What has been written over an alert: each half as its own writers have left it, and whether the
last write was made from a reading in which the other half was that of its writers. -/
structure Written where
  kept : Half → AlertDraft
  inTime : Bool

namespace Written

variable {ι : Type} [DecidableEq ι]

/-- Nothing has been written over a row. -/
def initial (row : Alert) : Written := ⟨fun x => x.of row.draft, true⟩

/-- What has been written after a moment. -/
def after (k : Written) (job : ι → Job) (a : Int) (v : Watch ι) (m : Moment ι) : Written :=
  match m.writes a with
  | none => k
  | some d =>
    let x := (job m.mark).half
    { kept := fun y => if y = x then x.of d else k.kept y
      inTime := decide (((v.standing m.mark).listed a).map (fun row => x.other.of row.draft)
        = some (k.kept x.other)) }

/-- What has been written after some moments. -/
def afterAll (k : Written) (job : ι → Job) (a : Int) (v : Watch ι) : List (Moment ι) → Written
  | [] => k
  | m :: rest => (k.after job a v m).afterAll job a (v.after m) rest

/-- A row holds both halves as their writers have left them exactly when the last write was in
time. -/
def Fits (k : Written) (row : Alert) : Prop := (∀ x, x.of row.draft = k.kept x) ↔ k.inTime = true

end Written

theorem Half.other_ne (x : Half) : x.other ≠ x := by
  cases x <;> decide

theorem Half.forall_iff {x : Half} {p : Half → Prop} : (∀ y, p y) ↔ p x ∧ p x.other := by
  refine ⟨fun h => ⟨h x, h x.other⟩, fun h y => ?_⟩
  cases x <;> cases y <;> first | exact h.1 | exact h.2

/-- Neither half is touched by what an alert keeps of the row that it is written over. -/
theorem Half.of_over (x : Half) (b row : Alert) : x.of (b.over row).draft = x.of b.draft := by
  cases x <;> rfl

/-- Tasks at work, each as a writer of its half. -/
abbrev AtWork {ι : Type} (job : ι → Job) (v : Watch ι) (c : Crew ι Unit) : Prop :=
  Underway (fun i => (job i).half.conduct) v c

/-- A request of a writer leaves the row of an alert alone, or writes over it what was read with one
half changed. -/
theorem Half.row_after {x : Half} {s : Standing} {d : Deployment} (hUnit : d.openUnit = none)
    {q : Request} (hMay : x.mayAsk s q) (a : Int) :
    ((q.stored (d.perform q).1).filter (fun e => e.id = some a) = none ∧
        (d.perform q).2.registry.alert? a = d.registry.alert? a) ∨
      ∃ y ∈ s.known, y.id = a ∧ ∃ b row : Alert, x.other.of b.draft = x.other.of y.draft ∧
        (q.stored (d.perform q).1).filter (fun e => e.id = some a) = some b.draft ∧
        (d.perform q).2.registry.alert? a = some (b.over row) := by
  cases hCall : q.call? with
  | none =>
      refine .inl ⟨?_, by rw [d.perform_registry hUnit hCall]⟩
      cases q <;> first | rfl | simp [Request.call?] at hCall
  | some call =>
      obtain rfl := Request.eq_of_call? hCall
      obtain ⟨e, hReply, hSame⟩ | ⟨reply, freshUuid, hReply, hRun⟩ := d.perform_call hUnit call
      · rw [hReply, hSame]
        exact .inl ⟨by cases call <;> rfl, rfl⟩
      rw [hReply]
      generalize (d.perform (.registry call)).2.registry = after at hRun ⊢
      cases call with
      | updateAlert e =>
          obtain ⟨y, hKnown, b, rfl, hId, hHalf⟩ := hMay
          obtain ⟨row, hRow, hAfter⟩ := Registry.updateAlert_rows hRun
          -- An update of another alert writes over another row.
          by_cases hAbout : b.id = a
          · refine .inr ⟨y, hKnown, hId.symm.trans hAbout, b, row, hHalf, ?_, ?_⟩
            · simp [Request.stored, Option.filter, Alert.draft, hAbout]
            · rw [hAfter, if_pos hAbout.symm]
          · refine .inl ⟨?_, ?_⟩
            · simp [Request.stored, Option.filter, Alert.draft, hAbout]
            · rw [hAfter, if_neg (Ne.symm hAbout)]
      | createAlert | deleteAlert => exact absurd hMay (by simp [Half.mayAsk, RegistryCall.writes])
      | _ =>
          refine .inl ⟨rfl, Registry.alert?_congr ?_ a⟩
          have hSame := d.registry.run_sameRows (t := .alerts) d.now freshUuid _ hMay
          rwa [hRun] at hSame

namespace AtWork

variable {ι : Type} [DecidableEq ι] {job : ι → Job} {v : Watch ι} {c : Crew ι Unit} {i : ι}
  {q : Request} {next : Except Failure q.Reply → Program Unit}

/-- After a turn the row still holds both halves exactly if the last write was in time. -/
theorem fits_after (hWork : AtWork job v c) (hProgram : (c.task i).program = .ask q next) {a : Int}
    {k : Written} {row : Alert} (hRow : c.deployment.registry.alert? a = some row)
    (hFits : k.Fits row) :
    ∃ row', (c.afterRequest i q next).deployment.registry.alert? a = some row' ∧
      (k.after job a v (c.moment i q)).Fits row' := by
  have hWrites : (c.moment i q).writes a
      = (q.stored ((c.found i).perform q).1).filter fun e => e.id = some a := rfl
  obtain ⟨hNone, hSame⟩ | ⟨y, hKnown, hId, b, before, hHalf, hSome, hAfter⟩ :=
    Half.row_after (d := c.found i) hWork.unit (hWork.allows hProgram) a
  · refine ⟨row, hSame.trans hRow, ?_⟩
    rw [Written.after, hWrites, hNone]
    exact hFits
  · refine ⟨b.over before, hAfter, ?_⟩
    -- The alert is known once, so the reading that was written back is the one that is listed.
    have hListed : (v.standing i).listed a = some y := by
      rw [← hId]
      exact find?_key_eq_some (hWork.keys i) hKnown
    rw [Written.after, hWrites, hSome]
    -- The half of the writer fits anyway, so all depends on the other one.
    rw [Written.Fits, Half.forall_iff (x := (job i).half)]
    simp [Half.of_over, Half.other_ne, Crew.moment, hListed, hHalf]

/-- The whole run of tasks at work, from any point on. -/
theorem run (schedule : List (Move ι)) (hWork : AtWork job v c) {a : Int} {k : Written}
    {row : Alert} (hRow : c.deployment.registry.alert? a = some row) (hFits : k.Fits row) :
    ∃ row', (c.run schedule).2.deployment.registry.alert? a = some row' ∧
      (k.afterAll job a v (c.run schedule).1).Fits row' := by
  induction schedule generalizing v c k row with
  | nil => exact ⟨row, hRow, hFits⟩
  | cons move rest ih =>
      cases move with
      | clock micros =>
          exact ih (hWork.advance micros) hRow hFits
      | turn i =>
          cases hProgram : (c.task i).program with
          | ask q next =>
              obtain ⟨row', hRow', hFits'⟩ := hWork.fits_after hProgram hRow hFits
              rw [Crew.run_turn hProgram]
              exact ih (hWork.afterRequest (fun _ => rfl) hProgram) hRow' hFits'
          | _ =>
              rw [Crew.run_ended (by simp [hProgram])]
              exact ih hWork hRow hFits

end AtWork

/-- For every interleaving of edits and ticks, and for every alert that there is: at the end each
half of the alert is as its own writers have left it, or as it was at first, exactly when the last
write over the alert was made from a reading in which the other half was the one that its writers
had left until then. -/
theorem halves_kept_iff {ι : Type} [DecidableEq ι] {d : Deployment} (hUnit : d.openUnit = none)
    (hKeyed : d.registry.Keyed) (job : ι → Job) (correlation : ι → Option String)
    (schedule : List (Move ι)) {a : Int} {row : Alert} (hRow : d.registry.alert? a = some row) :
    let run := (Crew.ofJobs d job correlation).run schedule
    let written := (Written.initial row).afterAll job a Watch.initial run.1
    ∃ row', run.2.deployment.registry.alert? a = some row' ∧
      ((∀ x : Half, x.of row'.draft = written.kept x) ↔ written.inTime = true) := by
  have hWork : AtWork job Watch.initial (Crew.ofJobs d job correlation) :=
    ⟨hUnit, hKeyed, fun i => (job i).keeps, fun i => List.nodup_nil⟩
  exact hWork.run schedule hRow ⟨fun _ => rfl, fun _ x => rfl⟩

/-- A triggered alert that no issue speaks for any more. -/
def staleAlert : Alert :=
  ⟨1, 1, 1, "Spike", none, Alert.triggered, 1, 1, 4, false, some ⟨0⟩, none, ⟨0⟩, ⟨0⟩⟩

/-- A deployment with nothing but this alert. -/
def staleDeployment : Deployment :=
  { Deployment.initial ⟨10000000000000000⟩ false with
    registry := { Registry.empty with alerts := [staleAlert] } }

/-- A tick, and an edit that gives the alert another name. -/
def tickAndEdit : Bool → Job
  | false => .ticks ⟨"worker-a", Worker.usualLeaseMicros, ⟨none⟩⟩ 1
  | true => .edit 1 [1] { name := some "Renamed" }

/-- When the edit comes after the tick, the alert is resolved and renamed. -/
theorem edit_after_tick :
    let run := (Crew.ofJobs staleDeployment tickAndEdit fun _ => none).run
      (List.replicate 40 (.turn false) ++ List.replicate 40 (.turn true))
    let written := (Written.initial staleAlert).afterAll tickAndEdit 1 Watch.initial run.1
    ∃ row, run.2.deployment.registry.alert? 1 = some row ∧
      Half.state.of row.draft = written.kept .state ∧ Half.rule.of row.draft = written.kept .rule ∧
      (written.kept .state).status = some Alert.active ∧
      (written.kept .rule).ruleName = some "Renamed" := by
  intro run written
  have hKeyed : staleDeployment.registry.Keyed := ⟨by decide, by decide, by decide⟩
  have hFound : staleDeployment.registry.alert? 1 = some staleAlert := rfl
  obtain ⟨row, hRow, hIff⟩ := halves_kept_iff (d := staleDeployment) rfl hKeyed tickAndEdit
    (fun _ => none) (List.replicate 40 (.turn false) ++ List.replicate 40 (.turn true)) hFound
  have hInTime : written.inTime = true := by decide +kernel
  have hKept := hIff.mpr hInTime
  exact ⟨row, hRow, hKept .state, hKept .rule, by decide +kernel, by decide +kernel⟩

/-- When the edit looks the alert up before the tick and writes it after the tick, every call succeeds,
and the transition that the worker has stored is lost. -/
theorem transition_reverted :
    let run := (Crew.ofJobs staleDeployment tickAndEdit fun _ => none).run
      (.turn true :: List.replicate 40 (.turn false) ++ List.replicate 40 (.turn true))
    let written := (Written.initial staleAlert).afterAll tickAndEdit 1 Watch.initial run.1
    (∀ i, (run.2.task i).program.isDone = true) ∧
      (written.kept .state).status = some Alert.active ∧
      (run.2.deployment.registry.alert? 1).map Alert.status = some Alert.triggered := by
  decide +kernel

end Triage
