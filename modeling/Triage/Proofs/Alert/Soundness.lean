import Triage.Proofs.Alert.Decision
import Triage.Proofs.Alert.Reading

/-!
# Alerts stay sound

Users create, edit and delete alerts, and workers move them between active and triggered.  Whatever
they do, in whatever order and with whatever failures, every row that is there has a sound rule and
stamps that fit its status (`alerts_sound`): each of the programs keeps to the conduct of a
`Reading`, and so does a task that has several of them to run.
-/

namespace Triage

open Program Conduct

namespace Worker

variable {w : Worker} {s : Reading}

theorem Notifying.apart {alertId : Int} {kind : String} {q : Request}
    (h : Notifying alertId kind q) : q.Apart ∧ ¬Reading.Reads q := by
  cases h with
  | aside h =>
      cases h with
      | notifier asked => cases asked <;> simp [Request.Apart, Reading.Reads, RegistryCall.writes]
      | _ => simp [Request.Apart, Reading.Reads, RegistryCall.writes]
  | delivery => simp [Request.Apart, Reading.Reads, RegistryCall.writes]

/-- An alert that was read is moved at a time that has been told since. -/
theorem evaluate_reads {a : Alert} {time : Instant} (hKnown : a ∈ s.known) (hTold : time ∈ s.times) :
    Reading.conduct.Keeps (fun _ => s.Since) s (w.evaluate a time) := by
  refine keeps_within s.Since (evaluate_asks w a time) ?_ (.refl s) fun _ _ h => h
  intro s' q hSince hAsked
  have hStep : ¬Reading.Reads q → ∀ before reply, s.Since (s'.note before q reply) :=
    fun hReads before reply => hSince.trans (Reading.since_note hReads before reply)
  have hKnown' : a ∈ s'.known := hSince.known ▸ hKnown
  have hTold' : time ∈ s'.times := hSince.times time hTold
  cases hAsked with
  | notifying h => exact ⟨h.apart.1.mayAsk s', hStep h.apart.2⟩
  | trigger => exact ⟨⟨a, hKnown', _, .triggered hTold', rfl⟩, hStep id⟩
  | resolve => exact ⟨⟨a, hKnown', _, .resolved hTold', rfl⟩, hStep id⟩

theorem report_reads (severity : Log.Severity) (component : Log.Component) (message : String)
    (subjects : List (String × Json)) (failure : Option Failure) :
    Reading.conduct.Keeps (fun _ => s.Since) s
      (report severity component message subjects failure) :=
  keeps_request trivial fun before reply => Reading.since_note (q := .record _) id before reply

theorem releaseLease_reads (alertId : Int) :
    Reading.conduct.Keeps (fun _ => s.Since) s (w.releaseLease alertId) := by
  unfold releaseLease
  refine Keeps.bind (Keeps.attempt (keeps_request trivial ?_))
  rintro before (e | _)
  · exact report_reads ..
  · exact .refl s

/-- An alert that was read is checked. -/
theorem checkAlert_reads {a : Alert} (hKnown : a ∈ s.known) :
    Reading.conduct.Keeps (fun _ => s.Since) s (w.checkAlert a) := by
  unfold checkAlert
  refine Keeps.bind (keeps_request trivial ?_)
  rintro before (e | time)
  · exact .refl s
  have hTold := Reading.since_told s time
  refine Keeps.bind (keeps_of_asks (requireInstant_asks _) ?_)
  rintro (e | expiresAt)
  · exact hTold
  refine Keeps.bind (keeps_request trivial ?_)
  rintro before (e | acquired)
  · exact hTold
  cases (acquired : Bool) with
  | false =>
      exact Keeps.bind ((report_reads ..).mono fun reported s' hSince => by
        cases reported <;> exact hTold.trans hSince)
  | true =>
      let told : Reading := { s with times := time :: s.times }
      have hEvaluate : Reading.conduct.Keeps (fun _ => told.Since) told (w.evaluate a time) :=
        evaluate_reads hKnown List.mem_cons_self
      refine Keeps.ensure (hEvaluate.mono fun outcome s' hSince => ?_)
      refine (releaseLease_reads a.id).mono fun ended s'' hSince' => ?_
      cases ended <;> exact hTold.trans (hSince.trans hSince')

theorem checkAlerts_reads {alerts : List Alert} (hKnown : ∀ a ∈ alerts, a ∈ s.known) :
    Reading.conduct.Keeps (fun _ => s.Since) s (w.checkAlerts alerts) := by
  -- Every check goes on from a reading of the same alerts.
  suffices hFrom : ∀ s', s.Since s' →
      Reading.conduct.Keeps (fun _ => s.Since) s' (w.checkAlerts alerts) from hFrom s (.refl s)
  induction alerts with
  | nil => exact fun s' hSince => hSince
  | cons a rest ih =>
      rw [List.forall_mem_cons] at hKnown
      intro s' hSince
      have hKnown' : a ∈ s'.known := hSince.known ▸ hKnown.1
      unfold checkAlerts
      split
      · refine Keeps.bind (Keeps.attempt ((checkAlert_reads hKnown').mono ?_))
        rintro (e | checked) s'' hSince'
        · refine Keeps.bind ((report_reads ..).mono ?_)
          rintro (e | _) s₃ hSince₃
          · exact hSince.trans (hSince'.trans hSince₃)
          · exact ih hKnown.2 s₃ (hSince.trans (hSince'.trans hSince₃))
        · exact ih hKnown.2 s'' (hSince.trans hSince')
      · exact ih hKnown.2 s' hSince

/-- A tick moves the alerts that it has listed. -/
theorem processAlerts_reads (s : Reading) :
    Reading.conduct.Keeps (fun _ _ => True) s w.processAlerts := by
  unfold processAlerts
  refine Keeps.bind (Keeps.attempt (Reading.keeps_of_apart ?_ |>.mono ?_))
  · refine (asks_request (by simp [Request.Apart])).bind fun time => ?_
    exact asks_request (by simp [Request.Apart, RegistryCall.writes])
  rintro (e | _) s' -
  · exact (report_reads ..).mono fun _ _ _ => trivial
  refine Keeps.bind (Keeps.attempt (keeps_request trivial ?_))
  rintro before (e | listed)
  · exact (report_reads ..).mono fun _ _ _ => trivial
  · exact (checkAlerts_reads fun a ha => ha).mono fun _ _ _ => trivial

end Worker

namespace Alerts

variable {s : Reading}

/-- The check of a rule asks nothing, and lets through the rules that have no flaw.  It is given by an
equation, because a goal about the check itself would make the unifier run it. -/
theorem keeps_of_requireSound {name : String} {threshold condition timeframe : Int}
    {checked : Program Unit} (h : requireSound name threshold condition timeframe = checked) :
    Reading.conduct.Keeps (fun outcome s' => s' = s ∧ (outcome = .ok () →
      Rule.flaw? name threshold condition timeframe = none)) s checked := by
  rw [← h]
  unfold requireSound
  cases hFlaw : Rule.flaw? name threshold condition timeframe with
  | none => exact ⟨rfl, fun _ => rfl⟩
  | some flaw => exact ⟨rfl, fun hOk => by cases hOk⟩

theorem keeps_of_describe {threshold condition timeframe : Int} {described : Program String}
    (h : describe threshold condition timeframe = described) :
    Reading.conduct.Keeps (fun outcome s' => s' = s ∧ ∀ text, outcome = .ok text →
      Rule.describe threshold condition timeframe = .ok text) s described := by
  rw [← h]
  unfold describe
  cases hText : Rule.describe threshold condition timeframe with
  | error e => exact ⟨rfl, fun text hOk => by cases hOk⟩
  | ok text =>
      refine ⟨rfl, fun other hOk => ?_⟩
      obtain rfl := Except.ok.inj hOk
      rfl

theorem get_reads (s : Reading) (id : Int) (teamIds : List Int) :
    Reading.conduct.Keeps (fun outcome s' => ∀ a, outcome = .ok a → s'.known = [a]) s
      (get id teamIds) := by
  unfold get
  refine Keeps.bind (keeps_request trivial ?_)
  rintro before (e | row)
  · exact fun a hOk => by cases hOk
  · dsimp only
    split
    · exact fun a hOk => by cases hOk; rfl
    · exact fun a hOk => by cases hOk

/-- Every alert is created sound. -/
theorem create_reads (s : Reading) (teamIds : List Int) (rule : NewRule) :
    Reading.conduct.Keeps (fun _ _ => True) s (create teamIds rule) := by
  unfold create
  generalize hChecked : requireSound rule.name _ _ _ = checked
  generalize hDescribed : describe rule.threshold _ _ = described
  split
  · trivial
  refine Keeps.bind ((keeps_of_requireSound hChecked).mono ?_)
  rintro (e | _) s' ⟨rfl, hSound⟩
  · trivial
  refine Keeps.bind (keeps_request trivial ?_)
  rintro before (e | time)
  · trivial
  refine Keeps.bind ((keeps_of_describe hDescribed).mono ?_)
  rintro (e | text) s'' ⟨rfl, hText⟩
  · trivial
  refine Keeps.bind (keeps_request ?_ ?_)
  · intro id now a hComplete
    obtain rfl := Except.ok.inj hComplete
    exact ⟨NewRule.sound (hSound rfl) (hText text rfl) rfl rfl rfl rfl rfl, rfl, rfl, rfl⟩
  · rintro before (e | alert)
    · trivial
    · exact Reading.keeps_of_apart ((asks_request trivial).bind fun _ => asks_pure _)

/-- An edit writes what it has read with another sound rule. -/
theorem update_reads (s : Reading) (id : Int) (teamIds : List Int) (edit : RuleEdit) :
    Reading.conduct.Keeps (fun _ _ => True) s (update id teamIds edit) := by
  unfold update
  refine Keeps.bind ((get_reads s id teamIds).mono ?_)
  rintro (e | row) s' hRead
  · trivial
  have hKnown : row ∈ s'.known := by simp [hRead row rfl]
  have hState : Half.state.of (edit.applyTo row).draft = Half.state.of row.draft := rfl
  have hEdit := RuleEdit.sound edit row
  dsimp only
  generalize edit.applyTo row = edited at hState hEdit
  generalize hChecked : requireSound edited.ruleName _ _ _ = checked
  generalize hDescribed : describe edited.threshold _ _ = described
  refine Keeps.bind (keeps_request trivial ?_)
  rintro before (e | _)
  · trivial
  refine Keeps.bind ((keeps_of_requireSound hChecked).mono ?_)
  rintro (e | _) s'' ⟨rfl, hSound⟩
  · trivial
  refine Keeps.bind ((keeps_of_describe hDescribed).mono ?_)
  rintro (e | text) s₃ ⟨rfl, hText⟩
  · trivial
  refine Keeps.bind (keeps_request trivial ?_)
  rintro before (e | time)
  · trivial
  refine Keeps.bind (keeps_request trivial ?_)
  rintro before (e | _)
  · trivial
  refine Keeps.bind (keeps_request ⟨row, hKnown, _, .edited ?_ ?_, rfl⟩ ?_)
  · intro hRow
    exact hEdit hRow text time (hSound rfl) (hText text rfl)
  · exact hState
  · rintro before (e | _) <;> trivial

theorem delete_reads (s : Reading) (id : Int) (teamIds : List Int) :
    Reading.conduct.Keeps (fun _ _ => True) s (delete id teamIds) := by
  unfold delete
  refine Keeps.bind ((get_reads s id teamIds).mono ?_)
  rintro (e | row) s' -
  · trivial
  refine Keeps.bind (keeps_request trivial ?_)
  rintro before (e | _)
  · trivial
  · exact Reading.keeps_of_apart (asks_request trivial)

/-- Something that is done about alerts, by a user or by a worker, or apart from them. -/
inductive Chore
  | create (teamIds : List Int) (rule : NewRule)
  | update (id : Int) (teamIds : List Int) (edit : RuleEdit)
  | delete (id : Int) (teamIds : List Int)
  | tick (w : Worker)
  | apart (p : Program Unit) (hApart : p.Asks Request.Apart)

namespace Chore

def program : Chore → Program Unit
  | .create teamIds rule => do
    let _ ← Alerts.create teamIds rule
    return ()
  | .update id teamIds edit => do
    let _ ← Alerts.update id teamIds edit
    return ()
  | .delete id teamIds => Alerts.delete id teamIds
  | .tick w => w.processAlerts
  | .apart p _ => p

/-- Chores one after the other; one that fails does not keep back the others. -/
def inTurn : List Chore → Program Unit
  | [] => return ()
  | chore :: rest => do
    let _ ← chore.program.attempt
    inTurn rest

theorem reads (chore : Chore) (s : Reading) :
    Reading.conduct.Keeps (fun _ _ => True) s chore.program := by
  have hThen : ∀ {α : Type} {p : Program α}, Reading.conduct.Keeps (fun _ _ => True) s p →
      Reading.conduct.Keeps (fun _ _ => True) s (do let _ ← p; return ()) := fun hp =>
    Keeps.bind (hp.mono fun outcome s' _ => by cases outcome <;> trivial)
  cases chore with
  | create teamIds rule => exact hThen (create_reads s teamIds rule)
  | update id teamIds edit => exact hThen (update_reads s id teamIds edit)
  | delete id teamIds => exact delete_reads s id teamIds
  | tick w => exact Worker.processAlerts_reads s
  | apart p hApart => exact Reading.keeps_of_apart hApart

theorem inTurn_reads (chores : List Chore) (s : Reading) :
    Reading.conduct.Keeps (fun _ _ => True) s (inTurn chores) := by
  induction chores generalizing s with
  | nil => trivial
  | cons chore rest ih =>
      exact Keeps.bind (Keeps.attempt ((chore.reads s).mono fun outcome s' _ => ih s'))

end Chore
end Alerts

/-- Tasks over one deployment, each with chores to do in turn. -/
def Crew.ofChores {ι : Type} (d : Deployment) (chores : ι → List Alerts.Chore)
    (correlation : ι → Option String) : Crew ι Unit :=
  ⟨d, fun i => ⟨Alerts.Chore.inTurn (chores i), correlation i⟩⟩

/-- Tasks that keep alerts sound: all that they have read and all that is there is sound. -/
structure Upkeep {ι : Type} (s : ι → Reading) (c : Crew ι Unit) : Prop where
  sound : c.deployment.AlertsSound
  holds : ∀ i, (s i).Holds c.deployment.now
  keeps : ∀ i, Reading.conduct.Keeps (fun _ _ => True) (s i) (c.task i).program

namespace Upkeep

variable {ι : Type} {s : ι → Reading} {c : Crew ι Unit} {i : ι} {q : Request}
  {next : Except Failure q.Reply → Program Unit}

/-- Time goes on. -/
theorem advance (h : Upkeep s c) {micros : Int} (hForward : 0 ≤ micros) :
    Upkeep s { c with deployment := c.deployment.advance micros } := by
  have hLater : c.deployment.now ≤ (c.deployment.advance micros).now :=
    Int.le_add_of_nonneg_right hForward
  refine ⟨⟨h.sound.unit, fun a ha => ?_⟩, fun i => (h.holds i).mono hLater, h.keeps⟩
  obtain ⟨hSound, hPast⟩ := h.sound.sound a ha
  exact ⟨hSound, hPast.mono hLater⟩

variable [DecidableEq ι]

/-- A turn of a task. -/
theorem afterRequest (h : Upkeep s c) (hProgram : (c.task i).program = .ask q next) :
    Upkeep (c.noted (fun _ => Reading.conduct) s i q) (c.afterRequest i q next) := by
  have hMay : (s i).mayAsk q := Crew.allows_of_keeps h.keeps hProgram
  have hFound : (c.found i).AlertsSound := ⟨h.sound.unit, h.sound.sound⟩
  have hHolds : (s i).Holds (c.found i).now := h.holds i
  refine ⟨hFound.perform hHolds hMay, fun j => ?_, Crew.keeps_afterRequest h.keeps hProgram⟩
  by_cases hj : j = i
  · subst hj
    rw [Crew.noted_self]
    exact hFound.note hHolds hMay
  · rw [Crew.noted_other hj]
    exact (h.holds j).mono (Deployment.now_le_of_mayAsk (d := c.found i) hMay)

theorem run (schedule : List (Move ι)) (hForward : ∀ micros, .clock micros ∈ schedule → 0 ≤ micros)
    (h : Upkeep s c) : ∃ s, Upkeep s (c.run schedule).2 := by
  refine @Crew.run_keeps ι _ _ c (fun c => ∃ s, Upkeep s c) schedule ?_ ?_ ⟨s, h⟩
  · rintro c micros hMem ⟨s, h⟩
    exact ⟨s, h.advance (hForward micros hMem)⟩
  · rintro c i q next hProgram ⟨s, h⟩
    exact ⟨_, h.afterRequest hProgram⟩

end Upkeep

/-- However users create, edit and delete alerts and workers tick, one after the other or in between
each other, with whatever arguments and whatever failures, and with whatever else is asked apart
from the alerts: as long as no clock goes back, every alert that is there after a schedule is sound.
A schedule may break off anywhere, so this is said of every point of a run. -/
theorem alerts_sound {ι : Type} [DecidableEq ι] {d : Deployment} (hUnit : d.openUnit = none)
    (hEmpty : d.registry.alerts = []) (chores : ι → List Alerts.Chore)
    (correlation : ι → Option String) (schedule : List (Move ι))
    (hForward : ∀ micros, .clock micros ∈ schedule → 0 ≤ micros) :
    ∀ a ∈ ((Crew.ofChores d chores correlation).run schedule).2.deployment.registry.alerts,
      a.Sound := by
  have hStart : Upkeep (fun _ => Reading.initial) (Crew.ofChores d chores correlation) := by
    refine ⟨⟨hUnit, fun a ha => ?_⟩, fun i => Reading.holds_initial d.now, fun i =>
      Alerts.Chore.inTurn_reads (chores i) .initial⟩
    rw [Crew.ofChores, hEmpty] at ha
    cases ha
  obtain ⟨s, hUpkeep⟩ := hStart.run schedule hForward
  intro a ha
  exact (hUpkeep.sound.sound a ha).1

/-- Two reports of one issue have been taken in, and there is no alert yet. -/
def twoReports : Deployment :=
  (((Deployment.initial ⟨10000000000000000⟩ false).run
    (Events.ingest ⟨0, .usual⟩ 1 firstReport 90)).2.run
      (Events.ingest ⟨0, .usual⟩ 1 { firstReport with eventId := "e2" } 90)).2

/-- A user who creates an alert, fails to create another one and edits the first, and a worker with
two ticks. -/
def userAndWorker : Bool → List Alerts.Chore
  | false =>
    [.create [1] { teamId := 1, projectId := 1, name := " Spike ", threshold := 1 },
      .create [1] { teamId := 1, projectId := 1, name := "Never", threshold := 0 },
      .update 1 [1] { name := some "\tSpike!", threshold := some 3 }]
  | true =>
    let tick := Alerts.Chore.tick ⟨"worker-a", Worker.usualLeaseMicros, ⟨none⟩⟩
    [tick, tick]

/-- The alert is created, triggered in the first tick, edited and resolved in the second one. -/
theorem triggered_edited_and_resolved :
    let schedule := List.replicate 3 (.turn false) ++ .clock 60000000 ::
      List.replicate 12 (.turn true) ++ .clock 60000000 :: List.replicate 5 (.turn false) ++
        List.replicate 12 (.turn true)
    let d := ((Crew.ofChores twoReports userAndWorker fun _ => none).run schedule).2.deployment
    ∃ a, d.registry.alerts = [a] ∧ a.Sound ∧ a.ruleName = "Spike!" ∧ a.status = Alert.active ∧
      a.lastTriggeredAt = some ⟨10000000060000000⟩ ∧ a.resolvedAt = some ⟨10000000120000000⟩ := by
  intro schedule d
  have hForward : ∀ micros, Move.clock micros ∈ schedule → 0 ≤ micros := by
    intro micros hMem
    have hAll : ∀ move ∈ schedule, move = .turn false ∨ move = .turn true ∨
        move = .clock 60000000 := by decide
    rcases hAll _ hMem with hMove | hMove | hMove <;> cases hMove
    decide
  have hUnit : twoReports.openUnit = none := Option.isNone_iff_eq_none.mp (by decide +kernel)
  have hEmpty : twoReports.registry.alerts = [] := by decide +kernel
  have hSound := alerts_sound hUnit hEmpty userAndWorker (fun _ => none) schedule hForward
  obtain ⟨a, hAlerts, hRest⟩ : ∃ a, d.registry.alerts = [a] ∧ a.ruleName = "Spike!" ∧
      a.status = Alert.active ∧ a.lastTriggeredAt = some ⟨10000000060000000⟩ ∧
        a.resolvedAt = some ⟨10000000120000000⟩ :=
    ⟨⟨1, 1, 1, "Spike!", some "Alert when more than 3 occurrences in 1 hour", Alert.active, 3, 1, 4,
      false, some ⟨10000000060000000⟩, some ⟨10000000120000000⟩, ⟨10000000000000000⟩,
      ⟨10000000120000000⟩⟩, by decide +kernel, rfl, rfl, rfl, rfl⟩
  exact ⟨a, hAlerts, hSound a (hAlerts ▸ List.mem_singleton_self a), hRest⟩

end Triage
