import Triage.Deployment.State
import Triage.Proofs.Registry.Keys

/-!
# What a request changes

Outside a unit of work the registry is changed by registry calls that succeed and by nothing else: a
call that fails leaves the tables as they were, and so does every other request
(`perform_call`, `perform_registry`; together `perform_cases`).  No request opens a unit of work
(`perform_openUnit`).  What a registry call does inside a unit is said by `callRegistry_joined`.
-/

namespace Triage

namespace Request

/-- The registry call of a request, if it is one. -/
def call? : Request → Option RegistryCall
  | .registry call => some call
  | _ => none

theorem eq_of_call? {q : Request} {call : RegistryCall} (h : q.call? = some call) :
    q = .registry call := by
  cases q <;> simp_all [call?]

end Request

namespace Deployment

variable {d : Deployment}

/-- A failure that is taken leaves everything but the staged failures alone. -/
theorem takeStaged_eq (d : Deployment) (target : String) :
    ∃ staged, (d.takeStaged target).2 = { d with staged } := by
  unfold takeStaged
  cases d.staged.find? fun s => s.target = target && s.times != 0 with
  | none => exact ⟨_, rfl⟩
  | some s => exact ⟨_, rfl⟩

/-- A request fails as staged, or is carried out. -/
theorem perform_eq (d : Deployment) (q : Request) :
    (∃ e staged, d.perform q = (.error e, { d with staged })) ∨
      ∃ staged, d.perform q = { d with staged }.carryOutRequest q := by
  unfold perform
  cases q.target? with
  | none => exact .inr ⟨d.staged, rfl⟩
  | some target =>
      dsimp only
      obtain ⟨staged, hAfter⟩ := d.takeStaged_eq target
      split
      next e after hTaken =>
        rw [hTaken] at hAfter
        exact .inl ⟨e, staged, by rw [← hAfter]⟩
      next after hTaken =>
        rw [hTaken] at hAfter
        exact .inr ⟨staged, by rw [← hAfter]⟩

/-- How many issues have been named after a registry call. -/
def namedAfter (d : Deployment) (call : RegistryCall) : Nat :=
  if call.takesUuid then d.issuesNamed + 1 else d.issuesNamed

/-- Outside a unit of work a registry call does what it does to the tables if it succeeds, and
changes none of them if it fails. -/
theorem callRegistry_alone (hUnit : d.openUnit = none) (call : RegistryCall) :
    d.callRegistry call =
      match d.registry.run d.now d.nextUuid call with
      | (.ok reply, registry) =>
        (.ok reply, { d with registry, issuesNamed := d.namedAfter call })
      | (.error e, _) => (.error e, { d with issuesNamed := d.namedAfter call }) := by
  unfold callRegistry namedAfter
  simp only [hUnit, Option.map_none, Option.getD_none, Bool.false_and, Bool.false_eq_true, if_false]
  rcases d.registry.run d.now d.nextUuid call with ⟨e | reply, registry⟩ <;>
    cases call.takesUuid <;> cases d <;> cases hUnit <;> rfl

/-- In a unit of work that is not broken, a registry call does what it does to the tables, also when
it fails; only a failure to add a row takes back what was done in the unit, and breaks it. -/
theorem callRegistry_joined {u : UnitOfWork} (hOpen : d.openUnit = some u) (call : RegistryCall) :
    d.callRegistry call =
      if u.broken && call.needsTables then (.error (.registry call.operation), d)
      else
        match d.registry.run d.now d.nextUuid call with
        | (.ok reply, registry) =>
          (.ok reply, { d with registry, issuesNamed := d.namedAfter call })
        | (.error e, registry) =>
          if call.addsRow then
            (.error e, { d with registry := u.before, openUnit := some { u with broken := true },
                                issuesNamed := d.namedAfter call })
          else (.error e, { d with registry, issuesNamed := d.namedAfter call }) := by
  unfold callRegistry namedAfter
  simp only [hOpen, Option.map_some, Option.getD_some]
  split
  · rfl
  · rcases d.registry.run d.now d.nextUuid call with ⟨e | reply, registry⟩ <;>
      cases call.takesUuid <;> cases d <;> cases hOpen <;> rfl

theorem callRegistry_eq (hUnit : d.openUnit = none) (call : RegistryCall) :
    ∃ issuesNamed, d.callRegistry call =
      match d.registry.run d.now d.nextUuid call with
      | (.ok reply, registry) => (.ok reply, { d with registry, issuesNamed })
      | (.error e, _) => (.error e, { d with issuesNamed }) :=
  ⟨d.namedAfter call, callRegistry_alone hUnit call⟩

/-- The registry of a deployment, with the unit of work that is open on it. -/
def tables (d : Deployment) : Registry × Option UnitOfWork := (d.registry, d.openUnit)

theorem appendEvent_tables (d : Deployment) (record : EventRecord) :
    (d.appendEvent record).2.tables = d.tables := by
  obtain ⟨staged, hAfter⟩ := d.takeStaged_eq "analytics._insert"
  unfold appendEvent
  split
  next hTaken =>
    rw [hTaken] at hAfter
    exact (congrArg tables hAfter :)
  next hTaken =>
    rw [hTaken] at hAfter
    exact (congrArg tables hAfter :)

theorem carryOut_tables (d : Deployment) (w : WaitingAppend) : (d.carryOut w).tables = d.tables := by
  have hAppend := d.appendEvent_tables w.record
  unfold carryOut
  split <;> rename_i hEq <;> rw [hEq] at hAppend <;> exact hAppend

theorem flush_tables (d : Deployment) : d.flush.tables = d.tables := by
  have hAll : ∀ (waiting : List WaitingAppend) (d : Deployment),
      (waiting.foldl carryOut d).tables = d.tables := by
    intro waiting
    induction waiting with
    | nil => exact fun d => rfl
    | cons w waiting ih => exact fun d => (ih (d.carryOut w)).trans (d.carryOut_tables w)
  exact hAll d.waiting _

theorem callEventLog_tables (d : Deployment) (call : EventLogCall) :
    (d.callEventLog call).2.tables = d.tables := by
  cases call with
  | append record =>
      cases hWait : d.appendsWait with
      | false =>
          simp only [callEventLog, hWait, Bool.false_eq_true]
          exact d.appendEvent_tables record
      | true =>
          simp only [callEventLog, hWait]
          rfl
  | _ => rfl

theorem sendPost_tables (d : Deployment) (p : Webhook.Post) : (d.sendPost p).2.tables = d.tables := by
  unfold sendPost
  split
  · rfl
  · split <;> rfl

/-- Outside a unit of work nothing is written through. -/
theorem noteChange_eq (hUnit : d.openUnit = none) (change : RowChange) : d.noteChange change = d := by
  simp only [noteChange, hUnit]

/-- Outside a unit of work a request that is not a registry call leaves the tables alone. -/
theorem carryOutRequest_tables (hUnit : d.openUnit = none) {q : Request} (hOther : q.call? = none) :
    (d.carryOutRequest q).2.tables = d.tables := by
  cases q with
  | registry call => simp [Request.call?] at hOther
  | eventLog call => exact d.callEventLog_tables call
  | flushEvents => exact d.flush_tables
  | noteChange change => rw [carryOutRequest, noteChange_eq hUnit]
  | post p => exact d.sendPost_tables p
  | startWorker instanceId =>
      simp only [carryOutRequest]
      split <;> rfl
  | _ => rfl

/-- Outside a unit of work, a registry call fails and changes no table, or it succeeds and does what
it does to the tables. -/
theorem perform_call (hUnit : d.openUnit = none) (call : RegistryCall) :
    (∃ e, (d.perform (.registry call)).1 = .error e ∧
        (d.perform (.registry call)).2.registry = d.registry) ∨
      ∃ reply freshUuid, (d.perform (.registry call)).1 = .ok reply ∧
        d.registry.run d.now freshUuid call =
          (.ok reply, (d.perform (.registry call)).2.registry) := by
  obtain ⟨e, staged, hFail⟩ | ⟨staged, hDone⟩ := d.perform_eq (.registry call)
  · rw [hFail]
    exact .inl ⟨e, rfl, rfl⟩
  · obtain ⟨issuesNamed, hCall⟩ := callRegistry_eq (d := { d with staged }) hUnit call
    rw [hDone, carryOutRequest, hCall]
    cases hRun : d.registry.run d.now { d with staged }.nextUuid call with
    | mk reply registry =>
        cases reply with
        | error e => exact .inl ⟨e, rfl, rfl⟩
        | ok reply => exact .inr ⟨reply, _, rfl, hRun⟩

/-- Outside a unit of work a request that is not a registry call changes no table. -/
theorem perform_registry (hUnit : d.openUnit = none) {q : Request} (hOther : q.call? = none) :
    (d.perform q).2.registry = d.registry := by
  obtain ⟨e, staged, hFail⟩ | ⟨staged, hDone⟩ := d.perform_eq q
  · rw [hFail]
  · rw [hDone]
    exact congrArg Prod.fst (carryOutRequest_tables (d := { d with staged }) hUnit hOther)

/-- Outside a unit of work, a request changes no table, or it is a registry call that succeeds. -/
theorem perform_cases (hUnit : d.openUnit = none) (q : Request) :
    (d.perform q).2.registry = d.registry ∨
      ∃ call reply freshUuid, q.call? = some call ∧
        d.registry.run d.now freshUuid call = (.ok reply, (d.perform q).2.registry) := by
  cases hCall : q.call? with
  | none => exact .inl (perform_registry hUnit hCall)
  | some call =>
      obtain rfl := Request.eq_of_call? hCall
      obtain ⟨e, -, hSame⟩ | ⟨reply, freshUuid, -, hRun⟩ := perform_call hUnit call
      · exact .inl hSame
      · exact .inr ⟨call, reply, freshUuid, rfl, hRun⟩

theorem perform_keyed (hUnit : d.openUnit = none) (hKeyed : d.registry.Keyed) (q : Request) :
    (d.perform q).2.registry.Keyed := by
  obtain hSame | ⟨call, reply, freshUuid, -, hRun⟩ := perform_cases hUnit q
  · rw [hSame]
    exact hKeyed
  · have hAfter := hKeyed.run d.now freshUuid call
    rwa [hRun] at hAfter

/-- Outside a unit of work no request drops the tables or makes them. -/
theorem perform_dropped (hUnit : d.openUnit = none) (q : Request) :
    (d.perform q).2.registry.dropped = d.registry.dropped := by
  obtain hSame | ⟨call, reply, freshUuid, -, hRun⟩ := perform_cases hUnit q
  · rw [hSame]
  · have hAfter := d.registry.run_dropped d.now freshUuid call
    rwa [hRun] at hAfter

/-- No request opens a unit of work. -/
theorem perform_openUnit (hUnit : d.openUnit = none) (q : Request) :
    (d.perform q).2.openUnit = none := by
  obtain ⟨e, staged, hFail⟩ | ⟨staged, hDone⟩ := d.perform_eq q
  · rw [hFail]
    exact hUnit
  rw [hDone]
  cases hCall : q.call? with
  | none =>
      have hTables := carryOutRequest_tables (d := { d with staged }) hUnit hCall
      exact (congrArg Prod.snd hTables).trans hUnit
  | some call =>
      obtain rfl := Request.eq_of_call? hCall
      obtain ⟨issuesNamed, hEq⟩ := callRegistry_eq (d := { d with staged }) hUnit call
      rw [carryOutRequest, hEq]
      dsimp only
      split <;> exact hUnit

end Deployment
end Triage
