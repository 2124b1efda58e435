import Triage.Proofs.Deployment.Requests

/-!
# Clean failures

Outside units of work every registry call stands for itself, so a program that fails after one of
several calls leaves what it has written until then.  A program fails cleanly if it leaves nothing:
it writes at most once, and after that it cannot fail any more (`FailsCleanly.bind_succeeds`,
`Reads.bind_failsCleanly`).
-/

namespace Triage

/-- Reading changes no table. -/
theorem Registry.run_eq_of_reads (r : Registry) (now : Instant) (freshUuid : String)
    {call : RegistryCall} (hReads : call.writes = []) : (r.run now freshUuid call).2 = r := by
  unfold Registry.run
  split
  · rfl
  · cases call <;> first | rfl | cases hReads

/-- Programs open no unit of work. -/
theorem Deployment.run_openUnit_none {d : Deployment} (hUnit : d.openUnit = none) (p : Program α) :
    (d.run p).2.openUnit = none :=
  run_keeps (fun d q hUnit => d.perform_openUnit hUnit q) hUnit p

namespace Program

/-- Outside units of work a program changes no table. -/
def Reads (p : Program α) : Prop :=
  ∀ d : Deployment, d.openUnit = none → (d.run p).2.registry = d.registry

/-- Outside units of work a program changes no table if it fails. -/
def FailsCleanly (p : Program α) : Prop :=
  ∀ (d : Deployment) (e : Failure), d.openUnit = none → (d.run p).1 = .error e →
    (d.run p).2.registry = d.registry

/-- A program that ends well wherever it is run. -/
def Succeeds (p : Program α) : Prop := ∀ d : Deployment, ∃ a, (d.run p).1 = .ok a

variable {p : Program β} {f : β → Program α}

theorem Reads.failsCleanly (h : p.Reads) : p.FailsCleanly := fun d _ hUnit _ => h d hUnit

/-- A program that writes nothing reads. -/
theorem Reads.of_asks (hp : p.Asks fun q => ∀ call, q.call? = some call → call.writes = []) :
    p.Reads := by
  intro d hUnit
  have hKept : p.Ends d fun _ after => after.openUnit = none ∧ after.registry = d.registry := by
    refine Ends.of_asks hp ?_ ⟨hUnit, rfl⟩
    rintro before q hReads ⟨hUnitBefore, hSame⟩
    refine ⟨before.perform_openUnit hUnitBefore q, Eq.trans ?_ hSame⟩
    obtain hUnchanged | ⟨call, reply, freshUuid, hCall, hRun⟩ :=
      Deployment.perform_cases hUnitBefore q
    · exact hUnchanged
    · have hRead := before.registry.run_eq_of_reads before.now freshUuid (hReads call hCall)
      rwa [hRun] at hRead
  exact hKept.2

/-- What is left after a sequence that ends with reading. -/
theorem run_bind_reads {d : Deployment} (hUnit : d.openUnit = none) (p : Program β)
    (hf : ∀ b, (f b).Reads) : (d.run (p >>= f)).2.registry = (d.run p).2.registry := by
  rcases hRun : d.run p with ⟨e | b, after⟩
  · rw [run_bind_error hRun]
  · have hAfter := Deployment.run_openUnit_none hUnit p
    rw [hRun] at hAfter
    rw [run_bind hRun]
    exact hf b after hAfter

theorem reads_pure (a : α) : (pure a : Program α).Reads := fun _ _ => rfl

/-- A request that writes nothing reads. -/
theorem reads_request {q : Request} (h : ∀ call, q.call? = some call → call.writes = []) :
    (request q).Reads :=
  Reads.of_asks (asks_request h)

theorem Reads.bind (hp : p.Reads) (hf : ∀ b, (f b).Reads) : (p >>= f).Reads := fun _ hUnit =>
  (run_bind_reads hUnit p hf).trans (hp _ hUnit)

/-- A single request that fails has changed no table. -/
theorem failsCleanly_request (q : Request) : (request q).FailsCleanly := by
  intro d e hUnit hFailed
  rw [d.run_request] at hFailed ⊢
  cases hCall : q.call? with
  | none => exact Deployment.perform_registry hUnit hCall
  | some call =>
      obtain rfl := Request.eq_of_call? hCall
      obtain ⟨_, -, hSame⟩ | ⟨reply, _, hOk, -⟩ := Deployment.perform_call hUnit call
      · exact hSame
      · rw [hOk] at hFailed
        cases hFailed

/-- Reading before it makes no failure less clean. -/
theorem Reads.bind_failsCleanly (hp : p.Reads) (hf : ∀ b, (f b).FailsCleanly) :
    (p >>= f).FailsCleanly := by
  intro d e hUnit hFailed
  have hFirst := hp d hUnit
  rcases hRun : d.run p with ⟨cause | b, after⟩
  · rw [run_bind_error hRun]
    rwa [hRun] at hFirst
  · rw [run_bind hRun] at hFailed ⊢
    have hAfter := Deployment.run_openUnit_none hUnit p
    rw [hRun] at hFirst hAfter
    exact (hf b after e hAfter hFailed).trans hFirst

/-- What cannot fail makes no failure less clean. -/
theorem FailsCleanly.bind_succeeds (hp : p.FailsCleanly) (hf : ∀ b, (f b).Succeeds) :
    (p >>= f).FailsCleanly := by
  intro d e hUnit hFailed
  rcases hRun : d.run p with ⟨cause | b, after⟩
  · have hFirst := hp d cause hUnit (by rw [hRun])
    rw [run_bind_error hRun]
    rwa [hRun] at hFirst
  · obtain ⟨a, hOk⟩ := hf b after
    rw [run_bind hRun, hOk] at hFailed
    cases hFailed

theorem succeeds_pure (a : α) : (pure a : Program α).Succeeds := fun _ => ⟨a, rfl⟩

theorem Succeeds.bind (hp : p.Succeeds) (hf : ∀ b, (f b).Succeeds) : (p >>= f).Succeeds := by
  intro d
  obtain ⟨b, hOk⟩ := hp d
  rw [run_bind (Prod.ext hOk rfl)]
  exact hf b _

/-- Whatever becomes of an attempt, what can go on with any outcome cannot fail. -/
theorem Succeeds.attempt_bind {f : Except Failure β → Program α}
    (hf : ∀ outcome, (f outcome).Succeeds) : (p.attempt >>= f).Succeeds :=
  Succeeds.bind (fun d => ⟨_, congrArg Prod.fst (d.run_attempt p)⟩) hf

theorem succeeds_now : Program.now.Succeeds := fun d => ⟨d.now, rfl⟩

theorem succeeds_noteChange (change : RowChange) : (request (.noteChange change)).Succeeds :=
  fun d => ⟨(), congrArg Prod.fst (d.run_noteChange change)⟩

/-- Writing to the log cannot fail. -/
theorem succeeds_report (severity : Log.Severity) (component : Log.Component) (message : String)
    (subjects : List (String × Json)) (failure : Option Failure) :
    (report severity component message subjects failure).Succeeds := by
  intro d
  exact ⟨(), congrArg Prod.fst (d.run_request _)⟩

end Program
end Triage
