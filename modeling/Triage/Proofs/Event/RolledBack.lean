import Triage.Proofs.Deployment.Running
import Triage.Proofs.Deployment.Units
import Triage.Proofs.Event.Grouping

/-!
# What a report leaves behind that is rolled back

When a report is taken in inside a unit of work that fails in the end, the tables are restored, but
the caches of the services are not part of the unit.  All that is left is at most an entry of the
service that took the report in, under the key of the report (`rolledBack_restored`).  It names the
issue of the report if the report had one before the unit began; otherwise it names an issue that is
gone.
-/

namespace Triage

open Events

/-- A report that is submitted to a service. -/
structure Submission where
  service : Intake
  projectId : Int
  report : Report
  retentionDays : Int

namespace Submission

/-- The task of taking the report in. -/
def errand (s : Submission) : Errand := .takeIn s.service s.projectId s.report s.retentionDays

/-- The program that takes the report in. -/
def program (s : Submission) : Program Receipt :=
  ingest s.service s.projectId s.report s.retentionDays

def group (s : Submission) : Int × String := (s.projectId, s.report.fingerprint)

def key (s : Submission) : String := cacheKey s.projectId s.report.fingerprint

/-- No issue of the group of the report has other identifiers. -/
def Fits (s : Submission) (d : Deployment) (issueId : Int) (issueUuid : String) : Prop :=
  ∀ x ∈ d.registry.identities, x.group = s.group → x.id = issueId ∧ x.uuid = issueUuid

end Submission

/-- A program that keeps to a conduct keeps what every request that it may make keeps. -/
theorem Conduct.Keeps.run {σ : Type} {k : Conduct σ} {post : Except Failure α → σ → Prop}
    {inv : Deployment → σ → Prop} {p : Program α} {s : σ} {d : Deployment} (hp : k.Keeps post s p)
    (hStep : ∀ d s q, k.allows s q → inv d s → inv (d.perform q).2 (k.note s d q (d.perform q).1))
    (h : inv d s) : ∃ s', post (d.run p).1 s' ∧ inv (d.run p).2 s' := by
  induction p generalizing d s with
  | done a => exact ⟨s, hp, h⟩
  | fail e => exact ⟨s, hp, h⟩
  | ask q next ih => exact ih _ (hp.2 d _) (hStep d s q hp.1 h)

namespace Deployment

variable {d d₀ after : Deployment} {s : Submission} {clue : Clue} {q : Request}

/-- The deployment once a report was taken in, if there is one. -/
def taking (d : Deployment) : Option Submission → Deployment
  | some s => (d.run s.program).2
  | none => d

/-- A unit of work in which registry calls are made and a report may be taken in between, and which
fails in the end. -/
def rolledBack (d : Deployment) (before : List RegistryCall) (submission : Option Submission)
    (more : List RegistryCall) (failure : Failure) : Deployment :=
  (d.inBlock fun d => ((.error failure : Except Failure Unit),
    ((d.performAll before).taking submission).performAll more)).2

/-- In a unit of work a registry call that succeeds does what it does to the tables. -/
theorem callRegistry_ok_joined {u : UnitOfWork} (hOpen : d.openUnit = some u) {call : RegistryCall}
    {reply : call.Reply} (hOk : (d.callRegistry call).1 = .ok reply) :
    d.registry.run d.now d.nextUuid call = (.ok reply, (d.callRegistry call).2.registry) := by
  have hCall := callRegistry_joined hOpen call
  rcases hRun : d.registry.run d.now d.nextUuid call with ⟨e | reply', registry⟩ <;>
    rw [hRun] at hCall <;> rw [hCall] at hOk ⊢ <;> split at hOk
  · cases hOk
  · dsimp only at hOk
    split at hOk <;> cases hOk
  · cases hOk
  next hGoesOn =>
    rw [if_neg hGoesOn]
    exact congrArg (·, registry) hOk

/-- In a unit of work a registry call leaves the tables as they are, does what it does to them, or
has them restored. -/
theorem callRegistry_registry_joined {u : UnitOfWork} (hOpen : d.openUnit = some u)
    (call : RegistryCall) :
    (d.callRegistry call).2.registry = d.registry ∨
      (d.callRegistry call).2.registry = (d.registry.run d.now d.nextUuid call).2 ∨
      (d.callRegistry call).2.registry = u.before := by
  rw [callRegistry_joined hOpen]
  rcases d.registry.run d.now d.nextUuid call with ⟨e | reply, registry⟩ <;> split
  · exact .inl rfl
  · dsimp only
    split
    · exact .inr (.inr rfl)
    · exact .inr (.inl rfl)
  · exact .inl rfl
  · exact .inr (.inl rfl)

/-- Where no failure is staged, an append changes nothing besides the log, and does not drop it. -/
theorem perform_append (hStaged : d.staged = []) (record : EventRecord) :
    ∃ events waiting, (d.perform (.eventLog (.append record))).2 = { d with events, waiting } ∧
      events.dropped = d.events.dropped := by
  have hPerform : d.perform (.eventLog (.append record)) = d.callEventLog (.append record) := by
    rw [perform_unstaged hStaged]
    rfl
  rw [hPerform]
  by_cases hWait : d.appendsWait = true
  · refine ⟨d.events, d.waiting ++ [⟨record, d.correlation.current⟩], ?_, rfl⟩
    simp only [callEventLog, hWait]
    rfl
  · have hAppend : d.callEventLog (.append record) = d.appendEvent record := by
      simp only [callEventLog, hWait, Bool.false_eq_true]
      rfl
    rw [hAppend, appendEvent, takeStaged_unstaged hStaged]
    refine ⟨(d.events.run (.append record)).2, d.waiting, rfl, ?_⟩
    unfold EventLog.run
    split <;> rfl

/-- A unit of work is on its way that began with the tables of another deployment, and no issue of
these is lost. -/
structure Within (d₀ d : Deployment) : Prop where
  unit : ∃ broken, d.openUnit = some ⟨d₀.registry, broken⟩
  keyed : d.registry.Keyed
  onePerGroup : d.registry.OnePerGroup
  grown : d₀.registry.identities ⊆ d.registry.identities
  staged : d.staged = []
  logThere : d.events.dropped = false

namespace Within

theorem of_same (h : Within d₀ d) (hRegistry : after.registry = d.registry)
    (hUnit : after.openUnit = d.openUnit) (hStaged : after.staged = d.staged)
    (hThere : after.events.dropped = d.events.dropped) : Within d₀ after where
  unit := hUnit ▸ h.unit
  keyed := hRegistry ▸ h.keyed
  onePerGroup := hRegistry ▸ h.onePerGroup
  grown := hRegistry ▸ h.grown
  staged := hStaged.trans h.staged
  logThere := hThere.trans h.logThere

theorem call (h : Within d₀ d) (h₀ : d₀.Grouped) (call : RegistryCall) :
    Within d₀ (d.perform (.registry call)).2 := by
  obtain ⟨broken, hOpen⟩ := h.unit
  obtain ⟨registry, openUnit, issuesNamed, hFrame⟩ := d.callRegistry_frame call
  have hPerform : d.perform (.registry call) = d.callRegistry call := perform_unstaged h.staged _
  have hUnit := perform_openUnit_before hOpen call
  have hTables := callRegistry_registry_joined hOpen call
  rw [hPerform] at hUnit ⊢
  rw [hFrame] at hUnit hTables ⊢
  dsimp only at hUnit hTables
  -- A failure to add a row goes back to the tables that the unit began with, which lose nothing
  -- by definition.
  have hKept : registry.Keyed ∧ registry.OnePerGroup ∧
      d₀.registry.identities ⊆ registry.identities := by
    rcases hTables with rfl | rfl | rfl
    · exact ⟨h.keyed, h.onePerGroup, h.grown⟩
    · refine ⟨h.keyed.run _ _ _, h.onePerGroup.run h.keyed _ _ _, ?_⟩
      obtain hSame | ⟨draft, issue, rfl, hRun⟩ := h.keyed.run_identities d.now d.nextUuid call
      · rw [hSame]
        exact h.grown
      · rw [hRun, Registry.identities, Registry.identities, List.map_append]
        exact List.Subset.trans h.grown (List.subset_append_left _ _)
    · exact ⟨h₀.keyed, h₀.onePerGroup, List.Subset.refl _⟩
  exact ⟨hUnit, hKept.1, hKept.2.1, hKept.2.2, h.staged, h.logThere⟩

theorem calls (h : Within d₀ d) (h₀ : d₀.Grouped) (calls : List RegistryCall) :
    Within d₀ (d.performAll calls) := by
  induction calls generalizing d with
  | nil => exact h
  | cons call calls ih => exact ih (h.call h₀ call)

/-- What may be asked when a report is taken in. -/
theorem perform (h : Within d₀ d) (h₀ : d₀.Grouped) (hMay : s.errand.mayAsk clue q) :
    Within d₀ (d.perform q).2 := by
  have hAside : q = .now ∨ Aside q → Within d₀ (d.perform q).2 := fun hAside => by
    rw [perform_unstaged h.staged]
    rcases hAside with rfl | hAside
    · exact h
    · cases hAside <;> exact h.of_same rfl rfl rfl rfl
  cases q with
  | registry call => exact h.call h₀ call
  | eventLog call =>
      cases call with
      | append record =>
          obtain ⟨events, waiting, hAfter, hThere⟩ := perform_append h.staged record
          rw [hAfter]
          exact h.of_same rfl rfl rfl hThere
      | _ => exact hAside hMay
  | findCached service key =>
      rw [perform_unstaged h.staged]
      exact h.of_same rfl rfl rfl rfl
  | addCached service key issueId issueUuid =>
      rw [perform_unstaged h.staged]
      exact h.of_same rfl rfl rfl rfl
  | flushEvents => cases hMay
  | _ => exact hAside hMay

end Within

/-- A report on its way in a unit of work: what it was told fits its issue, and so does what the
service remembers about it. -/
structure Trial (s : Submission) (d₀ d : Deployment) (clue : Clue) : Prop extends Within d₀ d where
  told : ∀ t ∈ clue.told, s.Fits d₀ t.1 t.2
  entries : ∀ n, ∀ e ∈ (d.caches n).entries, e ∈ (d₀.caches n).entries ∨
    n = s.service.number ∧ e.key = s.key ∧ s.Fits d₀ e.issueId e.issueUuid

namespace Trial

theorem told_note (h : Trial s d₀ d clue) (h₀ : d₀.Grouped) (hMay : s.errand.mayAsk clue q)
    {t : Int × String} (ht : t ∈ (clue.note d q (d.perform q).1).told) : s.Fits d₀ t.1 t.2 := by
  rcases Clue.mem_told_note ht with hOld | hTells
  · exact h.told t hOld
  generalize hReply : (d.perform q).1 = reply at hTells
  rw [perform_unstaged h.staged] at hReply
  cases q with
  | registry call =>
      obtain ⟨broken, hOpen⟩ := h.unit
      cases reply with
      | error failure => cases hTells
      | ok answer =>
          have hRun := callRegistry_ok_joined hOpen hReply
          obtain ⟨y, hy, rfl, hGroup, hOrigin⟩ := Errand.told_by_call hMay hRun hTells
          obtain hGroup : s.group = y.group := Option.some.inj hGroup
          intro x hx hIs
          rcases hOrigin with hOld | hFree
          · obtain rfl := h.onePerGroup.eq (h.grown hx) hOld (hIs.trans hGroup)
            exact ⟨rfl, rfl⟩
          · -- The group had no issue, or this one would not have been stored.
            exact absurd (List.mem_map.mpr ⟨x, h.grown hx, hIs.trans hGroup⟩) hFree
  | findCached service key =>
      obtain ⟨projectId, fingerprint, hGroup, rfl⟩ := hMay
      obtain hGroup : s.group = (projectId, fingerprint) := Option.some.inj hGroup
      cases hTells with
      | remembered _ _ known =>
          obtain ⟨hMem, hKey⟩ := (IssueCache.find_cases (d.caches service.number) service.policy
            d.elapsed (cacheKey projectId fingerprint)).2 known (Except.ok.inj hReply)
          -- What was remembered before the unit began is right, as it was outside of a unit.
          rcases h.entries _ known hMem with hOld | ⟨-, -, hFits⟩
          · intro x hx hIs
            obtain ⟨y, hy, hId, hUuid, hIsKey⟩ := h₀.cached _ known hOld
            obtain ⟨hProject, hPrint⟩ := cacheKey_injective (hIsKey.trans hKey)
            have hSame : y.group = (projectId, fingerprint) := Prod.ext hProject hPrint
            obtain rfl := h₀.onePerGroup.eq hx hy (hIs.trans (hGroup.trans hSame.symm))
            exact ⟨hId, hUuid⟩
          · exact hFits
  | _ => cases hTells

theorem perform (h : Trial s d₀ d clue) (h₀ : d₀.Grouped) (hMay : s.errand.mayAsk clue q) :
    Trial s d₀ (d.perform q).2 (clue.note d q (d.perform q).1) where
  toWithin := h.toWithin.perform h₀ hMay
  told t ht := h.told_note h₀ hMay ht
  entries n e he := by
    rcases (d.perform_adds q).entries n e he with hOld | ⟨service, rfl, rfl⟩
    · exact h.entries n e hOld
    · obtain ⟨hTold, hService, projectId, fingerprint, hGroup, hKey⟩ := hMay
      obtain rfl := Option.some.inj hService
      obtain ⟨rfl, rfl⟩ := Prod.mk.inj (Option.some.inj hGroup)
      exact .inr ⟨rfl, hKey, h.told _ hTold⟩

end Trial

variable {before more : List RegistryCall} {failure : Failure}

/-- Registry calls change no cache. -/
theorem performAll_caches (d : Deployment) (calls : List RegistryCall) (n : Nat) :
    ((d.performAll calls).caches n).entries ⊆ (d.caches n).entries := by
  induction calls generalizing d with
  | nil => exact List.Subset.refl _
  | cons call calls ih =>
      refine List.Subset.trans (ih _) fun e he => ?_
      rcases (d.perform_adds (.registry call)).entries n e he with hOld | ⟨service, -, hNew⟩
      · exact hOld
      · cases hNew

/-- The body of a unit of work that begins. -/
theorem Grouped.within (h : d.Grouped) (hStaged : d.staged = [])
    (hThere : d.events.dropped = false) : Within d d.entered := by
  have hEntered : d.entered = { d with openUnit := some ⟨d.registry, false⟩ } := by
    simp only [entered, h.unit]
  rw [hEntered]
  exact ⟨⟨false, rfl⟩, h.keyed, h.onePerGroup, List.Subset.refl _, hStaged, hThere⟩

theorem rolledBack_eq (hUnit : d.openUnit = none) (before : List RegistryCall)
    (submission : Option Submission) (more : List RegistryCall) (failure : Failure) :
    d.rolledBack before submission more failure =
      { (((d.entered.performAll before).taking submission).performAll more).outside with
        registry := d.registry } := by
  simp only [rolledBack, inBlock, inUnit, entered, hUnit]
  rfl

/-- A deployment after a unit of work in which a report may have been taken in and which was rolled
back: all but the caches is as good as before, and a new entry fits the report. -/
structure Restored (d : Deployment) (submission : Option Submission) (after : Deployment) :
    Prop where
  registry : after.registry = d.registry
  unit : after.openUnit = none
  staged : after.staged = []
  logThere : after.events.dropped = false
  entries : ∀ n, ∀ e ∈ (after.caches n).entries, e ∈ (d.caches n).entries ∨
    ∃ s, submission = some s ∧ n = s.service.number ∧ e.key = s.key ∧ s.Fits d e.issueId e.issueUuid

/-- Registry calls and a report that are rolled back leave at most an entry about the report in the
cache of the service that took it in. -/
theorem rolledBack_restored (h : d.Grouped) (hStaged : d.staged = [])
    (hThere : d.events.dropped = false) (before : List RegistryCall)
    (submission : Option Submission) (more : List RegistryCall) (failure : Failure) :
    d.Restored submission (d.rolledBack before submission more failure) := by
  -- The body is followed up to where it fails; then only the tables are put back.
  have hBefore := (h.within hStaged hThere).calls h before
  have hOld : ∀ n, ((d.entered.performAll before).caches n).entries ⊆ (d.caches n).entries := by
    intro n
    refine List.Subset.trans (d.entered.performAll_caches before n) ?_
    simp only [entered, h.unit]
    exact List.Subset.refl _
  have hTaken : Within d ((d.entered.performAll before).taking submission) ∧
      ∀ n, ∀ e ∈ (((d.entered.performAll before).taking submission).caches n).entries,
        e ∈ (d.caches n).entries ∨ ∃ s, submission = some s ∧ n = s.service.number ∧ e.key = s.key ∧
          s.Fits d e.issueId e.issueUuid := by
    cases submission with
    | none => exact ⟨hBefore, fun n e he => .inl (hOld n he)⟩
    | some s =>
        have hTrial : Trial s d (d.entered.performAll before) Clue.initial :=
          ⟨hBefore, fun t ht => (List.not_mem_nil ht).elim, fun n e he => .inl (hOld n he)⟩
        obtain ⟨clue, -, hAfter⟩ := Errand.ingest_keeps.run
          (fun d' clue q hMay hTrial => Trial.perform hTrial h hMay) hTrial
        exact ⟨hAfter.toWithin,
          fun n e he => (hAfter.entries n e he).imp_right fun hNew => ⟨s, rfl, hNew⟩⟩
  have hMore := hTaken.1.calls h more
  rw [rolledBack_eq h.unit]
  exact ⟨rfl, rfl, hMore.staged, hMore.logThere,
    fun n e he => hTaken.2 n e (performAll_caches _ more n he)⟩

end Deployment
end Triage
