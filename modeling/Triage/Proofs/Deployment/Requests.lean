import Triage.Proofs.Deployment.Additions
import Triage.Proofs.Deployment.Running

/-!
# What a run asks

The requests that a program makes when it is run by itself (`asked`), and the posts among them
(`posted`).  A sequence asks what its first part asks, and then what its second part asks from there
(`asked_bind`), so a run can ask less than the program might (`AsksOnly.bind`) and be followed to
where it decides how to go on (`Leads`); a program that never posts has no posts
(`posted_of_silent`).  A quiet deployment stays quiet whatever is asked
(`Quiet.perform`), and reading from its tables leaves it as it is (`Quiet.run_read`).
-/

namespace Triage

namespace Request

/-- The post of a request, if it is one. -/
def post? : Request → Option Webhook.Post
  | .post p => some p
  | _ => none

end Request

/-- Programs that never post, whatever they are told. -/
def Program.Silent (p : Program α) : Prop := p.Asks fun q => q.post? = none

theorem Program.silent_request {q : Request} (h : q.post? = none) : (Program.request q).Silent :=
  Program.asks_request h

namespace Deployment

variable {d : Deployment}

/-- The requests of a run, in order. -/
def asked (d : Deployment) : Program α → List Request
  | .done _ => []
  | .fail _ => []
  | .ask q next => q :: (d.perform q).2.asked (next (d.perform q).1)

/-- The posts of a run, in order. -/
def posted (d : Deployment) (p : Program α) : List Webhook.Post :=
  (d.asked p).filterMap Request.post?

/-- A sequence asks what its first part asks, and then what its second part asks. -/
theorem asked_bind (d : Deployment) (p : Program β) (f : β → Program α) :
    d.asked (p >>= f) = d.asked p ++
      match d.run p with
      | (.ok b, after) => after.asked (f b)
      | (.error _, _) => [] := by
  have hThen : d.asked (p.andThen f) = d.asked p ++
      match d.run p with
      | (.ok b, after) => after.asked (f b)
      | (.error _, _) => [] := by
    induction p generalizing d with
    | done b => rfl
    | fail e => rfl
    | ask q next ih => simp only [Program.andThen, asked, run, ih, List.cons_append]
  exact hThen

/-- What the first part of a sequence asks, the sequence asks. -/
theorem mem_asked_bind {p : Program β} {f : β → Program α} {q : Request} (h : q ∈ d.asked p) :
    q ∈ d.asked (p >>= f) := by
  rw [asked_bind]
  exact List.mem_append_left _ h

/-- A sequence whose first part ends well. -/
theorem asked_bind_ok {p : Program β} {f : β → Program α} {b : β} {after : Deployment}
    (hRun : d.run p = (.ok b, after)) : d.asked (p >>= f) = d.asked p ++ after.asked (f b) := by
  rw [asked_bind, hRun]

/-- A sequence whose first part fails. -/
theorem asked_bind_error {p : Program β} {f : β → Program α} {e : Failure} {after : Deployment}
    (hRun : d.run p = (.error e, after)) : d.asked (p >>= f) = d.asked p := by
  rw [asked_bind, hRun, List.append_nil]

theorem posted_bind {p : Program β} {f : β → Program α} {b : β} {after : Deployment}
    (hRun : d.run p = (.ok b, after)) : d.posted (p >>= f) = d.posted p ++ after.posted (f b) := by
  rw [posted, asked_bind_ok hRun, List.filterMap_append]
  rfl

theorem posted_bind_error {p : Program β} {f : β → Program α} {e : Failure} {after : Deployment}
    (hRun : d.run p = (.error e, after)) : d.posted (p >>= f) = d.posted p := by
  rw [posted, asked_bind_error hRun]
  rfl

/-- Everything that is asked in a run is of the kind that the program asks. -/
theorem mem_asked {kind : Request → Prop} {p : Program α} (hp : p.Asks kind) {q : Request}
    (h : q ∈ d.asked p) : kind q := by
  induction p generalizing d with
  | done a => cases h
  | fail e => cases h
  | ask first next ih =>
      rcases List.mem_cons.mp h with rfl | hRest
      · exact hp.1
      · exact ih _ (hp.2 _) hRest

theorem posted_of_silent {p : Program α} (hp : p.Silent) : d.posted p = [] := by
  rw [posted, List.filterMap_eq_nil_iff]
  intro q hq
  exact mem_asked hp hq

/-- A sequence whose first part never posts and ends well. -/
theorem posted_silent_bind {p : Program β} {f : β → Program α} {b : β} {after : Deployment}
    (hp : p.Silent) (hRun : d.run p = (.ok b, after)) : d.posted (p >>= f) = after.posted (f b) := by
  rw [posted_bind hRun, posted_of_silent hp, List.nil_append]

/-- A sequence whose first part never posts and fails. -/
theorem posted_silent_fail {p : Program β} {f : β → Program α} {e : Failure} {after : Deployment}
    (hp : p.Silent) (hRun : d.run p = (.error e, after)) : d.posted (p >>= f) = [] := by
  rw [posted_bind_error hRun, posted_of_silent hp]

/-- A sequence whose second part never posts. -/
theorem posted_bind_silent {p : Program β} {f : β → Program α} (hf : ∀ b, (f b).Silent) :
    d.posted (p >>= f) = d.posted p := by
  rcases hRun : d.run p with ⟨e | b, after⟩
  · exact posted_bind_error hRun
  · rw [posted_bind hRun, posted_of_silent (hf b), List.append_nil]

theorem asked_request (d : Deployment) (q : Request) : d.asked (Program.request q) = [q] := by
  rw [Program.request, asked]
  cases (d.perform q).1 <;> rfl

theorem posted_request (d : Deployment) (q : Request) :
    d.posted (Program.request q) = q.post?.toList := by
  rw [posted, asked_request, List.filterMap_cons]
  cases q.post? <;> rfl

theorem asked_attempt (d : Deployment) (p : Program α) : d.asked p.attempt = d.asked p := by
  induction p generalizing d with
  | done a => rfl
  | fail e => rfl
  | ask q next ih => simp only [Program.attempt, asked, ih]

/-- A sequence that goes on with the outcome of an attempt that never posts. -/
theorem posted_silent_attempt_bind {p : Program β} {f : Except Failure β → Program α}
    {outcome : Except Failure β} {after : Deployment} (hp : p.Silent)
    (hRun : d.run p = (outcome, after)) : d.posted (p.attempt >>= f) = after.posted (f outcome) :=
  posted_silent_bind hp.attempt (by rw [run_attempt, hRun])

/-- An attempt after whose outcome nothing is posted. -/
theorem posted_attempt_bind_silent {p : Program β} {f : Except Failure β → Program α}
    (hf : ∀ outcome, (f outcome).Silent) : d.posted (p.attempt >>= f) = d.posted p := by
  rw [posted_bind_silent hf, posted, asked_attempt, posted]

/-- Run from a deployment, a program asks only requests of some kind. -/
def AsksOnly (d : Deployment) (kind : Request → Prop) (p : Program α) : Prop :=
  ∀ q ∈ d.asked p, kind q

section AsksOnly

variable {kind : Request → Prop}

theorem asksOnly_request {q : Request} (h : kind q) : d.AsksOnly kind (Program.request q) := by
  rw [AsksOnly, asked_request]
  simpa using h

theorem asksOnly_of_asks {p : Program α} (hp : p.Asks kind) : d.AsksOnly kind p :=
  fun _ hq => mem_asked hp hq

/-- A sequence: the second part matters only where the first one ends well. -/
theorem AsksOnly.bind {p : Program β} {f : β → Program α} (hp : d.AsksOnly kind p)
    (hNext : ∀ b after, d.run p = (.ok b, after) → after.AsksOnly kind (f b)) :
    d.AsksOnly kind (p >>= f) := by
  intro q hq
  rw [asked_bind] at hq
  rcases List.mem_append.mp hq with hFirst | hRest
  · exact hp q hFirst
  · rcases hRun : d.run p with ⟨e | b, after⟩ <;> rw [hRun] at hRest
    · cases hRest
    · exact hNext b after hRun q hRest

theorem AsksOnly.attempt_bind {p : Program β} {f : Except Failure β → Program α}
    (hp : d.AsksOnly kind p)
    (hNext : ∀ outcome after, d.run p = (outcome, after) → after.AsksOnly kind (f outcome)) :
    d.AsksOnly kind (p.attempt >>= f) := by
  refine AsksOnly.bind ?_ fun outcome after hRun => ?_
  · rw [AsksOnly, asked_attempt]
    exact hp
  · rw [run_attempt] at hRun
    obtain ⟨hOutcome, rfl⟩ := Prod.mk.inj hRun
    exact hNext outcome _ (Prod.ext (Except.ok.inj hOutcome) rfl)

theorem AsksOnly.ensure {p : Program α} {last : Program Unit} (hp : d.AsksOnly kind p)
    (hLast : ∀ outcome after, d.run p = (outcome, after) → after.AsksOnly kind last) :
    d.AsksOnly kind (p.ensure last) := by
  refine hp.attempt_bind fun outcome after hRun => ?_
  refine (hLast outcome after hRun).bind fun _ final _ => ?_
  cases outcome <;> exact fun _ hq => absurd hq List.not_mem_nil

/-- Run from `d`, a program asks requests of some kind, and then goes on as another one does from
`after`. -/
structure Leads (kind : Request → Prop) (d : Deployment) (p : Program α) (after : Deployment)
    (rest : Program α) : Prop where
  run : d.run p = after.run rest
  asked : ∃ first, (∀ q ∈ first, kind q) ∧ d.asked p = first ++ after.asked rest

namespace Leads

variable {after final : Deployment}

theorem trans {p middle rest : Program α} (hFirst : Leads kind d p after middle)
    (hRest : Leads kind after middle final rest) : Leads kind d p final rest := by
  obtain ⟨first, hOf, hAsked⟩ := hFirst.asked
  obtain ⟨later, hOfLater, hAskedLater⟩ := hRest.asked
  refine ⟨hFirst.run.trans hRest.run, first ++ later, ?_, ?_⟩
  · exact List.forall_mem_append.mpr ⟨hOf, hOfLater⟩
  · rw [hAsked, hAskedLater, List.append_assoc]

/-- A sequence whose first part ends well leads to its second part. -/
theorem bind {p : Program β} {f : β → Program α} {b : β} (hp : d.AsksOnly kind p)
    (hRun : d.run p = (.ok b, after)) : Leads kind d (p >>= f) after (f b) :=
  ⟨Program.run_bind hRun, d.asked p, hp, asked_bind_ok hRun⟩

/-- A sequence whose first part fails leads to the failure. -/
theorem bind_error {p : Program β} {f : β → Program α} {e : Failure} (hp : d.AsksOnly kind p)
    (hRun : d.run p = (.error e, after)) : Leads kind d (p >>= f) after (throw e) :=
  ⟨Program.run_bind_error hRun, d.asked p, hp, (asked_bind_error hRun).trans (List.append_nil _).symm⟩

/-- A sequence that goes on with the outcome of an attempt leads there. -/
theorem attempt_bind {p : Program β} {f : Except Failure β → Program α}
    {outcome : Except Failure β} (hp : d.AsksOnly kind p) (hRun : d.run p = (outcome, after)) :
    Leads kind d (p.attempt >>= f) after (f outcome) := by
  refine bind ?_ (by rw [run_attempt, hRun])
  rw [AsksOnly, asked_attempt]
  exact hp

theorem asksOnly {p rest : Program α} (h : Leads kind d p after rest)
    (hRest : after.AsksOnly kind rest) : d.AsksOnly kind p := by
  obtain ⟨first, hOf, hAsked⟩ := h.asked
  rw [AsksOnly, hAsked]
  exact List.forall_mem_append.mpr ⟨hOf, hRest⟩

theorem ends {p rest : Program α} {post : Except Failure α → Deployment → Prop}
    (h : Leads kind d p after rest) (hRest : rest.Ends after post) : p.Ends d post := by
  rw [Program.Ends, h.run]
  exact hRest

end Leads
end AsksOnly

/-- Where no failure is staged, none is staged after a request. -/
theorem carryOutRequest_unstaged (hStaged : d.staged = []) (q : Request) :
    (d.carryOutRequest q).2.staged = [] := by
  have hAppend : ∀ (d : Deployment) (record : EventRecord), d.staged = [] →
      (d.appendEvent record).2.staged = [] := by
    intro d record hStaged
    rw [appendEvent, takeStaged_unstaged hStaged]
    exact hStaged
  have hFlush : ∀ (waiting : List WaitingAppend) (d : Deployment), d.staged = [] →
      (waiting.foldl carryOut d).staged = [] := by
    intro waiting
    induction waiting with
    | nil => exact fun d hStaged => hStaged
    | cons w waiting ih =>
        intro d hStaged
        have hFirst := hAppend d w.record hStaged
        refine ih _ ?_
        unfold carryOut
        split <;> rename_i hEq <;> rw [hEq] at hFirst <;> exact hFirst
  cases q with
  | registry call =>
      obtain ⟨registry, openUnit, issuesNamed, hCall⟩ := d.callRegistry_frame call
      rw [carryOutRequest, hCall]
      exact hStaged
  | eventLog call =>
      cases call with
      | append record =>
          cases hWait : d.appendsWait with
          | true =>
              simp only [carryOutRequest, callEventLog, hWait]
              exact hStaged
          | false =>
              rw [carryOutRequest, callEventLog_append hWait]
              exact hAppend d record hStaged
      | _ => exact hStaged
  | flushEvents => exact hFlush d.waiting { d with waiting := [] } hStaged
  | noteChange change =>
      obtain ⟨registry, hNote⟩ := d.noteChange_frame change
      rw [carryOutRequest, hNote]
      exact hStaged
  | post p =>
      obtain ⟨posts, outcomes, hPost⟩ := d.sendPost_frame p
      rw [carryOutRequest, hPost]
      exact hStaged
  | startWorker instanceId =>
      simp only [carryOutRequest]
      split <;> exact hStaged
  | _ => exact hStaged

/-- A quiet deployment stays quiet. -/
theorem Quiet.perform (h : d.Quiet) (q : Request) : (d.perform q).2.Quiet where
  unit := d.perform_openUnit h.unit q
  staged := by
    rw [perform_unstaged h.staged]
    exact carryOutRequest_unstaged h.staged q
  there := (perform_dropped h.unit q).trans h.there

/-- What every request keeps, every program keeps. -/
theorem run_keeps {inv : Deployment → Prop} (hKeep : ∀ d q, inv d → inv (d.perform q).2) (h : inv d)
    (p : Program α) : inv (d.run p).2 := by
  induction p generalizing d with
  | done a => exact h
  | fail e => exact h
  | ask q next ih => exact ih _ (hKeep d q h)

theorem Quiet.run (h : d.Quiet) (p : Program α) : (d.run p).2.Quiet :=
  run_keeps (fun _ q h => h.perform q) h p

/-- Outside a unit of work no program drops the tables or makes them. -/
theorem run_dropped (hUnit : d.openUnit = none) (p : Program α) :
    (d.run p).2.registry.dropped = d.registry.dropped := by
  let inv (after : Deployment) : Prop :=
    after.openUnit = none ∧ after.registry.dropped = d.registry.dropped
  have hKeep : ∀ after q, inv after → inv (after.perform q).2 := fun after q ⟨hUnit, hSame⟩ =>
    ⟨after.perform_openUnit hUnit q, (perform_dropped hUnit q).trans hSame⟩
  exact (run_keeps hKeep ⟨hUnit, rfl⟩ p).2

/-- Outside a unit of work the keys stay distinct. -/
theorem run_keyed (hUnit : d.openUnit = none) (hKeyed : d.registry.Keyed) (p : Program α) :
    (d.run p).2.registry.Keyed := by
  let inv (after : Deployment) : Prop := after.openUnit = none ∧ after.registry.Keyed
  have hKeep : ∀ after q, inv after → inv (after.perform q).2 := fun after q ⟨hUnit, hKeyed⟩ =>
    ⟨after.perform_openUnit hUnit q, perform_keyed hUnit hKeyed q⟩
  exact (run_keeps hKeep ⟨hUnit, hKeyed⟩ p).2

/-- Outside a unit of work, a table that no request of a run writes keeps its rows. -/
theorem AsksOnly.sameRows (hUnit : d.openUnit = none) {t : Table} {p : Program α}
    (hp : d.AsksOnly (fun q => ∀ call, q.call? = some call → t ∉ call.writes) p) :
    d.registry.SameRows (d.run p).2.registry t := by
  induction p generalizing d with
  | done a => exact Registry.SameRows.rfl _ t
  | fail e => exact Registry.SameRows.rfl _ t
  | ask q next ih =>
      have hRest := ih _ (d.perform_openUnit hUnit q) fun r hr => hp r (.tail _ hr)
      have hFirst : d.registry.SameRows (d.perform q).2.registry t := by
        obtain hSame | ⟨call, reply, freshUuid, hCall, hRun⟩ := perform_cases hUnit q
        · rw [hSame]
          exact Registry.SameRows.rfl _ t
        · have hRows := d.registry.run_sameRows d.now freshUuid call (hp q (.head _) call hCall)
          rwa [hRun] at hRows
      cases t <;> exact hRest.trans hFirst

/-- Outside a unit of work, a program that writes some tables only keeps the rows of every other one. -/
theorem sameRows_of_writes (hUnit : d.openUnit = none) {tables : List Table} {p : Program α}
    (hp : p.Asks fun q => ∀ call, q.call? = some call → call.writes ⊆ tables) {t : Table}
    (hOther : t ∉ tables) : d.registry.SameRows (d.run p).2.registry t :=
  AsksOnly.sameRows hUnit <| asksOnly_of_asks <| hp.mono fun _ hq call hCall hMem =>
    hOther (hq call hCall hMem)

theorem Quiet.of_run (h : d.Quiet) {p : Program α} {outcome : Except Failure α} {after : Deployment}
    (hRun : d.run p = (outcome, after)) : after.Quiet := by
  have hQuiet := h.run p
  rwa [hRun] at hQuiet

/-- Reading from the tables of a quiet deployment leaves it as it is. -/
theorem Quiet.run_read (h : d.Quiet) {call : RegistryCall} {reply : Except Failure call.Reply}
    (hApply : d.registry.apply d.now d.nextUuid call = (reply, d.registry))
    (hUuid : call.takesUuid = false) : d.run (Program.registry call) = (reply, d) := by
  refine (d.run_request _).trans ?_
  rw [h.perform_eq_apply, hApply, namedAfter, hUuid]
  cases reply <;> rfl

end Deployment
end Triage
