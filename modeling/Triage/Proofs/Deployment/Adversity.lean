import Triage.Deployment.Interleaving
import Triage.Proofs.Deployment.Conduct

/-!
# Programs under adversity

A program is seldom alone: before each of its requests time may pass and others may change the
deployment, and a call may fail for reasons of its own.  A `Hitch` is what one request meets with, and
`Deployment.runAmid` runs a program amid hitches, with a record of its moments.  What can be said of
a program whatever hitches of a kind it meets with is said by `Program.Fares`; its laws follow the
structure of programs, and what it says holds of every course (`Fares.course`).  Amid no hitches a
program runs as by itself (`runAmid_nil`).
-/

namespace Triage

/-- What a request meets with: what happens to the deployment before it, and a failure in its place,
if there is one. -/
structure Hitch where
  meanwhile : Deployment → Deployment
  failure : Option Failure

/-- Nothing happens, and nothing fails. -/
def Hitch.absent : Hitch := ⟨id, none⟩

/-- Nothing happens but that time passes; the request may still fail. -/
def Hitch.Delays (h : Hitch) : Prop := ∃ micros : Nat, h.meanwhile = fun d => d.advance micros

theorem Hitch.absent_delays : Hitch.absent.Delays := by
  refine ⟨0, funext fun d => ?_⟩
  simp [absent, Deployment.advance, Instant.shift]

/-- What became of a program: its moments, its outcome, and the deployment that it left. -/
structure Course (α : Type) where
  moments : List (Moment Unit)
  outcome : Except Failure α
  after : Deployment

namespace Deployment

/-- Carries out a request that meets with a hitch.  Only a request fails for which a failure can be
staged. -/
def meet (d : Deployment) (h : Hitch) (q : Request) : Except Failure q.Reply × Deployment :=
  match h.failure, q.target? with
  | some e, some _ => (.error e, h.meanwhile d)
  | _, _ => (h.meanwhile d).perform q

/-- The moment of a request that meets with a hitch. -/
def momentAmid (d : Deployment) (h : Hitch) (q : Request) : Moment Unit :=
  ⟨(), q, (d.meet h q).1, h.meanwhile d⟩

/-- Runs a program amid hitches, one for each request; when they are used up, there are no more. -/
def runAmid (d : Deployment) : List Hitch → Program α → Course α
  | _, .done a => ⟨[], .ok a, d⟩
  | _, .fail e => ⟨[], .error e, d⟩
  | hitches, .ask q next =>
    let h := hitches.head?.getD .absent
    let rest := (d.meet h q).2.runAmid hitches.tail (next (d.meet h q).1)
    { rest with moments := d.momentAmid h q :: rest.moments }

variable {d : Deployment} {h : Hitch} {q : Request}

/-- A request fails, or it is carried out after what has happened. -/
theorem meet_cases (d : Deployment) (h : Hitch) (q : Request) :
    (∃ e, d.meet h q = (.error e, h.meanwhile d)) ∨ d.meet h q = (h.meanwhile d).perform q := by
  unfold meet
  split
  next e _ _ _ => exact .inl ⟨e, rfl⟩
  next => exact .inr rfl

/-- A request that was answered was carried out. -/
theorem meet_ok {reply : q.Reply} (hReply : (d.meet h q).1 = .ok reply) :
    d.meet h q = (h.meanwhile d).perform q := by
  obtain ⟨e, hFail⟩ | hDone := d.meet_cases h q
  · rw [hFail] at hReply
    cases hReply
  · exact hDone

/-- A request for which no failure can be staged is carried out. -/
theorem meet_sure (hSure : q.target? = none) : d.meet h q = (h.meanwhile d).perform q := by
  rw [meet, hSure]
  cases h.failure <;> rfl

/-- Amid no hitches a program runs as by itself. -/
theorem runAmid_nil (d : Deployment) (p : Program α) :
    ((d.runAmid [] p).outcome, (d.runAmid [] p).after) = d.run p := by
  induction p generalizing d with
  | done a => rfl
  | fail e => rfl
  | ask q next ih => exact ih _ _

section

variable {hitches : List Hitch} {f : q.Reply → Program α} {after : Deployment}

/-- A sequence that begins with a request goes on with the reply. -/
theorem runAmid_request_bind (d : Deployment) (hitches : List Hitch) (f : q.Reply → Program α) :
    d.runAmid hitches (Program.request q >>= f) =
      let h := hitches.head?.getD .absent
      let next : Program q.Reply :=
        match (d.meet h q).1 with
        | .ok reply => .done reply
        | .error e => .fail e
      let rest := (d.meet h q).2.runAmid hitches.tail (next.andThen f)
      { rest with moments := d.momentAmid h q :: rest.moments } := rfl

theorem runAmid_request_failed {e : Failure}
    (hMet : d.meet (hitches.head?.getD .absent) q = (.error e, after)) :
    d.runAmid hitches (Program.request q >>= f) =
      ⟨[d.momentAmid (hitches.head?.getD .absent) q], .error e, after⟩ := by
  rw [runAmid_request_bind]
  dsimp only
  rw [hMet]
  rfl

theorem runAmid_request_ok {reply : q.Reply}
    (hMet : d.meet (hitches.head?.getD .absent) q = (.ok reply, after)) :
    d.runAmid hitches (Program.request q >>= f) =
      let rest := after.runAmid hitches.tail (f reply)
      { rest with moments := d.momentAmid (hitches.head?.getD .absent) q :: rest.moments } := by
  rw [runAmid_request_bind]
  dsimp only
  rw [hMet]
  rfl

end

end Deployment

namespace Program

/-- Whatever hitches of a kind it meets with, a program that starts from a deployment has moments,
an outcome and a deployment after it of a given kind. -/
def Fares (kind : Hitch → Prop) :
    (List (Moment Unit) → Except Failure α → Deployment → Prop) → Deployment → Program α → Prop
  | post, d, .done a => post [] (.ok a) d
  | post, d, .fail e => post [] (.error e) d
  | post, d, .ask q next => ∀ h, kind h →
    Fares kind (fun moments => post (d.momentAmid h q :: moments)) (d.meet h q).2
      (next (d.meet h q).1)

variable {kind : Hitch → Prop} {d : Deployment}
  {post : List (Moment Unit) → Except Failure α → Deployment → Prop}

theorem Fares.mono {stronger : List (Moment Unit) → Except Failure α → Deployment → Prop}
    {p : Program α} (hp : p.Fares kind stronger d)
    (hPost : ∀ moments outcome after, stronger moments outcome after → post moments outcome after) :
    p.Fares kind post d := by
  induction p generalizing d post stronger with
  | done a => exact hPost _ _ _ hp
  | fail e => exact hPost _ _ _ hp
  | ask q next ih =>
      exact fun h hKind => ih _ (hp h hKind) fun moments => hPost (d.momentAmid h q :: moments)

/-- What can be said however a program fares holds of its course. -/
theorem Fares.course {p : Program α} (hp : p.Fares kind post d) (hAbsent : kind .absent)
    {hitches : List Hitch} (hHitches : ∀ h ∈ hitches, kind h) :
    post (d.runAmid hitches p).moments (d.runAmid hitches p).outcome
      (d.runAmid hitches p).after := by
  induction p generalizing d post hitches with
  | done a => exact hp
  | fail e => exact hp
  | ask q next ih =>
      have hFirst : kind (hitches.head?.getD .absent) := by
        cases hitches with
        | nil => exact hAbsent
        | cons first rest => exact hHitches first (.head _)
      exact ih _ (hp _ hFirst) fun h hMem => hHitches h (List.mem_of_mem_tail hMem)

theorem fares_pure {a : α} (hPost : post [] (.ok a) d) : (pure a : Program α).Fares kind post d :=
  hPost

/-- However a program fares, it runs amid hitches of the kind. -/
theorem fares_run (p : Program α) (d : Deployment) :
    p.Fares kind (fun moments outcome after => ∃ hitches : List Hitch, (∀ h ∈ hitches, kind h) ∧
      d.runAmid hitches p = ⟨moments, outcome, after⟩) d := by
  induction p generalizing d with
  | done a => exact ⟨[], List.forall_mem_nil _, rfl⟩
  | fail e => exact ⟨[], List.forall_mem_nil _, rfl⟩
  | ask q next ih =>
      intro h hKind
      refine (ih _ _).mono fun moments outcome after ⟨hitches, hHitches, hRun⟩ => ?_
      refine ⟨h :: hitches, List.forall_mem_cons.mpr ⟨hKind, hHitches⟩, ?_⟩
      have hRest : (d.meet h q).2.runAmid hitches (next (d.meet h q).1) =
          ⟨moments, outcome, after⟩ := hRun
      rw [Deployment.runAmid, List.head?_cons, Option.getD_some, List.tail_cons, hRest]

/-- A sequence: the second part goes on from where the first one ends well. -/
theorem Fares.bind {p : Program β} {f : β → Program α}
    (hp : p.Fares kind (fun moments outcome after =>
      match outcome with
      | .ok b => (f b).Fares kind (fun later => post (moments ++ later)) after
      | .error e => post moments (.error e) after) d) : (p >>= f).Fares kind post d := by
  induction p generalizing d post with
  | done b => exact hp
  | fail e => exact hp
  | ask q next ih => exact fun h hKind => ih _ (hp h hKind)

theorem Fares.attempt
    {post : List (Moment Unit) → Except Failure (Except Failure α) → Deployment → Prop}
    {p : Program α} (hp : p.Fares kind (fun moments outcome => post moments (.ok outcome)) d) :
    p.attempt.Fares kind post d := by
  induction p generalizing d post with
  | done a => exact hp
  | fail e => exact hp
  | ask q next ih => exact fun h hKind => ih _ (hp h hKind)

/-- A sequence that goes on with the outcome of an attempt. -/
theorem Fares.attempt_bind {p : Program β} {f : Except Failure β → Program α}
    (hp : p.Fares kind (fun moments outcome after =>
      (f outcome).Fares kind (fun later => post (moments ++ later)) after) d) :
    (p.attempt >>= f).Fares kind post d :=
  Fares.bind (Fares.attempt hp)

/-- The last step is taken however the program ends, and then its outcome counts. -/
theorem Fares.ensure {p : Program α} {last : Program Unit}
    (hp : p.Fares kind (fun moments outcome after =>
      last.Fares kind (fun later ended final =>
        match ended with
        | .ok () => post (moments ++ later) outcome final
        | .error e => post (moments ++ later) (.error e) final) after) d) :
    (p.ensure last).Fares kind post d := by
  refine Fares.attempt_bind (hp.mono fun moments outcome after hLast => ?_)
  refine Fares.bind (hLast.mono fun later ended final hEnd => ?_)
  cases ended with
  | error e => exact hEnd
  | ok _ =>
      have hPost : post (moments ++ (later ++ [])) outcome final := by rwa [List.append_nil]
      cases outcome <;> exact hPost

/-- A single request. -/
theorem fares_request {q : Request}
    {post : List (Moment Unit) → Except Failure q.Reply → Deployment → Prop}
    (hPost : ∀ h, kind h → post [d.momentAmid h q] (d.meet h q).1 (d.meet h q).2) :
    (request q).Fares kind post d := by
  intro h hKind
  have hSelf := hPost h hKind
  cases hReply : (d.meet h q).1 <;> rw [hReply] at hSelf <;> exact hSelf

/-- A request, and what goes on with its reply. -/
theorem Fares.request_bind {q : Request} {f : q.Reply → Program α}
    (hFail : ∀ h e, kind h → (d.meet h q).1 = .error e →
      post [d.momentAmid h q] (.error e) (d.meet h q).2)
    (hNext : ∀ h reply, kind h → (d.meet h q).1 = .ok reply →
      (f reply).Fares kind (fun later => post (d.momentAmid h q :: later)) (d.meet h q).2) :
    (request q >>= f).Fares kind post d := by
  refine Fares.bind (fares_request fun h hKind => ?_)
  cases hReply : (d.meet h q).1 with
  | error e => exact hFail h e hKind hReply
  | ok reply => exact hNext h reply hKind hReply

/-- A reading of the clock, which cannot fail, and what goes on with it. -/
theorem Fares.now_bind {f : Instant → Program α}
    (hNext : ∀ h, kind h → (f (h.meanwhile d).now).Fares kind
      (fun later => post (d.momentAmid h .now :: later)) (h.meanwhile d)) :
    (Program.now >>= f).Fares kind post d := by
  have hRead : ∀ h, d.meet h .now = (.ok (h.meanwhile d).now, h.meanwhile d) :=
    fun h => Deployment.meet_sure rfl
  refine Fares.request_bind (fun h e _ hReply => ?_) fun h time hKind hReply => ?_
  · rw [hRead] at hReply
    cases hReply
  · rw [hRead] at hReply ⊢
    obtain rfl := Except.ok.inj hReply
    exact hNext h hKind

/-- Writing to the log cannot fail. -/
theorem fares_report {severity : Log.Severity} {component : Log.Component} {message : String}
    {subjects : List (String × Json)} {failure : Option Failure} {d : Deployment} :
    (report severity component message subjects failure).Fares kind
      (fun _ outcome _ => outcome = .ok ()) d := by
  intro h _
  rw [Deployment.meet_sure rfl]
  rfl

/-- What can be said in two ways can be said at once. -/
theorem Fares.and {other : List (Moment Unit) → Except Failure α → Deployment → Prop}
    {p : Program α} (hp : p.Fares kind post d) (hOther : p.Fares kind other d) :
    p.Fares kind (fun moments outcome after =>
      post moments outcome after ∧ other moments outcome after) d := by
  induction p generalizing d post other with
  | done a => exact ⟨hp, hOther⟩
  | fail e => exact ⟨hp, hOther⟩
  | ask q next ih => exact fun h hKind => ih _ (hp h hKind) (hOther h hKind)

/-- What is kept meanwhile and by each request of a program is kept by the program, and is so at all
its moments. -/
theorem fares_of_asks {ask : Request → Prop} (inv : Deployment → Prop) {p : Program α}
    (hp : p.Asks ask) (hMeanwhile : ∀ d h, kind h → inv d → inv (h.meanwhile d))
    (hKeep : ∀ d q, ask q → inv d → inv (d.perform q).2) (hInv : inv d) :
    p.Fares kind (fun moments _ after =>
      (∀ m ∈ moments, ask m.request ∧ inv m.before) ∧ inv after) d := by
  induction p generalizing d with
  | done a => exact ⟨List.forall_mem_nil _, hInv⟩
  | fail e => exact ⟨List.forall_mem_nil _, hInv⟩
  | ask q next ih =>
      intro h hKind
      have hBefore := hMeanwhile d h hKind hInv
      have hAfter : inv (d.meet h q).2 := by
        obtain ⟨e, hFail⟩ | hDone := d.meet_cases h q
        · rwa [hFail]
        · rw [hDone]
          exact hKeep _ q hp.1 hBefore
      refine (ih _ (hp.2 _) hAfter).mono fun moments outcome after ⟨hAsked, hEnd⟩ => ?_
      exact ⟨List.forall_mem_cons.mpr ⟨⟨hp.1, hBefore⟩, hAsked⟩, hEnd⟩

/-- All moments of a program are of requests that it asks. -/
theorem fares_asked {ask : Request → Prop} {p : Program α} (hp : p.Asks ask) (d : Deployment) :
    p.Fares kind (fun moments _ _ => ∀ m ∈ moments, ask m.request) d :=
  (fares_of_asks (fun _ => True) hp (fun _ _ _ _ => trivial) (fun _ _ _ _ => trivial)
    trivial).mono fun _ _ _ ⟨hAsked, _⟩ m hm => (hAsked m hm).1

end Program
end Triage
