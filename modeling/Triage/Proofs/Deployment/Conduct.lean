import Triage.Deployment.Lemmas

/-!
# The conduct of programs

What can be said of everything that a program asks, whatever it is told.  `Program.Asks` says that
all its requests are of some kind.  A `Conduct` follows a program more closely: it notes each
request with its reply, and says which requests are allowed after what has been noted.  A program
that keeps to a conduct by itself does so among other programs too, because nothing is assumed of
the replies. The laws follow the structure of programs: sequence, attempt, and a last step that is
always taken.
-/

namespace Triage

namespace Program

/-- Every request of a program is of some kind, whatever is replied. -/
def Asks (kind : Request → Prop) : Program α → Prop
  | .done _ => True
  | .fail _ => True
  | .ask q next => kind q ∧ ∀ reply, (next reply).Asks kind

variable {kind : Request → Prop}

@[simp] theorem asks_pure (a : α) : (pure a : Program α).Asks kind := trivial

@[simp] theorem asks_throw (e : Failure) : (throw e : Program α).Asks kind := trivial

theorem Asks.andThen {p : Program α} {f : α → Program β} (hp : p.Asks kind)
    (hf : ∀ a, (f a).Asks kind) : (p.andThen f).Asks kind := by
  induction p with
  | done a => exact hf a
  | fail e => trivial
  | ask q next ih => exact ⟨hp.1, fun reply => ih reply (hp.2 reply)⟩

theorem Asks.bind {p : Program α} {f : α → Program β} (hp : p.Asks kind)
    (hf : ∀ a, (f a).Asks kind) : (p >>= f).Asks kind :=
  hp.andThen hf

theorem Asks.attempt {p : Program α} (hp : p.Asks kind) : p.attempt.Asks kind := by
  induction p with
  | done a => trivial
  | fail e => trivial
  | ask q next ih => exact ⟨hp.1, fun reply => ih reply (hp.2 reply)⟩

/-- A sequence that goes on with the outcome of an attempt. -/
theorem Asks.attempt_bind {p : Program α} {f : Except Failure α → Program β} (hp : p.Asks kind)
    (hOk : ∀ a, (f (.ok a)).Asks kind) (hError : ∀ e, (f (.error e)).Asks kind) :
    (p.attempt >>= f).Asks kind := by
  refine hp.attempt.bind fun outcome => ?_
  cases outcome with
  | ok a => exact hOk a
  | error e => exact hError e

theorem Asks.ensure {p : Program α} {last : Program Unit} (hp : p.Asks kind)
    (hLast : last.Asks kind) : (p.ensure last).Asks kind := by
  refine hp.attempt.bind fun outcome => hLast.bind fun _ => ?_
  cases outcome <;> trivial

theorem asks_request {q : Request} (h : kind q) : (request q).Asks kind := by
  refine ⟨h, fun reply => ?_⟩
  cases reply <;> trivial

theorem asks_settle (outcome : Except Failure α) : (settle outcome).Asks kind := by
  cases outcome <;> trivial

theorem Asks.mono {other : Request → Prop} {p : Program α} (hp : p.Asks kind)
    (h : ∀ q, kind q → other q) : p.Asks other := by
  induction p with
  | done a => trivial
  | fail e => trivial
  | ask q next ih => exact ⟨h q hp.1, fun reply => ih reply (hp.2 reply)⟩

end Program

/-- A way to follow a program: what is noted of it after each request, and what it may ask then. -/
structure Conduct (σ : Type) where
  note : σ → Deployment → (q : Request) → Except Failure q.Reply → σ
  allows : σ → Request → Prop

namespace Conduct

variable {σ : Type} (k : Conduct σ)

/-- From some notes on, a program asks only what is allowed, whatever it is told and however the
deployment stands, and ends with an outcome and notes of a given kind. -/
def Keeps (post : Except Failure α → σ → Prop) : σ → Program α → Prop
  | s, .done a => post (.ok a) s
  | s, .fail e => post (.error e) s
  | s, .ask q next =>
    k.allows s q ∧ ∀ before reply, Keeps post (k.note s before q reply) (next reply)

/-- A request that is allowed and leaves no trace in the notes. -/
def Passes (s : σ) (q : Request) : Prop :=
  k.allows s q ∧ ∀ before reply, k.note s before q reply = s

variable {k} {post : Except Failure α → σ → Prop} {s : σ}

theorem Keeps.mono {stronger : Except Failure α → σ → Prop} {p : Program α}
    (hp : k.Keeps stronger s p) (h : ∀ outcome s, stronger outcome s → post outcome s) :
    k.Keeps post s p := by
  induction p generalizing s with
  | done a => exact h _ _ hp
  | fail e => exact h _ _ hp
  | ask q next ih => exact ⟨hp.1, fun before reply => ih reply (hp.2 before reply)⟩

/-- A program that keeps to a conduct keeps to every one that notes the same and allows more. -/
theorem Keeps.weaken {wider : Conduct σ} {p : Program α} (hp : k.Keeps post s p)
    (hNote : wider.note = k.note) (hAllows : ∀ s q, k.allows s q → wider.allows s q) :
    wider.Keeps post s p := by
  induction p generalizing s with
  | done a => exact hp
  | fail e => exact hp
  | ask q next ih =>
      refine ⟨hAllows s q hp.1, fun before reply => ?_⟩
      rw [hNote]
      exact ih reply (hp.2 before reply)

/-- A sequence: the first part ends where the second one can begin. -/
theorem Keeps.bind {p : Program β} {f : β → Program α}
    (hp : k.Keeps (fun outcome s =>
      match outcome with
      | .ok b => k.Keeps post s (f b)
      | .error e => post (.error e) s) s p) : k.Keeps post s (p >>= f) := by
  induction p generalizing s with
  | done b => exact hp
  | fail e => exact hp
  | ask q next ih => exact ⟨hp.1, fun before reply => ih reply (hp.2 before reply)⟩

theorem Keeps.attempt {post : Except Failure (Except Failure α) → σ → Prop} {p : Program α}
    (hp : k.Keeps (fun outcome s => post (.ok outcome) s) s p) : k.Keeps post s p.attempt := by
  induction p generalizing s with
  | done a => exact hp
  | fail e => exact hp
  | ask q next ih => exact ⟨hp.1, fun before reply => ih reply (hp.2 before reply)⟩

/-- The last step is taken however the program ends, and then its outcome counts. -/
theorem Keeps.ensure {p : Program α} {last : Program Unit}
    (hp : k.Keeps (fun outcome s =>
      k.Keeps (fun ended s =>
        match ended with
        | .ok () => post outcome s
        | .error e => post (.error e) s) s last) s p) : k.Keeps post s (p.ensure last) := by
  refine Keeps.bind (Keeps.attempt (hp.mono fun outcome s hLast => ?_))
  refine Keeps.bind (hLast.mono fun ended s hEnd => ?_)
  cases ended with
  | error e => exact hEnd
  | ok _ => cases outcome <;> exact hEnd

/-- A single request. -/
theorem keeps_request {q : Request} {post : Except Failure q.Reply → σ → Prop}
    (hAllowed : k.allows s q) (hPost : ∀ before reply, post reply (k.note s before q reply)) :
    k.Keeps post s (Program.request q) := by
  refine ⟨hAllowed, fun before reply => ?_⟩
  cases reply <;> exact hPost before _

/-- A program whose requests are allowed within some notes, none of which leads out of them. -/
theorem keeps_within {kind : Request → Prop} (inv : σ → Prop) {p : Program α} (hp : p.Asks kind)
    (hStep : ∀ s q, inv s → kind q →
      k.allows s q ∧ ∀ before reply, inv (k.note s before q reply))
    (h : inv s) (hPost : ∀ outcome s, inv s → post outcome s) : k.Keeps post s p := by
  induction p generalizing s with
  | done a => exact hPost _ s h
  | fail e => exact hPost _ s h
  | ask q next ih =>
      obtain ⟨hAllowed, hNote⟩ := hStep s q h hp.1
      exact ⟨hAllowed, fun before reply => ih reply (hp.2 reply) (hNote before reply)⟩

/-- A program whose requests all leave no trace. -/
theorem keeps_of_asks {p : Program α} (hp : p.Asks (k.Passes s)) (hPost : ∀ outcome, post outcome s) :
    k.Keeps post s p := by
  refine keeps_within (fun s' => s' = s) hp ?_ rfl ?_
  · rintro s' q rfl hPasses
    exact hPasses
  · rintro outcome s' rfl
    exact hPost outcome

/-- A last step whose requests leave no trace. -/
theorem Keeps.ensure_of_asks {p : Program α} {last : Program Unit}
    (hp : k.Keeps (fun outcome s =>
      last.Asks (k.Passes s) ∧ post outcome s ∧ ∀ e, post (.error e) s) s p) :
    k.Keeps post s (p.ensure last) := by
  refine Keeps.ensure (hp.mono fun outcome s h => ?_)
  refine keeps_of_asks h.1 fun ended => ?_
  cases ended with
  | error e => exact h.2.2 e
  | ok _ => exact h.2.1

end Conduct
end Triage
