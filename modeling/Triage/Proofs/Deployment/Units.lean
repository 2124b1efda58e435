import Triage.Proofs.Deployment.Effects

/-!
# All or nothing

Scripts are programs of registry calls, made by themselves or in blocks, each of which is a unit of
work. Blocks can be nested, and whatever fails can be caught at any level.  A call by itself, and an
outermost block, either take effect as a whole or not at all (`Script.all_or_nothing`): a block that
fails, or that cannot be committed, leaves every table as it found it, and a block in which nothing
fails has the effect of all its calls in their order.  A block inside another one only adds its
calls to it.
-/

namespace Triage

/-- A program of registry calls and blocks of them.  It goes on with the outcome of a call or a
block, so it can catch failures.  Rows that a call has handed out are not assigned to between calls:
the request that notes such an assignment is left out. -/
inductive Script : Type → Type 1
  | done {α : Type} (value : α) : Script α
  | fail {α : Type} (failure : Failure) : Script α
  | ask {α : Type} (call : RegistryCall) (next : Except Failure call.Reply → Script α) : Script α
  | block {α β : Type} (body : Script β) (next : Except Failure β → Script α) : Script α

/-- A registry call that was made, with its reply. -/
abbrev AnsweredCall : Type := (call : RegistryCall) × Except Failure call.Reply

namespace Deployment

/-- The deployment as a block finds it: in a unit of work that was open before or that it opens. -/
def entered (d : Deployment) : Deployment :=
  match d.openUnit with
  | some _ => d
  | none => { d with openUnit := some ⟨d.registry, false⟩ }

/-- Runs a body in a unit of work.  What the body fails with escapes from it. -/
def inBlock (d : Deployment) (body : Deployment → Except Failure β × Deployment) :
    Except Failure β × Deployment :=
  match d.inUnit fun d =>
    match body d with
    | (.ok b, after) => ((.ok b, none), after)
    | (.error e, after) => ((.error e, some e), after) with
  | ((_, some e), after) => (.error e, after)
  | ((outcome, none), after) => (outcome, after)

/-- Makes calls by themselves, one after the other. -/
def performAll (d : Deployment) (calls : List RegistryCall) : Deployment :=
  calls.foldl (fun d call => (d.perform (.registry call)).2) d

/-- The deployment without the unit of work that is open on it. -/
def outside (d : Deployment) : Deployment := { d with openUnit := none }

end Deployment

namespace Script

/-- Runs a script. -/
def run : {α : Type} → Script α → Deployment → Except Failure α × Deployment
  | _, .done a, d => (.ok a, d)
  | _, .fail e, d => (.error e, d)
  | _, .ask call next, d =>
    let (reply, after) := d.perform (.registry call)
    (next reply).run after
  | _, .block body next, d =>
    let (outcome, after) := d.inBlock body.run
    (next outcome).run after

/-- The calls that a script makes, those of inner blocks included, in order. -/
def made : {α : Type} → Script α → Deployment → List AnsweredCall
  | _, .done _, _ => []
  | _, .fail _, _ => []
  | _, .ask call next, d =>
    let (reply, after) := d.perform (.registry call)
    ⟨call, reply⟩ :: (next reply).made after
  | _, .block body next, d =>
    let (outcome, after) := d.inBlock body.run
    body.made d.entered ++ (next outcome).made after

end Script

namespace Deployment

variable {d : Deployment}

/-- A body in a unit of work that is open already is neither kept nor rolled back. -/
theorem inBlock_joined {u : UnitOfWork} (hOpen : d.openUnit = some u)
    (body : Deployment → Except Failure β × Deployment) : d.inBlock body = body d := by
  unfold inBlock inUnit
  rw [hOpen]
  dsimp only
  rcases body d with ⟨e | b, after⟩ <;> rfl

/-- A body that fails in a unit of work of its own is rolled back. -/
theorem inBlock_error {body : Deployment → Except Failure β × Deployment} {e : Failure}
    {after : Deployment} (hUnit : d.openUnit = none) (hBody : body d.entered = (.error e, after)) :
    d.inBlock body = (.error e, { after.outside with registry := d.registry }) := by
  rw [entered, hUnit] at hBody
  simp only [inBlock, inUnit, hUnit, hBody]
  rfl

/-- A body that ends well in a unit of work of its own is kept, unless the unit is broken. -/
theorem inBlock_ok {body : Deployment → Except Failure β × Deployment} {b : β} {after : Deployment}
    {u : UnitOfWork} (hUnit : d.openUnit = none) (hBody : body d.entered = (.ok b, after))
    (hStill : after.openUnit = some u) :
    d.inBlock body =
      if u.broken then (.error .unitBroken, { after.outside with registry := d.registry })
      else (.ok b, after.outside) := by
  rw [entered, hUnit] at hBody
  simp only [inBlock, inUnit, hUnit, hBody, hStill]
  cases u.broken <;> rfl

/-- In a unit of work a call leaves the unit open, with the same tables to go back to. -/
theorem perform_openUnit_before {u : UnitOfWork} (hOpen : d.openUnit = some u) (call : RegistryCall) :
    ∃ broken, (d.perform (.registry call)).2.openUnit = some ⟨u.before, broken⟩ := by
  obtain ⟨e, staged, hFail⟩ | ⟨staged, hDone⟩ := d.perform_eq (.registry call)
  · exact ⟨u.broken, by rw [hFail]; exact hOpen⟩
  · rw [hDone, carryOutRequest, callRegistry_joined (d := { d with staged }) hOpen]
    split
    · exact ⟨u.broken, hOpen⟩
    · split
      · exact ⟨u.broken, hOpen⟩
      · split
        · exact ⟨true, rfl⟩
        · exact ⟨u.broken, hOpen⟩

theorem takeStaged_outside (d : Deployment) (target : String) :
    d.outside.takeStaged target = ((d.takeStaged target).1, (d.takeStaged target).2.outside) := by
  unfold takeStaged
  rw [show d.outside.staged = d.staged from rfl]
  split <;> rfl

theorem callRegistry_ok_outside {u : UnitOfWork} (hOpen : d.openUnit = some u)
    (hWhole : u.broken = false) {call : RegistryCall} {reply : call.Reply}
    (hOk : (d.callRegistry call).1 = .ok reply) :
    (d.callRegistry call).2.openUnit = some u ∧
      (d.callRegistry call).2.outside = (d.outside.callRegistry call).2 := by
  have hJoined := callRegistry_joined hOpen call
  have hAlone := callRegistry_alone (d := d.outside) rfl call
  rw [hWhole, Bool.false_and, if_neg Bool.false_ne_true] at hJoined
  rcases hRun : d.registry.run d.now d.nextUuid call with ⟨e | reply', registry⟩
  · rw [hJoined, hRun] at hOk
    dsimp only at hOk
    split at hOk <;> cases hOk
  · rw [hRun] at hJoined
    rw [show d.outside.registry.run d.outside.now d.outside.nextUuid call = _ from hRun] at hAlone
    rw [hJoined, hAlone]
    exact ⟨hOpen, rfl⟩

/-- In a unit of work that is not broken, a call that succeeds does what it does outside of one. -/
theorem perform_ok_outside {u : UnitOfWork} (hOpen : d.openUnit = some u) (hWhole : u.broken = false)
    {call : RegistryCall} {reply : call.Reply} (hOk : (d.perform (.registry call)).1 = .ok reply) :
    (d.perform (.registry call)).2.openUnit = some u ∧
      (d.perform (.registry call)).2.outside = (d.outside.perform (.registry call)).2 := by
  have hOutside := d.takeStaged_outside (call.part ++ "." ++ call.operation)
  obtain ⟨staged, hAfter⟩ := d.takeStaged_eq (call.part ++ "." ++ call.operation)
  rcases hTaken : d.takeStaged (call.part ++ "." ++ call.operation) with ⟨_ | e, after⟩ <;>
    rw [hTaken] at hOutside hAfter
  · have hIn : d.perform (.registry call) = after.callRegistry call := by
      simp only [perform, Request.target?, hTaken]
      rfl
    have hOut : d.outside.perform (.registry call) = after.outside.callRegistry call := by
      simp only [perform, Request.target?, hOutside]
      rfl
    rw [hIn] at hOk ⊢
    rw [hOut]
    exact callRegistry_ok_outside ((congrArg openUnit hAfter).trans hOpen) hWhole hOk
  · simp only [perform, Request.target?, hTaken] at hOk
    cases hOk

theorem performAll_append (d : Deployment) (calls more : List RegistryCall) :
    d.performAll (calls ++ more) = (d.performAll calls).performAll more :=
  List.foldl_append

end Deployment

namespace Script

variable {α β : Type} {d : Deployment} {call : RegistryCall}

theorem run_ask {next : Except Failure call.Reply → Script α} :
    (ask call next).run d =
      (next (d.perform (.registry call)).1).run (d.perform (.registry call)).2 := rfl

theorem made_ask {next : Except Failure call.Reply → Script α} :
    (ask call next).made d = ⟨call, (d.perform (.registry call)).1⟩ ::
      (next (d.perform (.registry call)).1).made (d.perform (.registry call)).2 := rfl

theorem run_block {body : Script β} {next : Except Failure β → Script α} :
    (block body next).run d = (next (d.inBlock body.run).1).run (d.inBlock body.run).2 := rfl

theorem made_block {body : Script β} {next : Except Failure β → Script α} :
    (block body next).made d =
      body.made d.entered ++ (next (d.inBlock body.run).1).made (d.inBlock body.run).2 := rfl

/-- Whatever a script does in a unit of work, the unit stays open, with the same tables to go back
to. -/
theorem run_openUnit (s : Script α) {u : UnitOfWork} (hOpen : d.openUnit = some u) :
    ∃ broken, (s.run d).2.openUnit = some ⟨u.before, broken⟩ := by
  induction s generalizing d u with
  | done a => exact ⟨u.broken, hOpen⟩
  | fail e => exact ⟨u.broken, hOpen⟩
  | ask call next ih =>
      obtain ⟨broken, hAfter⟩ := Deployment.perform_openUnit_before hOpen call
      have hRest := ih (d.perform (.registry call)).1 hAfter
      rwa [run_ask]
  | block body next ihBody ih =>
      obtain ⟨broken, hAfter⟩ := ihBody hOpen
      have hRest := ih (body.run d).1 hAfter
      rwa [run_block, Deployment.inBlock_joined hOpen]

/-- Every call that a script makes succeeds. -/
def Succeeds (s : Script α) (d : Deployment) : Prop := ∀ m ∈ s.made d, m.2.isOk = true

/-- In a unit of work that is not broken, a script whose calls all succeed has the effect that its
calls have by themselves, one after the other. -/
theorem run_of_succeeds (s : Script α) {u : UnitOfWork} (hOpen : d.openUnit = some u)
    (hWhole : u.broken = false) (hOk : s.Succeeds d) :
    (s.run d).2.openUnit = some u ∧
      (s.run d).2.outside = d.outside.performAll ((s.made d).map Sigma.fst) := by
  induction s generalizing d with
  | done a => exact ⟨hOpen, rfl⟩
  | fail e => exact ⟨hOpen, rfl⟩
  | ask call next ih =>
      rw [Succeeds, made_ask, List.forall_mem_cons] at hOk
      obtain ⟨hHere, hRest⟩ := hOk
      obtain ⟨reply, hReply⟩ : ∃ reply, (d.perform (.registry call)).1 = .ok reply := by
        rcases hReply : (d.perform (.registry call)).1 with e | reply
        · rw [hReply] at hHere
          cases hHere
        · exact ⟨reply, rfl⟩
      obtain ⟨hStill, hOutside⟩ := Deployment.perform_ok_outside hOpen hWhole hReply
      obtain ⟨hStill', hRun⟩ := ih _ hStill hRest
      refine ⟨hStill', hRun.trans ?_⟩
      rw [hOutside]
      rfl
  | block body next ihBody ih =>
      have hEntered : d.entered = d := by simp only [Deployment.entered, hOpen]
      rw [Succeeds, made_block, Deployment.inBlock_joined hOpen, hEntered,
        List.forall_mem_append] at hOk
      obtain ⟨hStill, hInner⟩ := ihBody hOpen hOk.1
      obtain ⟨hStill', hRest⟩ := ih _ hStill hOk.2
      rw [run_block, made_block, Deployment.inBlock_joined hOpen, hEntered]
      refine ⟨hStill', hRest.trans ?_⟩
      rw [hInner, List.map_append, Deployment.performAll_append]

/-- What a block does whose unit of work is its own.  It closes the unit; if it fails, also for not
being committed, every table is as the block has found it; and if its body ends well and every call
that it makes succeeds, it ends as its body does and has the effect of the calls in their order. -/
structure Whole (body : Script β) (d : Deployment) : Prop where
  closed : (d.inBlock body.run).2.openUnit = none
  undone : ∀ e, (d.inBlock body.run).1 = .error e → (d.inBlock body.run).2.registry = d.registry
  kept : ∀ b, (body.run d.entered).1 = .ok b → body.Succeeds d.entered →
    d.inBlock body.run = (.ok b, d.performAll ((body.made d.entered).map Sigma.fst))

/-- Along the whole run of a script, inside of its blocks as well: a call by itself that fails
changes no table, a block takes effect as a whole or not at all, and a block in a unit of work that
is open already is nothing but its body, neither committed nor rolled back. -/
def AllOrNothing : {α : Type} → Script α → Deployment → Prop
  | _, .done _, _ => True
  | _, .fail _, _ => True
  | _, .ask call next, d =>
    (d.openUnit = none → ∀ e, (d.perform (.registry call)).1 = .error e →
      (d.perform (.registry call)).2.registry = d.registry) ∧
    (next (d.perform (.registry call)).1).AllOrNothing (d.perform (.registry call)).2
  | _, .block body next, d =>
    (d.openUnit = none → body.Whole d) ∧
    (d.openUnit ≠ none → d.inBlock body.run = body.run d) ∧
    body.AllOrNothing d.entered ∧
    (next (d.inBlock body.run).1).AllOrNothing (d.inBlock body.run).2

/-- A block of its own takes effect as a whole or not at all. -/
theorem whole (body : Script β) (hUnit : d.openUnit = none) : body.Whole d := by
  have hEntered : d.entered = { d with openUnit := some ⟨d.registry, false⟩ } := by
    simp only [Deployment.entered, hUnit]
  have hOpen : d.entered.openUnit = some ⟨d.registry, false⟩ := by rw [hEntered]
  have hOutside : d.entered.outside = d := by
    rw [hEntered, Deployment.outside]
    cases d
    cases hUnit
    rfl
  obtain ⟨broken, hStill⟩ := body.run_openUnit hOpen
  -- Where every call succeeds, nothing breaks the unit.
  have hSucceeds : body.Succeeds d.entered → broken = false ∧
      (body.run d.entered).2.outside = d.performAll ((body.made d.entered).map Sigma.fst) := fun hOk => by
    obtain ⟨hSame, hEffect⟩ := body.run_of_succeeds hOpen rfl hOk
    rw [hStill] at hSame
    rw [hOutside] at hEffect
    exact ⟨congrArg UnitOfWork.broken (Option.some.inj hSame), hEffect⟩
  rcases hBody : body.run d.entered with ⟨e | b, after⟩ <;> rw [hBody] at hStill hSucceeds
  · have hBlock := Deployment.inBlock_error hUnit hBody
    refine ⟨by rw [hBlock]; rfl, fun e' _ => by rw [hBlock], fun b' hOk => ?_⟩
    rw [hBody] at hOk
    cases hOk
  · have hBlock := Deployment.inBlock_ok hUnit hBody hStill
    cases broken with
    | true =>
        refine ⟨by rw [hBlock]; rfl, fun e' _ => by rw [hBlock]; rfl, fun b' _ hOk => ?_⟩
        cases (hSucceeds hOk).1
    | false =>
        refine ⟨by rw [hBlock]; rfl, fun e' hFailed => ?_, fun b' hOk hCalls => ?_⟩
        · rw [hBlock] at hFailed
          cases hFailed
        · rw [hBody] at hOk
          obtain rfl := Except.ok.inj hOk
          rw [hBlock, ← (hSucceeds hCalls).2]
          rfl

/-- Every script of registry calls, by themselves or in nested blocks, takes effect by whole calls
and whole blocks. -/
theorem all_or_nothing (s : Script α) (d : Deployment) : s.AllOrNothing d := by
  induction s generalizing d with
  | done a => trivial
  | fail e => trivial
  | ask call next ih =>
      refine ⟨fun hUnit e hError => ?_, ih _ _⟩
      obtain ⟨-, -, hSame⟩ | ⟨reply, -, hOk, -⟩ := Deployment.perform_call hUnit call
      · exact hSame
      · rw [hOk] at hError
        cases hError
  | block body next ihBody ih =>
      refine ⟨body.whole, fun hOpen => ?_, ihBody _, ih _ _⟩
      obtain ⟨u, hOpen⟩ := Option.ne_none_iff_exists'.mp hOpen
      exact Deployment.inBlock_joined hOpen _

/-- A channel is created, and then a webhook without an address in an inner block.  The failure of
the inner block is caught, but the outer one cannot be committed any more. -/
example :
    let d := Deployment.initial ⟨0⟩ false
    let webhook : Script Unit := .ask (.createWebhook { channelId := some 1 }) fun
      | .ok _ => .done ()
      | .error e => .fail e
    let channel : Script Unit := .ask (.createChannel { teamId := some 1, name := some "Team" }) fun _ =>
      .block webhook fun _ => .done ()
    ((Script.block channel fun _ => .done ()).run d).2.registry = .empty := by
  decide +kernel

end Script
end Triage
