import Triage.Proofs.Alert.TickConduct
import Triage.Proofs.Deployment.Effects
import Triage.Proofs.Registry.Leases

/-!
# The turns of a worker

Everything that one request of a worker can do to the registry and to the worker's standing, said
once (`Worker.turn`).  A request that ends no lease leaves it in the ledger
(`Deployment.perform_mem_leases`).
-/

namespace Triage

namespace Request

/-- The draft that a request has stored over an alert. -/
def stored : (q : Request) → Except Failure q.Reply → Option AlertDraft
  | .registry (.updateAlert d), .ok _ => some d
  | _, _ => none

/-- Whether a request finds a lease expired. -/
def findsExpired (l : Lease) (q : Request) : Bool := q.call?.any (RegistryCall.findsExpired l)

/-- Whether a request gives a lease back. -/
def givesBack (l : Lease) (q : Request) : Bool := q.call?.any (RegistryCall.givesBack l)

end Request

namespace Deployment

variable {d : Deployment}

/-- A lease stays in the ledger unless a request finds it expired or gives it back. -/
theorem perform_mem_leases (hUnit : d.openUnit = none) (hKeyed : d.registry.Keyed) {l : Lease}
    (hMem : l ∈ d.registry.leases) {q : Request} (hRuns : q.findsExpired l = false)
    (hKept : q.givesBack l = false) : l ∈ (d.perform q).2.registry.leases := by
  obtain hSame | ⟨call, reply, freshUuid, hCall, hRun⟩ := perform_cases hUnit q
  · rw [hSame]
    exact hMem
  · have hEnds : call.endsLease l = false := by
      rw [Request.findsExpired, hCall, Option.any_some] at hRuns
      rw [Request.givesBack, hCall, Option.any_some] at hKept
      rw [RegistryCall.endsLease, hRuns, hKept]
      rfl
    have hAfter := Registry.mem_leases_run hKeyed hMem d.now freshUuid hEnds
    rwa [hRun] at hAfter

end Deployment

/-- No alert is known twice, because listings come from the tables. -/
theorem Standing.keys_note {s : Standing} {d : Deployment} (hUnit : d.openUnit = none)
    (hKeyed : d.registry.Keyed) (q : Request) (hKeys : (s.known.map Alert.id).Nodup) :
    ((s.note d q (d.perform q).1).known.map Alert.id).Nodup := by
  cases q with
  | registry call =>
      obtain ⟨e, hReply, -⟩ | ⟨reply, freshUuid, hReply, hRun⟩ := d.perform_call hUnit call
      · rw [hReply]
        cases call <;> exact hKeys
      · rw [hReply]
        cases call with
        | listAlerts p => exact (hKeyed.listAlerts hRun).2.1
        | getAlert id => exact List.nodup_singleton _
        | acquireLease draft => cases (reply : Bool) <;> exact hKeys
        | _ => exact hKeys
  | _ => exact hKeys

namespace Worker

/-- What a request of a worker does: the registry before and after it, the standing after it, and
what it has stored over an alert. -/
inductive Turn (w : Worker) (s : Standing) (r r' : Registry) : Standing → Option AlertDraft → Prop
  | aside (hAlerts : r'.alerts = r.alerts) : Turn w s r r' s none
  | listed {rows : List Alert} (hAlerts : r'.alerts = r.alerts) (hFree : s.held = none)
      (hKeys : (rows.map Alert.id).Nodup) (hRows : ∀ row ∈ rows, r.alert? row.id = some row) :
      Turn w s r r' { s with known := rows } none
  | granted {l : Lease} (hAlerts : r'.alerts = r.alerts) (hFree : s.held = none)
      (hHolder : l.holder = w.instanceId) (hMem : l ∈ r'.leases) :
      Turn w s r r' { s with held := some ⟨l, r.alert? l.alertId, none⟩ } none
  | released (hAlerts : r'.alerts = r.alerts) : Turn w s r r' { s with held := none } none
  | stored {h : Holding} {a b row : Alert} (hHeld : s.held = some h) (hFresh : h.stored = none)
      (hKnown : a ∈ s.known) (hAlert : h.lease.alertId = a.id) (hFlips : a.Flips b)
      (hRow : r.alert? a.id = some row)
      (hAfter : ∀ id, r'.alert? id = if id = a.id then some (b.over row) else r.alert? id) :
      Turn w s r r' { s with held := some { h with stored := some b.status } } (some b.draft)

variable {w : Worker} {s : Standing}

private theorem alerts_eq {r r' : Registry} {now : Instant} {freshUuid : String}
    {call : RegistryCall} {reply : Except Failure call.Reply}
    (hRun : r.run now freshUuid call = (reply, r')) (hOther : .alerts ∉ call.writes) :
    r'.alerts = r.alerts := by
  have hSame := r.run_sameRows now freshUuid call hOther
  rwa [hRun] at hSame

/-- Every request that a worker may make is one of its turns. -/
theorem turn {d : Deployment} (hUnit : d.openUnit = none) (hKeyed : d.registry.Keyed) {q : Request}
    (hMay : w.mayAsk s q) :
    w.Turn s d.registry (d.perform q).2.registry (s.note d q (d.perform q).1)
      (q.stored (d.perform q).1) := by
  cases hCall : q.call? with
  | none =>
      have hSame := d.perform_registry hUnit hCall
      cases q with
      | registry call => simp [Request.call?] at hCall
      | _ => exact .aside (congrArg Registry.alerts hSame)
  | some call =>
      obtain rfl := Request.eq_of_call? hCall
      obtain ⟨e, hReply, hSame⟩ | ⟨reply, freshUuid, hReply, hRun⟩ := d.perform_call hUnit call
      · rw [hReply, hSame]
        cases call with
        | releaseLease => exact .released rfl
        | _ => exact .aside rfl
      rw [hReply]
      generalize (d.perform (.registry call)).2.registry = after at hRun ⊢
      cases call with
      | listAlerts p =>
          obtain ⟨rfl, hKeys, hRows⟩ := hKeyed.listAlerts hRun
          exact .listed rfl hMay hKeys fun row hRow => hKeyed.alert?_eq (hRows row hRow)
      | acquireLease draft =>
          obtain ⟨hFree, a, -, lockedAt, expiresAt, rfl⟩ := hMay
          obtain ⟨hGranted, hAfter⟩ := Registry.acquireLease_eq hRun
          cases (reply : Bool) with
          | false => exact .aside (by rw [hAfter])
          | true =>
              refine .granted (l := ⟨a.id, w.instanceId, lockedAt, expiresAt⟩) (by rw [hAfter])
                hFree rfl ?_
              rw [hAfter]
              exact Registry.mem_acquire hGranted.symm
      | releaseLease alertId holder => exact .released (alerts_eq hRun (by simp [RegistryCall.writes]))
      | updateAlert draft =>
          obtain ⟨h, a, b, hHeld, hFresh, hKnown, hAlert, hFlips, rfl⟩ := hMay
          obtain ⟨row, hRow, hAfter⟩ := Registry.updateAlert_rows hRun
          rw [hFlips.id_eq] at hRow hAfter
          have hTurn := Turn.stored (w := w) hHeld hFresh hKnown hAlert hFlips hRow hAfter
          simp only [Standing.note, hHeld]
          exact hTurn
      | getAlert id => exact hMay.elim
      | createDelivery draft => exact .aside (alerts_eq hRun (by simp [RegistryCall.writes]))
      | cleanUpLeases time => exact .aside (alerts_eq hRun (by simp [RegistryCall.writes]))
      | createAlert | deleteAlert => exact absurd hMay.1 (by simp [RegistryCall.writes])
      | _ => exact .aside (alerts_eq hRun hMay.1)

end Worker
end Triage
