import Triage.Registry.Tables

/-!
# The footprint of a registry call

A call writes at most the tables that `RegistryCall.writes` names, and leaves the rows of every
other table as they are (`run_sameRows`).  No call drops the tables.  Whoever argues about one table
has to look only at the calls that write it.
-/

namespace Triage

/-- The tables of the registry. -/
inductive Table where
  | projects
  | issues
  | alerts
  | leases
  | channels
  | webhooks
  | deliveries
deriving DecidableEq, Repr

/-- The tables that a call may write. -/
def RegistryCall.writes : RegistryCall → List Table
  | .addProject _ => [.projects]
  | .createAlert _ | .updateAlert _ | .deleteAlert _ => [.alerts]
  | .storeIssue _ | .updateLastSeen .. => [.issues]
  | .createChannel _ | .updateChannel _ => [.channels]
  | .deleteChannel _ => [.channels, .webhooks]
  | .createWebhook _ | .updateWebhook _ | .deleteWebhook _ => [.webhooks]
  | .createDelivery _ | .updateDelivery _ => [.deliveries]
  | .acquireLease _ | .releaseLease .. | .cleanUpLeases _ => [.leases]
  | _ => []

namespace Registry

/-- Two registries hold the same rows in a table. -/
def SameRows (r s : Registry) : Table → Prop
  | .projects => s.projects = r.projects
  | .issues => s.issues = r.issues
  | .alerts => s.alerts = r.alerts
  | .leases => s.leases = r.leases
  | .channels => s.channels = r.channels
  | .webhooks => s.webhooks = r.webhooks
  | .deliveries => s.deliveries = r.deliveries

theorem SameRows.rfl (r : Registry) (t : Table) : r.SameRows r t := by
  cases t <;> exact Eq.refl _

/-- A change keeps every table that writing its row keeps. -/
theorem SameRows.changed {r : Registry} {t : Table} {result : Except Failure α}
    {write : α → Registry} (h : ∀ a, r.SameRows (write a) t) :
    r.SameRows (r.changed result write).2 t := by
  cases result with
  | ok a => exact h a
  | error e => exact SameRows.rfl r t

theorem SameRows.written {r : Registry} {t : Table} {result : Except Failure α}
    {write : α → Registry} (h : ∀ a, r.SameRows (write a) t) :
    r.SameRows (r.written result write).2 t := by
  cases result with
  | ok a => exact h a
  | error e => exact SameRows.rfl r t

theorem SameRows.deleted {r s : Registry} {t : Table} {isMeant : α → Bool} {missing : Missing}
    {rows : List α} {write : List α → Registry} (hs : r.SameRows s t)
    (h : ∀ rows, r.SameRows (write rows) t) :
    r.SameRows (s.deleted isMeant missing rows write).2 t := by
  unfold Registry.deleted
  split
  · exact h _
  · exact hs

theorem apply_sameRows (r : Registry) (now : Instant) (freshUuid : String) (call : RegistryCall)
    {t : Table} (h : t ∉ call.writes) : r.SameRows (r.apply now freshUuid call).2 t := by
  cases call with
  | addProject | createAlert | storeIssue | createChannel | createWebhook | createDelivery =>
      refine SameRows.changed fun row => ?_
      cases t <;> simp_all [SameRows, RegistryCall.writes]
  | updateAlert | updateLastSeen | updateChannel | updateWebhook | updateDelivery =>
      refine SameRows.written fun rows => ?_
      cases t <;> simp_all [SameRows, RegistryCall.writes]
  | deleteAlert | deleteChannel =>
      refine SameRows.deleted ?_ fun rows => ?_ <;>
      cases t <;> simp_all [SameRows, RegistryCall.writes]
  | acquireLease draft =>
      simp only [apply]
      cases draft.complete (draft.alertId.getD (nextId (r.leases.map Lease.alertId))) with
      | error clash => exact SameRows.rfl r t
      | ok lease =>
          cases t <;> simp_all [SameRows, RegistryCall.writes]
  | deleteWebhook | releaseLease | cleanUpLeases =>
      cases t <;> simp_all [SameRows, RegistryCall.writes, apply]
  | _ => exact SameRows.rfl r t

/-- As long as the tables are there, a call does what it does to them. -/
theorem run_eq_apply {r : Registry} (h : r.dropped = false) (now : Instant) (freshUuid : String)
    (call : RegistryCall) : r.run now freshUuid call = r.apply now freshUuid call := by
  simp [run, h]

/-- A call leaves every table alone that it does not write. -/
theorem run_sameRows (r : Registry) (now : Instant) (freshUuid : String) (call : RegistryCall)
    {t : Table} (h : t ∉ call.writes) : r.SameRows (r.run now freshUuid call).2 t := by
  unfold run
  split
  · exact SameRows.rfl r t
  · exact apply_sameRows r now freshUuid call h

/-- No call drops the tables. -/
theorem run_dropped (r : Registry) (now : Instant) (freshUuid : String) (call : RegistryCall) :
    (r.run now freshUuid call).2.dropped = r.dropped := by
  unfold run
  split
  · rfl
  · cases call <;> simp only [apply, changed, written, deleted] <;> (repeat' split) <;> rfl

end Registry
end Triage
