import Triage.Proofs.Registry.Keys

/-!
# Leases exclude each other

The ledger of leases under every sequence of registry calls.  A lease that has been granted stays in
the ledger, alone for its alert and as it was granted, until its holder gives it back or a call
comes with a time after its end (`mem_leases_runAll`); while it is there, every other request for
the alert is refused and changes nothing (`acquire_refused`).  Together these are
`granted_lease_excludes`.
-/

namespace Triage

/-- Whether a call finds a lease expired: it comes with a time after the end of the lease, to clean
up or to take over. -/
def RegistryCall.findsExpired (l : Lease) : RegistryCall → Bool
  | .cleanUpLeases now => l.expiresAt < now
  | .acquireLease d => d.alertId = some l.alertId && d.lockedAt.any fun t => l.expiresAt < t
  | _ => false

/-- Whether a call gives a lease back. -/
def RegistryCall.givesBack (l : Lease) : RegistryCall → Bool
  | .releaseLease alertId holder => alertId = l.alertId && holder = l.holder
  | _ => false

/-- Whether a call can end a lease. -/
def RegistryCall.endsLease (l : Lease) (call : RegistryCall) : Bool :=
  call.findsExpired l || call.givesBack l

/-- A call that does not write leases ends none. -/
theorem RegistryCall.endsLease_of_writes {l : Lease} {call : RegistryCall}
    (h : .leases ∉ call.writes) : call.endsLease l = false := by
  cases call with
  | acquireLease | releaseLease | cleanUpLeases => simp [writes] at h
  | _ => rfl

/-- A draft is completed exactly to a lease of its holder and its times. -/
theorem LeaseDraft.complete_eq_ok {d : LeaseDraft} {alertId : Int} {l : Lease} :
    d.complete alertId = .ok l ↔
      alertId = l.alertId ∧ d.holder = some l.holder ∧ d.lockedAt = some l.lockedAt ∧
        d.expiresAt = some l.expiresAt := by
  obtain ⟨-, holder, lockedAt, expiresAt⟩ := d
  obtain ⟨-, -, -, -⟩ := l
  cases holder <;> cases lockedAt <;> cases expiresAt <;>
    simp [LeaseDraft.complete, needed, bind, Except.bind, pure, Except.pure]

namespace Registry

/-- No sequence of calls drops the tables. -/
theorem runAll_dropped (r : Registry) (calls : List MadeCall) :
    (r.runAll calls).dropped = r.dropped := by
  induction calls generalizing r with
  | nil => rfl
  | cons c calls ih => rw [runAll_cons, ih, run_dropped]

/-- Asking for a lease, as long as the tables are there. -/
theorem run_acquireLease {r : Registry} (h : r.dropped = false) (now : Instant)
    (freshUuid : String) (l : Lease) :
    r.run now freshUuid (.acquireLease l.draft) =
      (.ok (acquire r.leases l).1, { r with leases := (acquire r.leases l).2 }) := by
  simp [run, apply, h, Lease.draft, LeaseDraft.complete, needed, bind, Except.bind, pure,
    Except.pure]

/-- What a successful request for a lease has done. -/
theorem acquireLease_eq {r s : Registry} {now : Instant} {freshUuid : String} {l : Lease}
    {granted : Bool} (hRun : r.run now freshUuid (.acquireLease l.draft) = (.ok granted, s)) :
    granted = (acquire r.leases l).1 ∧ s = { r with leases := (acquire r.leases l).2 } := by
  by_cases hDropped : r.dropped = true
  · simp [run, hDropped, RegistryCall.needsTables] at hRun
  · rw [run_acquireLease (Bool.eq_false_iff.mpr hDropped)] at hRun
    obtain ⟨hGranted, hAfter⟩ := Prod.mk.inj hRun
    exact ⟨(Except.ok.inj hGranted).symm, hAfter.symm⟩

/-- A lease that was granted is in the ledger. -/
theorem mem_acquire {leases : List Lease} {new : Lease} (h : (acquire leases new).1 = true) :
    new ∈ (acquire leases new).2 := by
  unfold acquire at h ⊢
  cases hFind : leases.find? fun l => l.alertId = new.alertId with
  | none => simp
  | some old =>
      simp only [hFind] at h ⊢
      split at h
      next hExpired =>
        have hOld := List.find?_some hFind
        rw [if_pos hExpired, List.mem_map]
        exact ⟨old, List.mem_of_find?_eq_some hFind, if_pos (of_decide_eq_true hOld)⟩
      · cases h

/-- A lease that was granted is the only one on its alert. -/
theorem eq_of_mem_acquire {leases : List Lease} {l new : Lease} (h : (acquire leases new).1 = true)
    (hMem : l ∈ (acquire leases new).2) (hAlert : l.alertId = new.alertId) : l = new := by
  unfold acquire at h hMem
  cases hFind : leases.find? fun l => l.alertId = new.alertId with
  | none =>
      rw [hFind] at hMem
      rcases List.mem_append.mp hMem with hOld | hNew
      · exact absurd hAlert (by simpa using List.find?_eq_none.mp hFind l hOld)
      · exact List.mem_singleton.mp hNew
  | some old =>
      simp only [hFind] at h hMem
      split at h
      next hExpired =>
        rw [if_pos hExpired] at hMem
        obtain ⟨earlier, -, rfl⟩ := List.mem_map.mp hMem
        split at hAlert
        next hIs => exact if_pos hIs
        next hOther => exact absurd hAlert hOther
      · cases h

/-- Of another alert, granting a lease adds none. -/
theorem mem_of_mem_acquire {leases : List Lease} {l new : Lease} (hMem : l ∈ (acquire leases new).2)
    (hAlert : new.alertId ≠ l.alertId) : l ∈ leases := by
  have hNew : l ≠ new := fun hEq => hAlert (congrArg Lease.alertId hEq.symm)
  unfold acquire at hMem
  split at hMem
  · simpa [hNew] using hMem
  · split at hMem
    · obtain ⟨old, hOld, hEq⟩ := List.mem_map.mp hMem
      split at hEq
      · exact absurd hEq.symm hNew
      · exact hEq ▸ hOld
    · exact hMem

/-- While a lease runs, nobody else gets the alert. -/
theorem acquire_refused {leases : List Lease} {l new : Lease}
    (hKeys : (leases.map Lease.alertId).Nodup) (hMem : l ∈ leases)
    (hAlert : new.alertId = l.alertId) (hRuns : new.lockedAt ≤ l.expiresAt) :
    acquire leases new = (false, leases) := by
  have hFind := find?_key_eq_some hKeys hMem
  unfold acquire
  rw [hAlert, hFind]
  exact if_neg (Instant.not_lt.mpr hRuns)

/-- A lease is granted, or it is refused because one runs, and then nothing changes. -/
theorem acquire_cases (leases : List Lease) (new : Lease) :
    (acquire leases new).1 = true ∨ acquire leases new = (false, leases) ∧
      ∃ l ∈ leases, l.alertId = new.alertId ∧ new.lockedAt ≤ l.expiresAt := by
  unfold acquire
  split
  · exact .inl rfl
  next old hFind =>
    split
    · exact .inl rfl
    next hRuns =>
      have hOld : old.alertId = new.alertId := by simpa using List.find?_some hFind
      exact .inr ⟨rfl, old, List.mem_of_find?_eq_some hFind, hOld, Instant.not_lt.mp hRuns⟩

/-- A lease of another alert is not touched. -/
theorem mem_acquire_of_ne {leases : List Lease} {l new : Lease} (hMem : l ∈ leases)
    (hAlert : new.alertId ≠ l.alertId) : l ∈ (acquire leases new).2 := by
  unfold acquire
  cases leases.find? fun l => l.alertId = new.alertId with
  | none => exact List.mem_append_left _ hMem
  | some old =>
      dsimp only
      split
      · exact List.mem_map.mpr ⟨l, hMem, if_neg hAlert.symm⟩
      · exact hMem

/-- One call leaves a lease in the ledger unless it finds the lease expired or gives it back. -/
theorem mem_leases_run {r : Registry} {l : Lease} (hKeys : r.Keyed) (hMem : l ∈ r.leases)
    (now : Instant) (freshUuid : String) {call : RegistryCall} (hEnds : call.endsLease l = false) :
    l ∈ (r.run now freshUuid call).2.leases := by
  unfold run
  split
  · exact hMem
  cases call with
  | acquireLease d =>
      simp only [apply]
      split
      · exact hMem
      next new hNew =>
        obtain ⟨hId, -, hLocked, -⟩ := LeaseDraft.complete_eq_ok.mp hNew
        by_cases hAlert : new.alertId = l.alertId
        · have hRuns : new.lockedAt ≤ l.expiresAt := by
            cases hGiven : d.alertId with
            | none =>
                -- A draft without an alert is completed to a fresh one, which `l` cannot be of.
                have hFresh : nextId (r.leases.map Lease.alertId) = l.alertId := by
                  rw [← hAlert, ← hId, hGiven]
                  rfl
                refine absurd ?_ (nextId_notMem (r.leases.map Lease.alertId))
                rw [hFresh]
                exact List.mem_map_of_mem hMem
            | some alertId =>
                rw [hGiven] at hId
                obtain rfl : alertId = l.alertId := hId.trans hAlert
                simpa [RegistryCall.endsLease, RegistryCall.findsExpired,
                  RegistryCall.givesBack, hGiven, hLocked] using hEnds
          rw [acquire_refused hKeys.leases hMem hAlert hRuns]
          exact hMem
        · exact mem_acquire_of_ne hMem hAlert
  | releaseLease alertId holder =>
      simp only [RegistryCall.endsLease, RegistryCall.findsExpired, RegistryCall.givesBack,
        Bool.false_or] at hEnds
      refine List.mem_filter.mpr ⟨hMem, ?_⟩
      simpa [eq_comm (a := alertId), eq_comm (a := holder), imp_iff_not_or] using hEnds
  | cleanUpLeases time =>
      refine List.mem_filter.mpr ⟨hMem, ?_⟩
      simpa [RegistryCall.endsLease, RegistryCall.findsExpired, RegistryCall.givesBack]
        using hEnds
  | _ =>
      rw [show _ = r.leases from apply_sameRows (t := .leases) r now freshUuid _
        (by simp [RegistryCall.writes])]
      exact hMem

/-- A lease stays in the ledger through calls none of which ends it. -/
theorem mem_leases_runAll {r : Registry} {l : Lease} (hKeys : r.Keyed) (hMem : l ∈ r.leases)
    {calls : List MadeCall} (hEnds : ∀ c ∈ calls, c.call.endsLease l = false) :
    l ∈ (r.runAll calls).leases := by
  induction calls generalizing r with
  | nil => exact hMem
  | cons c calls ih =>
      rw [List.forall_mem_cons] at hEnds
      exact ih (hKeys.run c.now c.freshUuid c.call)
        (mem_leases_run hKeys hMem c.now c.freshUuid hEnds.1) hEnds.2

/-- Once a lease has been granted, and as long as no call gives it back or finds it expired, the
ledger holds exactly this lease for its alert, and every request for the alert that starts within
it, be it of the same holder or of another one, is refused and changes nothing. -/
theorem granted_lease_excludes (earlier later : List MadeCall) (now : Instant)
    (freshUuid : String) (l : Lease)
    (hGranted : ((empty.runAll earlier).run now freshUuid (.acquireLease l.draft)).1 = .ok true)
    (hKept : ∀ c ∈ later, c.call.endsLease l = false) :
    let r := ((empty.runAll earlier).run now freshUuid (.acquireLease l.draft)).2.runAll later
    r.leases.filter (fun m => m.alertId = l.alertId) = [l] ∧
      ∀ (m : Lease) (now : Instant) (freshUuid : String), m.alertId = l.alertId →
        m.lockedAt ≤ l.expiresAt →
          r.run now freshUuid (.acquireLease m.draft) = (.ok false, r) := by
  intro r
  have hKeysBefore : (empty.runAll earlier).Keyed := keyed_empty.runAll earlier
  have hThere : (empty.runAll earlier).dropped = false := runAll_dropped empty earlier
  have hKeysAfter := hKeysBefore.run now freshUuid (.acquireLease l.draft)
  have hMem : l ∈ ((empty.runAll earlier).run now freshUuid (.acquireLease l.draft)).2.leases := by
    rw [run_acquireLease hThere] at hGranted ⊢
    exact mem_acquire (Except.ok.inj hGranted)
  have hKeys : r.Keyed := hKeysAfter.runAll later
  have hStays : l ∈ r.leases := mem_leases_runAll hKeysAfter hMem hKept
  have hDropped : r.dropped = false := by
    rw [runAll_dropped, run_dropped]
    exact hThere
  refine ⟨filter_key_eq_singleton hKeys.leases hStays, fun m now freshUuid hAlert hRuns => ?_⟩
  rw [run_acquireLease hDropped, acquire_refused hKeys.leases hStays hAlert hRuns]

/-- At the very end of a lease, after a clean-up at that time, a request of another worker and its
attempt to give the lease back, the next request is still refused. -/
theorem lease_excludes_until_its_end :
    let l : Lease := ⟨1, "a", ⟨0⟩, ⟨300⟩⟩
    let rival : Lease := ⟨1, "b", ⟨300⟩, ⟨600⟩⟩
    let calls : List MadeCall := [⟨⟨300⟩, "", .cleanUpLeases ⟨300⟩⟩,
      ⟨⟨300⟩, "", .acquireLease rival.draft⟩, ⟨⟨300⟩, "", .releaseLease 1 "b"⟩]
    let r := (empty.run ⟨0⟩ "" (.acquireLease l.draft)).2.runAll calls
    (empty.run ⟨0⟩ "" (.acquireLease l.draft)).1 = .ok true ∧
      (∀ c ∈ calls, c.call.endsLease l = false) ∧
      r.leases.filter (fun m => m.alertId = 1) = [l] ∧
      r.run ⟨300⟩ "" (.acquireLease rival.draft) = (.ok false, r) := by
  intro l rival calls r
  have hGranted : (empty.run ⟨0⟩ "" (.acquireLease l.draft)).1 = .ok true := rfl
  have hKept : ∀ c ∈ calls, c.call.endsLease l = false := by decide
  obtain ⟨hRow, hRefused⟩ := granted_lease_excludes [] calls ⟨0⟩ "" l hGranted hKept
  exact ⟨hGranted, hKept, hRow, hRefused rival ⟨300⟩ "" rfl (by decide)⟩

end Registry
end Triage
