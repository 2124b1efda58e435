import Triage.Connect.Incident
import Triage.Proofs.Text.Containment

/-!
# The way back from an incident

Incidents refer to each other as they like, in circles too.  `OnWayBack` says which places of a group
are passed on the way back from the first one, without saying how they are found.  The walk passes
each of them once and no others (`nodup_placesFrom`, `mem_placesFrom_iff`), so its verdict is about
all incidents on the way, in whatever order they come (`retry_verdict`).
-/

namespace Triage.Connect

variable {group : List Incident} {seen : List Nat} {start : Option Nat} {place next : Nat}
  {i j : Incident}

/-- The way back from the first incident of a group passes a place, at which an incident stands.  From
an incident it goes on to its cause if there is one, and to its context otherwise. -/
inductive OnWayBack (group : List Incident) : Nat → Incident → Prop
  | first {i : Incident} (h : group[0]? = some i) : OnWayBack group 0 i
  | cause {place next : Nat} {i j : Incident} (h : OnWayBack group place i)
      (hCause : i.cause = some next) (hNext : group[next]? = some j) : OnWayBack group next j
  | context {place next : Nat} {i j : Incident} (h : OnWayBack group place i)
      (hCause : i.cause = none) (hContext : i.context = some next)
      (hNext : group[next]? = some j) : OnWayBack group next j

theorem OnWayBack.getElem? (h : OnWayBack group place i) : group[place]? = some i := by
  cases h <;> assumption

theorem OnWayBack.origin (h : OnWayBack group place i) (hOrigin : i.origin? = some next)
    (hNext : group[next]? = some j) : OnWayBack group next j := by
  cases hCause : i.cause with
  | none => exact .context h hCause (by simpa [Incident.origin?, hCause] using hOrigin) hNext
  | some cause =>
      obtain rfl : cause = next := by simpa [Incident.origin?, hCause] using hOrigin
      exact .cause h hCause hNext

/-- No place is passed that was passed before. -/
theorem notMem_of_mem_placesFrom (h : place ∈ placesFrom group seen start) : place ∉ seen := by
  fun_induction placesFrom group seen start with
  | case1 => cases h
  | case2 seen first hFirst ih =>
      rcases List.mem_cons.mp h with rfl | hLater
      · exact hFirst.1
      · exact fun hSeen => ih hLater (List.mem_cons_of_mem _ hSeen)
  | case3 => cases h

/-- Each place is passed once. -/
theorem nodup_placesFrom (group : List Incident) (seen : List Nat) (start : Option Nat) :
    (placesFrom group seen start).Nodup := by
  fun_induction placesFrom group seen start with
  | case1 => exact List.nodup_nil
  | case2 seen first hFirst ih =>
      exact List.nodup_cons.mpr ⟨fun h => notMem_of_mem_placesFrom h List.mem_cons_self, ih⟩
  | case3 => exact List.nodup_nil

/-- From a place on the way back, only places on the way back are passed. -/
theorem onWayBack_of_mem_placesFrom
    (hStart : ∀ place i, start = some place → group[place]? = some i → OnWayBack group place i)
    (h : place ∈ placesFrom group seen start) : ∃ i, OnWayBack group place i := by
  fun_induction placesFrom group seen start with
  | case1 => cases h
  | case2 seen first hFirst ih =>
      have hHere := hStart first _ rfl (List.getElem?_eq_getElem hFirst.2)
      rcases List.mem_cons.mp h with rfl | hLater
      · exact ⟨_, hHere⟩
      · exact ih (fun next j hOrigin hNext => hHere.origin hOrigin hNext) hLater
  | case3 => cases h

/-- A place was passed, or will be on the way from `start`. -/
def Passed (group : List Incident) (seen : List Nat) (start : Option Nat) (place : Nat) : Prop :=
  place ∈ seen ∨ place ∈ placesFrom group seen start

/-- The places after those passed so far are passed or come next. -/
def ClosedUpTo (group : List Incident) (seen : List Nat) (start : Option Nat) : Prop :=
  ∀ place ∈ seen, ∀ i next j, group[place]? = some i → i.origin? = some next →
    group[next]? = some j → next ∈ seen ∨ start = some next

theorem passed_start (h : start = some place) (hHere : group[place]? = some i) :
    Passed group seen start place := by
  subst h
  by_cases hSeen : place ∈ seen
  · exact .inl hSeen
  · refine .inr ?_
    rw [placesFrom, dif_pos ⟨hSeen, (List.getElem?_eq_some_iff.mp hHere).1⟩]
    exact List.mem_cons_self

theorem passed_none : Passed group seen none place ↔ place ∈ seen := by
  simp [Passed, placesFrom]

theorem passed_stop {first : Nat} (h : ¬(first ∉ seen ∧ first < group.length)) :
    Passed group seen (some first) place ↔ place ∈ seen := by
  simp [Passed, placesFrom, h]

theorem passed_step {first : Nat} (hNew : first ∉ seen) (hInside : first < group.length) :
    Passed group seen (some first) place ↔
      Passed group (first :: seen) group[first].origin? place := by
  rw [Passed, Passed, placesFrom, dif_pos ⟨hNew, hInside⟩, List.mem_cons, List.mem_cons]
  rw [or_left_comm, or_assoc]

/-- The walk stops only where the way ends: what comes after a place that is passed is passed. -/
theorem passed_origin (hClosed : ClosedUpTo group seen start)
    (hPassed : Passed group seen start place) (hHere : group[place]? = some i)
    (hOrigin : i.origin? = some next) (hNext : group[next]? = some j) :
    Passed group seen start next := by
  have hOfSeen {seen : List Nat} {start : Option Nat} (hClosed : ClosedUpTo group seen start)
      (h : place ∈ seen) : Passed group seen start next := by
    rcases hClosed place h i next j hHere hOrigin hNext with hSeen | hStart
    · exact .inl hSeen
    · exact passed_start hStart hNext
  fun_induction placesFrom group seen start with
  | case1 seen => exact hOfSeen hClosed (passed_none.mp hPassed)
  | case2 seen first hFirst ih =>
      rw [passed_step hFirst.1 hFirst.2] at hPassed ⊢
      refine ih ?_ hPassed
      intro p hp k q l hk hq hl
      rcases List.mem_cons.mp hp with rfl | hSeen
      · obtain rfl := Option.some.inj ((List.getElem?_eq_getElem hFirst.2).symm.trans hk)
        exact .inr hq
      · rcases hClosed p hSeen k q l hk hq hl with hOld | hLast
        · exact .inl (List.mem_cons_of_mem _ hOld)
        · exact .inl (Option.some.inj hLast ▸ List.mem_cons_self)
  | case3 seen first hFirst => exact hOfSeen hClosed ((passed_stop hFirst).mp hPassed)

/-- The walk from the first incident passes the places on the way back and no others. -/
theorem mem_placesFrom_iff :
    place ∈ placesFrom group [] (some 0) ↔ ∃ i, OnWayBack group place i := by
  constructor
  · refine onWayBack_of_mem_placesFrom fun place i hStart hHere => ?_
    obtain rfl := Option.some.inj hStart
    exact .first hHere
  · rintro ⟨i, h⟩
    have hClosed : ClosedUpTo group [] (some 0) := fun p hp => absurd hp List.not_mem_nil
    have hPassed : Passed group [] (some 0) place := by
      induction h with
      | first h => exact passed_start rfl h
      | @cause _ _ i _ h hCause hNext ih =>
          exact passed_origin hClosed ih h.getElem? (by simp [Incident.origin?, hCause]) hNext
      | @context _ _ i _ h hCause hContext hNext ih =>
          exact passed_origin hClosed ih h.getElem?
            (by simp [Incident.origin?, hCause, hContext]) hNext
    exact hPassed.resolve_left List.not_mem_nil

/-- The walk passes an incident at each of its places. -/
theorem map_wayBack (group : List Incident) :
    (wayBack group).map some = (placesFrom group [] (some 0)).map fun place => group[place]? := by
  have hHere : ∀ place ∈ placesFrom group [] (some 0), ∃ i, group[place]? = some i := fun place h =>
    (mem_placesFrom_iff.mp h).imp fun i h => h.getElem?
  rw [wayBack]
  generalize placesFrom group [] (some 0) = places at hHere
  induction places with
  | nil => rfl
  | cons place places ih =>
      obtain ⟨i, hi⟩ := hHere place List.mem_cons_self
      rw [List.filterMap_cons_some hi, List.map_cons, List.map_cons, hi,
        ih fun p hp => hHere p (List.mem_cons_of_mem _ hp)]

theorem mem_wayBack_iff : i ∈ wayBack group ↔ ∃ place, OnWayBack group place i := by
  rw [wayBack, List.mem_filterMap]
  constructor
  · rintro ⟨place, hPlace, hHere⟩
    obtain ⟨j, h⟩ := mem_placesFrom_iff.mp hPlace
    obtain rfl := Option.some.inj (h.getElem?.symm.trans hHere)
    exact ⟨place, h⟩
  · rintro ⟨place, h⟩
    exact ⟨place, mem_placesFrom_iff.mpr ⟨i, h⟩, h.getElem?⟩

theorem Incident.carries_iff {markers : List String} :
    i.carries markers = true ↔ ∃ marker ∈ markers, marker.toList <:+: i.evidence := by
  simp [Incident.carries, Text.contains_iff]

theorem Incident.isTransient_iff :
    i.isTransient = true ↔
      i.isConnectionLoss = true ∨ ∃ marker ∈ transientMarkers, marker.toList <:+: i.evidence := by
  rw [Incident.isTransient, Bool.or_eq_true, Incident.carries_iff]

/-- Whatever circles the incidents of a group form, the walk passes each place on the way back once,
with the incident that stands there, and no other place.  The first incident is worth a retry exactly
if no incident on the way carries a permanent marker and some incident on the way is a lost
connection or carries a transient marker; where on the way they stand makes no difference. -/
theorem retry_verdict (group : List Incident) :
    (∃ places : List Nat, places.Nodup ∧
      (∀ place, place ∈ places ↔ ∃ i, OnWayBack group place i) ∧
      (wayBack group).map some = places.map fun place => group[place]?) ∧
    (isRetryable group = true ↔
      (∀ place i, OnWayBack group place i →
        ∀ marker ∈ permanentMarkers, ¬marker.toList <:+: i.evidence) ∧
      ∃ place i, OnWayBack group place i ∧ (i.isConnectionLoss = true ∨
        ∃ marker ∈ transientMarkers, marker.toList <:+: i.evidence)) := by
  have hPermanent : (wayBack group).any Incident.isPermanent = false ↔
      ∀ place i, OnWayBack group place i →
        ∀ marker ∈ permanentMarkers, ¬marker.toList <:+: i.evidence := by
    simp only [List.any_eq_false, mem_wayBack_iff, Incident.isPermanent, Incident.carries_iff]
    grind
  have hTransient : (wayBack group).any Incident.isTransient = true ↔
      ∃ place i, OnWayBack group place i ∧ (i.isConnectionLoss = true ∨
        ∃ marker ∈ transientMarkers, marker.toList <:+: i.evidence) := by
    simp only [List.any_eq_true, mem_wayBack_iff, Incident.isTransient_iff]
    grind
  refine ⟨⟨placesFrom group [] (some 0), nodup_placesFrom group [] (some 0),
    fun place => mem_placesFrom_iff, map_wayBack group⟩, ?_⟩
  simp only [isRetryable, Bool.and_eq_true, Bool.not_eq_true', hPermanent, hTransient]

end Triage.Connect
