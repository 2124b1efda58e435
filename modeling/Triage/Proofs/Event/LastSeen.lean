import Mathlib.Order.Bounds.Defs
import Triage.Proofs.Event.Marking

/-!
# When issues were last seen

A task reads the time before it asks the stores anything, and much later it overwrites the time
at which the issue was last seen with what it has read.  So it may bring an older time than the one
that another task has left there: it has been overtaken (`Overtaken`).  However tasks interleave
while the clock does not go back, that is the only thing that can go wrong (`last_seen_kept_iff`).

The invariant of a run (`Underway`) speaks of the times that each issue has been marked with, one
after the other (`times`): the last of them is in its row, and they come in order unless a task has
been overtaken.  What each task has read is told by the moments so far.
-/

namespace Triage

/-- A task reads a time from the clock in a moment. -/
structure Moment.Reads (m : Moment ι) (mark : ι) (time : Instant) : Prop where
  mark : m.mark = mark
  request : m.request = .now
  time : m.before.now = time

/-- The issues after a part of a schedule. -/
def Crew.issuesAfter [DecidableEq ι] (c : Crew ι α) (schedule : List (Move ι)) (k : Nat) :
    List Issue :=
  (c.run (schedule.take k)).2.deployment.registry.issues

namespace Events

open Program

variable {ι : Type}

/-- The times that have been read by the tasks that have marked an issue as seen. -/
def readings (issueId : Int) (trace : List (Moment ι)) : Set Instant :=
  {time | ∃ seen ∈ trace, (seen.marks? issueId).isSome = true ∧
    ∃ read ∈ trace, read.Reads seen.mark time}

/-- A task reads the clock, another one reads a later time and marks the issue as seen, and then the
first one marks it. -/
def Overtaken (issueId : Int) (trace : List (Moment ι)) : Prop :=
  ∃ read later other own time time', [read, later, other, own].Sublist trace ∧
    read.Reads own.mark time ∧ later.Reads other.mark time' ∧ time < time' ∧
    own.mark ≠ other.mark ∧
    (other.marks? issueId).isSome = true ∧ (own.marks? issueId).isSome = true

/-- At every moment of a schedule each issue was seen last no earlier than first, the time at which
it was seen last never goes back, and at the end that is the latest time that has been read by the
tasks that have marked the issue. -/
structure LastSeenKept [DecidableEq ι] (c : Crew ι α) (schedule : List (Move ι)) : Prop where
  since_first : ∀ k, ∀ i ∈ c.issuesAfter schedule k, i.firstSeen ≤ i.lastSeen
  forward : ∀ k l, k ≤ l → ∀ i ∈ c.issuesAfter schedule k, ∀ j ∈ c.issuesAfter schedule l,
    j.id = i.id → i.lastSeen ≤ j.lastSeen
  latest : ∀ i ∈ (c.run schedule).2.deployment.registry.issues,
    (readings i.id (c.run schedule).1).Nonempty →
      IsGreatest (readings i.id (c.run schedule).1) i.lastSeen

theorem Overtaken.append {issueId : Int} {trace : List (Moment ι)} (h : Overtaken issueId trace)
    (more : List (Moment ι)) : Overtaken issueId (trace ++ more) := by
  obtain ⟨read, later, other, own, time, time', hSublist, hRest⟩ := h
  exact ⟨read, later, other, own, time, time',
    hSublist.trans (List.sublist_append_left trace more), hRest⟩

/-- What comes before the start of a sublist by its time comes before it in the list. -/
theorem cons_sublist_of_earlier {f : β → Instant} {l : List β}
    (hClocked : l.Pairwise fun x y => f x ≤ f y) {x y : β} {ys : List β} (hx : x ∈ l)
    (hys : (y :: ys).Sublist l) (hEarlier : f x < f y) : (x :: y :: ys).Sublist l := by
  induction hClocked with
  | nil => cases hx
  | @cons z rest hFirst _ ih =>
      rcases List.mem_cons.mp hx with rfl | hLater
      · -- It is the first of all; the start of the sublist is not, being later.
        cases hys with
        | cons _ hRest => exact hRest.cons_cons x
        | cons_cons _ _ => exact absurd hEarlier (Instant.not_lt.mpr (Int.le_refl _))
      · cases hys with
        | cons _ hRest => exact (ih hLater hRest).cons z
        | cons_cons _ _ => exact absurd hEarlier (Instant.not_lt.mpr (hFirst x hLater))

/-- The times that an issue has been marked with, the one from the beginning included. -/
def times (d : Deployment) (issueId : Int) (trace : List (Moment ι)) : List Instant :=
  (d.registry.span? issueId).toList.map Prod.snd ++ trace.filterMap fun m => m.marks? issueId

theorem times_append (d : Deployment) (issueId : Int) (trace more : List (Moment ι)) :
    times d issueId (trace ++ more) =
      times d issueId trace ++ more.filterMap fun m => m.marks? issueId := by
  rw [times, times, List.filterMap_append, List.append_assoc]

theorem times_concat (d : Deployment) (issueId : Int) (trace : List (Moment ι)) (m : Moment ι) :
    times d issueId (trace ++ [m]) = times d issueId trace ++ (m.marks? issueId).toList := by
  rw [times_append]
  cases hMarks : m.marks? issueId <;> simp [hMarks]

/-- A deployment outside a unit of work, in which no issue was seen before it was seen first, or
will be seen in the future. -/
structure Dated (d : Deployment) : Prop where
  unit : d.openUnit = none
  keyed : d.registry.Keyed
  since_first : ∀ i ∈ d.registry.issues, i.firstSeen ≤ i.lastSeen
  past : ∀ i ∈ d.registry.issues, i.lastSeen ≤ d.now

theorem Dated.past_times {d : Deployment} (h : Dated d) {issueId : Int} {time : Instant}
    (hTime : time ∈ (d.registry.span? issueId).toList.map Prod.snd) : time ≤ d.now := by
  obtain ⟨⟨first, last⟩, hSpan, rfl⟩ := List.mem_map.mp hTime
  obtain ⟨row, hRow, -, -, rfl⟩ := Registry.span?_eq_some (Option.mem_toList.mp hSpan)
  exact h.past row hRow

/-- Tasks on their way from a deployment, after some moments. -/
structure Underway (d : Deployment) (s : ι → Option Instant) (trace : List (Moment ι))
    (c : Crew ι (Option Receipt)) : Prop where
  unit : c.deployment.openUnit = none
  keyed : c.deployment.registry.Keyed
  keeps : ∀ i, marking.Keeps (fun _ _ => True) (s i) (c.task i).program
  started : d.now ≤ c.deployment.now
  within : ∀ m ∈ trace, d.now ≤ m.before.now ∧ m.before.now ≤ c.deployment.now
  clocked : trace.Pairwise fun m n => m.before.now ≤ n.before.now
  noted : ∀ m ∈ trace, m.request = .now → s m.mark = some m.before.now
  read : ∀ i time, s i = some time → ∃ m ∈ trace, m.Reads i time
  marked : ∀ m ∈ trace, ∀ issueId time, m.marks? issueId = some time → s m.mark = some time ∧
    ∃ read, [read, m].Sublist trace ∧ read.Reads m.mark time
  last : ∀ issueId, (times d issueId trace).getLast? =
    (c.deployment.registry.span? issueId).map Prod.snd
  first : ∀ issueId first last, c.deployment.registry.span? issueId = some (first, last) →
    ∀ time ∈ (times d issueId trace).head?, first ≤ time
  ordered : ∀ issueId, Overtaken issueId trace ∨
    (times d issueId trace).Pairwise fun a b => a ≤ b

namespace Underway

variable {d : Deployment} {s : ι → Option Instant} {trace : List (Moment ι)}
  {c : Crew ι (Option Receipt)} {i : ι} {q : Request}
  {next : Except Failure q.Reply → Program (Option Receipt)}

theorem initial (h : Dated d) (errand : ι → Errand) (correlation : ι → Option String) :
    Underway d (fun _ => none) [] (Crew.ofErrands d errand correlation) where
  unit := h.unit
  keyed := h.keyed
  keeps i := (errand i).marking_keeps
  started := Int.le_refl _
  within := List.forall_mem_nil _
  clocked := .nil
  noted := List.forall_mem_nil _
  read i time hRead := by cases hRead
  marked := List.forall_mem_nil _
  last issueId := by
    rw [times, Crew.ofErrands]
    cases d.registry.span? issueId <;> rfl
  first issueId first last hSpan time hTime := by
    rw [Crew.ofErrands] at hSpan
    rw [times, hSpan] at hTime
    obtain rfl := Option.some.inj hTime
    obtain ⟨row, hRow, -, rfl, rfl⟩ := Registry.span?_eq_some hSpan
    exact h.since_first row hRow
  ordered issueId := by
    rw [times]
    cases d.registry.span? issueId with
    | none => exact .inr .nil
    | some span => exact .inr (List.pairwise_singleton _ _)

theorem advance (h : Underway d s trace c) {micros : Int} (hForward : 0 ≤ micros) :
    Underway d s trace { c with deployment := c.deployment.advance micros } := by
  have hLater : c.deployment.now ≤ (c.deployment.advance micros).now :=
    Int.le_add_of_nonneg_right hForward
  exact { h with
    started := Int.le_trans h.started hLater
    within := fun m hm => ⟨(h.within m hm).1, Int.le_trans (h.within m hm).2 hLater⟩ }

/-- A task that marks an issue after one with a later time has been overtaken. -/
theorem overtaken_of_marks (h : Underway d s trace c) (hDated : Dated d) {issueId : Int}
    {time later : Instant} (hRead : s i = some time)
    (hMarks : (c.moment i q).marks? issueId = some time)
    (hLater : later ∈ times d issueId trace) (hEarlier : time < later) :
    Overtaken issueId (trace ++ [c.moment i q]) := by
  obtain ⟨own, hOwn, hOwnReads⟩ := h.read i time hRead
  have hSince : d.now ≤ time := by
    rw [← hOwnReads.time]
    exact (h.within own hOwn).1
  rcases List.mem_append.mp hLater with hFirst | hMarked
  · -- What there was at the beginning is not later.
    exact absurd hEarlier (Instant.not_lt.mpr (Int.le_trans (hDated.past_times hFirst) hSince))
  obtain ⟨other, hOther, hOtherMarks⟩ := List.mem_filterMap.mp hMarked
  obtain ⟨hOtherRead, read, hBefore, hReads⟩ := h.marked other hOther issueId later hOtherMarks
  -- Who marked it with the later time read that before, and after the earlier time was read.
  have hChain : [own, read, other].Sublist trace := by
    refine cons_sublist_of_earlier h.clocked hOwn hBefore ?_
    rwa [hOwnReads.time, hReads.time]
  refine ⟨own, read, other, c.moment i q, time, later, ?_, hOwnReads, hReads, hEarlier, ?_, ?_, ?_⟩
  · exact hChain.append (List.Sublist.refl [c.moment i q])
  · intro hSame
    have hSelf : s other.mark = some time := hSame ▸ hRead
    obtain rfl := Option.some.inj (hSelf.symm.trans hOtherRead)
    exact absurd hEarlier (Instant.not_lt.mpr (Int.le_refl _))
  · rw [hOtherMarks]
    rfl
  · rw [hMarks]
    rfl

variable [DecidableEq ι]

/-- Whoever has read a time keeps it, and whoever reads one reads the present time. -/
theorem noted_cases (h : Underway d s trace c) (hProgram : (c.task i).program = .ask q next)
    (j : ι) :
    c.noted (fun _ => marking) s i q j = s j ∧ (j = i → q ≠ .now) ∨
      j = i ∧ q = .now ∧ s j = none ∧
        c.noted (fun _ => marking) s i q j = some c.deployment.now := by
  by_cases hj : j = i
  · subst hj
    have hMay : mayMark (s j) q := Crew.allows_of_keeps (k := fun _ => marking) h.keeps hProgram
    rw [Crew.noted_self]
    obtain ⟨hSame, hOther⟩ | ⟨hNow, hNone, hRead⟩ := noteReading_cases (d := c.found j) hMay
    · exact .inl ⟨hSame, fun _ => hOther⟩
    · exact .inr ⟨rfl, hNow, hNone, hRead⟩
  · exact .inl ⟨Crew.noted_other hj, fun hIs => absurd hIs hj⟩

theorem noted_of_some (h : Underway d s trace c) (hProgram : (c.task i).program = .ask q next)
    {j : ι} {time : Instant} (hRead : s j = some time) :
    c.noted (fun _ => marking) s i q j = some time := by
  obtain ⟨hSame, -⟩ | ⟨-, -, hNone, -⟩ := h.noted_cases hProgram j
  · exact hSame.trans hRead
  · rw [hNone] at hRead
    cases hRead

/-- What a turn does to the span of an issue and to the times that it has been marked with. -/
theorem span_afterRequest (h : Underway d s trace c) (hProgram : (c.task i).program = .ask q next)
    (issueId : Int) :
    times d issueId (trace ++ [c.moment i q]) = times d issueId trace ∧
        (c.afterRequest i q next).deployment.registry.span? issueId =
          c.deployment.registry.span? issueId ∨
      ∃ time first, s i = some time ∧ (c.moment i q).marks? issueId = some time ∧
        times d issueId (trace ++ [c.moment i q]) = times d issueId trace ++ [time] ∧
        (c.afterRequest i q next).deployment.registry.span? issueId = some (first, time) ∧
        (c.deployment.registry.span? issueId = none ∧ first = time ∨
          ∃ last, c.deployment.registry.span? issueId = some (first, last)) := by
  have hMay : mayMark (s i) q := Crew.allows_of_keeps (k := fun _ => marking) h.keeps hProgram
  rw [times_concat]
  obtain ⟨hNone, hSame⟩ | ⟨time, first, hRead, hMarks, hSpan⟩ :=
    span_perform (d := c.found i) h.unit hMay issueId
  · have hNone' : (c.moment i q).marks? issueId = none := hNone
    refine .inl ⟨?_, hSame⟩
    rw [hNone', Option.toList_none, List.append_nil]
  · have hMarks' : (c.moment i q).marks? issueId = some time := hMarks
    refine .inr ⟨time, first, hRead, hMarks', ?_, hSpan⟩
    rw [hMarks', Option.toList_some]

/-- A task that marks an issue has read the time before. -/
theorem reads_before_marks (h : Underway d s trace c)
    (hProgram : (c.task i).program = .ask q next) {issueId : Int} {time : Instant}
    (hMarks : (c.moment i q).marks? issueId = some time) :
    c.noted (fun _ => marking) s i q i = some time ∧
      ∃ read, [read, c.moment i q].Sublist (trace ++ [c.moment i q]) ∧ read.Reads i time := by
  have hMay : mayMark (s i) q := Crew.allows_of_keeps (k := fun _ => marking) h.keeps hProgram
  have hRead : s i = some time := by
    obtain ⟨hNone, -⟩ | ⟨time', -, hRead, hMarks', -⟩ :=
      span_perform (d := c.found i) h.unit hMay issueId
    · cases hNone.symm.trans hMarks
    · obtain rfl := Option.some.inj (hMarks'.symm.trans hMarks)
      exact hRead
  obtain ⟨read, hMem, hReads⟩ := h.read i time hRead
  refine ⟨h.noted_of_some hProgram hRead, read, ?_, hReads⟩
  exact (List.singleton_sublist.mpr hMem).append (List.Sublist.refl [c.moment i q])

theorem first_afterRequest (h : Underway d s trace c) (hProgram : (c.task i).program = .ask q next)
    (issueId : Int) (first last : Instant)
    (hSpan : (c.afterRequest i q next).deployment.registry.span? issueId = some (first, last)) :
    ∀ time ∈ (times d issueId (trace ++ [c.moment i q])).head?, first ≤ time := by
  intro t hHead
  obtain ⟨hTimes, hSame⟩ | ⟨time, first', -, -, hTimes, hAfter, hBefore⟩ :=
    h.span_afterRequest hProgram issueId
  · rw [hTimes] at hHead
    exact h.first issueId first last (hSame.symm.trans hSpan) t hHead
  obtain ⟨rfl, rfl⟩ := Prod.mk.inj (Option.some.inj (hAfter.symm.trans hSpan))
  have hEnd := h.last issueId
  rw [hTimes] at hHead
  obtain ⟨hNone, rfl⟩ | ⟨last', hSome⟩ := hBefore
  · -- The issue is new, and this is the first time that it is marked with.
    rw [hNone, Option.map_none, List.getLast?_eq_none_iff] at hEnd
    rw [hEnd] at hHead
    obtain rfl := Option.some.inj hHead
    exact Int.le_refl _
  · refine h.first issueId first' last' hSome t ?_
    rw [hSome] at hEnd
    cases hOld : times d issueId trace with
    | nil =>
        rw [hOld] at hEnd
        cases hEnd
    | cons t' rest =>
        rw [hOld] at hHead
        exact hHead

theorem ordered_afterRequest (h : Underway d s trace c) (hDated : Dated d)
    (hProgram : (c.task i).program = .ask q next) (issueId : Int) :
    Overtaken issueId (trace ++ [c.moment i q]) ∨
      (times d issueId (trace ++ [c.moment i q])).Pairwise fun a b => a ≤ b := by
  obtain ⟨hTimes, -⟩ | ⟨time, first, hRead, hMarks, hTimes, -⟩ :=
    h.span_afterRequest hProgram issueId
  · rw [hTimes]
    exact (h.ordered issueId).imp_left fun hOvertaken => hOvertaken.append _
  obtain hOvertaken | hOrdered := h.ordered issueId
  · exact .inl (hOvertaken.append _)
  -- Either all earlier marks have times up to this one, or the marking task has been overtaken.
  by_cases hLast : ∀ t ∈ times d issueId trace, t ≤ time
  · rw [hTimes]
    exact .inr (List.pairwise_append.mpr ⟨hOrdered, List.pairwise_singleton _ _,
      fun t ht => List.forall_mem_singleton.mpr (hLast t ht)⟩)
  · push Not at hLast
    obtain ⟨later, hLater, hEarlier⟩ := hLast
    exact .inl (h.overtaken_of_marks hDated hRead hMarks hLater (Instant.not_le.mp hEarlier))

theorem afterRequest (h : Underway d s trace c) (hDated : Dated d)
    (hProgram : (c.task i).program = .ask q next) :
    Underway d (c.noted (fun _ => marking) s i q) (trace ++ [c.moment i q])
      (c.afterRequest i q next) := by
  have hMay : mayMark (s i) q := Crew.allows_of_keeps (k := fun _ => marking) h.keeps hProgram
  have hLater : c.deployment.now ≤ (c.afterRequest i q next).deployment.now :=
    (c.found i).perform_now_le fun micros hPause => by
      rw [hPause] at hMay
      cases hMay
  exact {
    unit := (c.found i).perform_openUnit h.unit q
    keyed := (c.found i).perform_keyed h.unit h.keyed q
    keeps := Crew.keeps_afterRequest h.keeps hProgram
    started := Int.le_trans h.started hLater
    within := List.forall_mem_append.mpr
      ⟨fun m hm => ⟨(h.within m hm).1, Int.le_trans (h.within m hm).2 hLater⟩,
        List.forall_mem_singleton.mpr ⟨h.started, hLater⟩⟩
    clocked := List.pairwise_append.mpr ⟨h.clocked, List.pairwise_singleton _ _,
      fun m hm => List.forall_mem_singleton.mpr (h.within m hm).2⟩
    noted := by
      refine List.forall_mem_append.mpr
        ⟨fun m hm hNow => h.noted_of_some hProgram (h.noted m hm hNow),
          List.forall_mem_singleton.mpr fun hNow => ?_⟩
      obtain ⟨-, hOther⟩ | ⟨-, -, -, hRead⟩ := h.noted_cases hProgram i
      · exact absurd hNow (hOther rfl)
      · exact hRead
    read := by
      intro j time hRead
      obtain ⟨hSame, -⟩ | ⟨rfl, rfl, -, hNow⟩ := h.noted_cases hProgram j
      · obtain ⟨m, hm, hReads⟩ := h.read j time (hSame.symm.trans hRead)
        exact ⟨m, List.mem_append_left _ hm, hReads⟩
      · obtain rfl := Option.some.inj (hNow.symm.trans hRead)
        exact ⟨_, List.mem_concat_self, rfl, rfl, rfl⟩
    marked := List.forall_mem_append.mpr
      ⟨fun m hm issueId time hMarks => by
        obtain ⟨hRead, read, hBefore, hReads⟩ := h.marked m hm issueId time hMarks
        exact ⟨h.noted_of_some hProgram hRead, read,
          hBefore.trans (List.sublist_append_left _ _), hReads⟩,
      List.forall_mem_singleton.mpr fun _ _ hMarks => h.reads_before_marks hProgram hMarks⟩
    last := fun issueId => by
      obtain ⟨hTimes, hSpan⟩ | ⟨time, first, -, -, hTimes, hSpan, -⟩ :=
        h.span_afterRequest hProgram issueId
      · rw [hTimes, hSpan]
        exact h.last issueId
      · rw [hTimes, hSpan, List.getLast?_concat]
        rfl
    first := h.first_afterRequest hProgram
    ordered := h.ordered_afterRequest hDated hProgram }

theorem run (h : Underway d s trace c) (hDated : Dated d) {schedule : List (Move ι)}
    (hForward : ∀ micros, .clock micros ∈ schedule → 0 ≤ micros) :
    ∃ s, Underway d s (trace ++ (c.run schedule).1) (c.run schedule).2 := by
  let inv (trace : List (Moment ι)) (c : Crew ι (Option Receipt)) : Prop :=
    ∃ s, Underway d s trace c
  have hClock : ∀ {trace c} (micros : Int), .clock micros ∈ schedule → inv trace c →
      inv trace { c with deployment := c.deployment.advance micros } := fun micros hMem ⟨s, h⟩ =>
    ⟨s, h.advance (hForward micros hMem)⟩
  have hTurn : ∀ {trace c i q next}, (c.task i).program = .ask q next → inv trace c →
      inv (trace ++ [c.moment i q]) (c.afterRequest i q next) := fun hProgram ⟨_, h⟩ =>
    ⟨_, h.afterRequest hDated hProgram⟩
  exact @Crew.run_follows ι (Option Receipt) _ c inv schedule hClock hTurn trace ⟨s, h⟩

end Underway

namespace Underway

variable {d : Deployment} {s : ι → Option Instant} {trace : List (Moment ι)}
  {c : Crew ι (Option Receipt)}

/-- The time that an issue was marked with last is the one at which it was seen last. -/
theorem getLast?_times (h : Underway d s trace c) {i : Issue}
    (hRow : i ∈ c.deployment.registry.issues) :
    (times d i.id trace).getLast? = some i.lastSeen := by
  rw [h.last, h.keyed.span?_eq hRow]
  rfl

/-- Where the times come in order, an issue was seen last at the latest of them. -/
theorem le_lastSeen (h : Underway d s trace c) {i : Issue}
    (hRow : i ∈ c.deployment.registry.issues)
    (hOrdered : (times d i.id trace).Pairwise fun a b => a ≤ b) :
    ∀ time ∈ times d i.id trace, time ≤ i.lastSeen := by
  obtain ⟨earlier, hTimes⟩ := List.getLast?_eq_some_iff.mp (h.getLast?_times hRow)
  rw [hTimes, List.pairwise_append] at hOrdered
  rw [hTimes]
  refine List.forall_mem_append.mpr ⟨fun time hTime => ?_,
    List.forall_mem_singleton.mpr (Int.le_refl _)⟩
  exact hOrdered.2.2 time hTime _ (List.mem_singleton_self _)

theorem firstSeen_le (h : Underway d s trace c) {i : Issue}
    (hRow : i ∈ c.deployment.registry.issues)
    (hOrdered : (times d i.id trace).Pairwise fun a b => a ≤ b) : i.firstSeen ≤ i.lastSeen := by
  have hLast := List.mem_of_getLast? (h.getLast?_times hRow)
  cases hTimes : times d i.id trace with
  | nil =>
      rw [hTimes] at hLast
      cases hLast
  | cons time rest =>
      have hFirst : i.firstSeen ≤ time :=
        h.first i.id _ _ (h.keyed.span?_eq hRow) time (by rw [hTimes]; rfl)
      have hTime : time ≤ i.lastSeen :=
        h.le_lastSeen hRow hOrdered time (by rw [hTimes]; exact .head _)
      exact Int.le_trans hFirst hTime

/-- An issue that has just been marked was seen last at that time. -/
theorem row_of_marks {m : Moment ι} (h : Underway d s (trace ++ [m]) c) {issueId : Int}
    {time : Instant} (hMarks : m.marks? issueId = some time) :
    ∃ i ∈ c.deployment.registry.issues, i.id = issueId ∧ i.lastSeen = time := by
  have hLast := h.last issueId
  rw [times_concat, hMarks, Option.toList_some, List.getLast?_concat] at hLast
  obtain ⟨⟨first, last⟩, hSpan, hIs⟩ := Option.map_eq_some_iff.mp hLast.symm
  obtain ⟨i, hRow, hId, -, hSeen⟩ := Registry.span?_eq_some hSpan
  exact ⟨i, hRow, hId, hSeen.trans hIs⟩

/-- If an issue has been marked at all, it has been marked with the time at which it was seen
last. -/
theorem exists_marks_lastSeen (h : Underway d s trace c) {i : Issue}
    (hRow : i ∈ c.deployment.registry.issues) {seen : Moment ι} (hSeen : seen ∈ trace)
    (hMarks : (seen.marks? i.id).isSome = true) :
    ∃ own ∈ trace, own.marks? i.id = some i.lastSeen := by
  obtain ⟨marked, hMarked⟩ := Option.isSome_iff_exists.mp hMarks
  have hMem : marked ∈ trace.filterMap fun m => m.marks? i.id :=
    List.mem_filterMap.mpr ⟨seen, hSeen, hMarked⟩
  have hLast := h.getLast?_times hRow
  cases hEnd : (trace.filterMap fun m => m.marks? i.id).getLast? with
  | none =>
      rw [List.getLast?_eq_none_iff.mp hEnd] at hMem
      cases hMem
  | some last =>
      rw [times, List.getLast?_append, hEnd, Option.some_or] at hLast
      obtain rfl := Option.some.inj hLast
      exact List.mem_filterMap.mp (List.mem_of_getLast? hEnd)

/-- A task marks an issue with the time that it has read. -/
theorem marks_of_reads (h : Underway d s trace c) {read own : Moment ι} {issueId : Int}
    {time : Instant} (hRead : read ∈ trace) (hReads : read.Reads own.mark time) (hOwn : own ∈ trace)
    (hMarks : (own.marks? issueId).isSome = true) : own.marks? issueId = some time := by
  obtain ⟨marked, hMarked⟩ := Option.isSome_iff_exists.mp hMarks
  have hNoted := h.noted read hRead hReads.request
  rw [hReads.mark, hReads.time] at hNoted
  obtain rfl := Option.some.inj ((h.marked own hOwn issueId marked hMarked).1.symm.trans hNoted)
  exact hMarked

end Underway

section Interleaving

variable [DecidableEq ι] {d : Deployment} {errand : ι → Errand} {correlation : ι → Option String}
  {schedule : List (Move ι)}

theorem underway_run (h : Dated d) (errand : ι → Errand) (correlation : ι → Option String)
    (hForward : ∀ micros, .clock micros ∈ schedule → 0 ≤ micros) :
    ∃ s, Underway d s ((Crew.ofErrands d errand correlation).run schedule).1
      ((Crew.ofErrands d errand correlation).run schedule).2 :=
  (Underway.initial h errand correlation).run h hForward

theorem underway_take (h : Dated d) (errand : ι → Errand) (correlation : ι → Option String)
    (hForward : ∀ micros, .clock micros ∈ schedule → 0 ≤ micros) (k : Nat) :
    ∃ s, Underway d s ((Crew.ofErrands d errand correlation).run (schedule.take k)).1
      ((Crew.ofErrands d errand correlation).run (schedule.take k)).2 :=
  underway_run h errand correlation fun micros hMem => hForward micros (List.mem_of_mem_take hMem)

/-- If the times at which issues were last seen do not go back, an issue is marked with times in
their order. -/
theorem le_of_marks (h : Dated d) (hForward : ∀ micros, .clock micros ∈ schedule → 0 ≤ micros)
    (hKept : LastSeenKept (Crew.ofErrands d errand correlation) schedule) {other own : Moment ι}
    {issueId : Int} {time time' : Instant}
    (hSublist : [other, own].Sublist ((Crew.ofErrands d errand correlation).run schedule).1)
    (hOther : other.marks? issueId = some time') (hOwn : own.marks? issueId = some time) :
    time' ≤ time := by
  -- The two marks split the moments, and with them the schedule.
  obtain ⟨before, after, hSplit, hIn, hRest⟩ := List.cons_sublist_iff.mp hSublist
  obtain ⟨first, between, rfl⟩ := List.append_of_mem hIn
  obtain ⟨between', last, rfl⟩ := List.append_of_mem (List.singleton_sublist.mp hRest)
  have hFirst : first ++ [other] <+: ((Crew.ofErrands d errand correlation).run schedule).1 :=
    ⟨between ++ (between' ++ own :: last), by rw [hSplit]; simp⟩
  have hThen : first ++ other :: (between ++ between') ++ [own] <+:
      ((Crew.ofErrands d errand correlation).run schedule).1 := ⟨last, by rw [hSplit]; simp⟩
  obtain ⟨k, hk⟩ := Crew.exists_take_of_prefix hFirst
  obtain ⟨l, hl⟩ := Crew.exists_take_of_prefix hThen
  -- The part that ends with the first mark is shorter, as it has fewer moments.
  have hOrder : k ≤ l := by
    by_contra hNot
    have hShort := (Crew.moments_take_prefix (Crew.ofErrands d errand correlation) schedule
      (Nat.le_of_not_le hNot)).length_le
    rw [hk, hl] at hShort
    simp at hShort
  obtain ⟨s, hAtFirst⟩ := underway_take h errand correlation hForward k
  obtain ⟨s', hAtThen⟩ := underway_take h errand correlation hForward l
  rw [hk] at hAtFirst
  rw [hl] at hAtThen
  obtain ⟨i, hi, hId, hSeen⟩ := hAtFirst.row_of_marks hOther
  obtain ⟨j, hj, hId', hSeen'⟩ := hAtThen.row_of_marks hOwn
  have hBack := hKept.forward k l hOrder i hi j hj (hId'.trans hId.symm)
  rwa [hSeen, hSeen'] at hBack

/-- If no task is overtaken, the times that an issue is marked with come in order. -/
theorem times_ordered (h : Dated d) (hForward : ∀ micros, .clock micros ∈ schedule → 0 ≤ micros)
    {issueId : Int}
    (hNot : ¬Overtaken issueId ((Crew.ofErrands d errand correlation).run schedule).1) (k : Nat) :
    (times d issueId ((Crew.ofErrands d errand correlation).run (schedule.take k)).1).Pairwise
      fun a b => a ≤ b := by
  obtain ⟨s, hPart⟩ := underway_take h errand correlation hForward k
  refine (hPart.ordered issueId).resolve_left fun hOvertaken => hNot ?_
  have hWhole := Crew.moments_append (Crew.ofErrands d errand correlation) (schedule.take k)
    (schedule.drop k)
  rw [List.take_append_drop] at hWhole
  rw [hWhole]
  exact hOvertaken.append _

end Interleaving

/-- However tasks that take in reports interleave while the clock does not go back, the times at
which issues were last seen are kept exactly when no task is overtaken: when none marks an issue
with the time that it has read after another one has marked it with a later time. -/
theorem last_seen_kept_iff [DecidableEq ι] {d : Deployment} (h : Dated d) (errand : ι → Errand)
    (correlation : ι → Option String) {schedule : List (Move ι)}
    (hForward : ∀ micros, .clock micros ∈ schedule → 0 ≤ micros) :
    let c := Crew.ofErrands d errand correlation
    LastSeenKept c schedule ↔ ∀ issueId, ¬Overtaken issueId (c.run schedule).1 := by
  intro c
  obtain ⟨s, hAll⟩ := underway_run h errand correlation hForward
  constructor
  · rintro hKept issueId ⟨read, later, other, own, time, time', hSublist, hReads, hLater, hEarlier,
      -, hOther, hOwn⟩
    have hMem : ∀ m ∈ [read, later, other, own], m ∈ (c.run schedule).1 := fun _ hm =>
      hSublist.subset hm
    simp only [List.forall_mem_cons] at hMem
    obtain ⟨hRead, hThen, hOther', hOwn', -⟩ := hMem
    have hMarks : [other, own].Sublist (c.run schedule).1 :=
      ((List.sublist_cons_self later _).trans (List.sublist_cons_self read _)).trans hSublist
    have hBack : time' ≤ time := le_of_marks h hForward hKept hMarks
      (hAll.marks_of_reads hThen hLater hOther' hOther)
      (hAll.marks_of_reads hRead hReads hOwn' hOwn)
    exact absurd hEarlier (Instant.not_lt.mpr hBack)
  · intro hNot
    have hOrdered (k : Nat) (issueId : Int) :
        (times d issueId (c.run (schedule.take k)).1).Pairwise fun a b => a ≤ b :=
      times_ordered h hForward (hNot issueId) k
    refine ⟨?_, ?_, ?_⟩
    · intro k i hRow
      obtain ⟨s, hPart⟩ := underway_take h errand correlation hForward k
      exact hPart.firstSeen_le hRow (hOrdered k i.id)
    · intro k l hLater i hi j hj hSame
      obtain ⟨s, hFirst⟩ := underway_take h errand correlation hForward k
      obtain ⟨s', hThen⟩ := underway_take h errand correlation hForward l
      obtain ⟨more, hMore⟩ := c.moments_take_prefix schedule hLater
      refine hThen.le_lastSeen hj (hOrdered l j.id) i.lastSeen ?_
      rw [← hMore, times_append, hSame]
      exact List.mem_append_left _ (List.mem_of_getLast? (hFirst.getLast?_times hi))
    · rintro i hRow ⟨time, seen, hSeen, hMarks, -⟩
      have hWhole := hOrdered schedule.length i.id
      rw [List.take_length] at hWhole
      refine ⟨?_, ?_⟩
      · -- It is one of the times read: the one that the issue was marked with last.
        obtain ⟨own, hOwn, hLast⟩ := hAll.exists_marks_lastSeen hRow hSeen hMarks
        obtain ⟨-, read, hBefore, hReads⟩ := hAll.marked own hOwn i.id _ hLast
        exact ⟨own, hOwn, by rw [hLast]; rfl, read, hBefore.subset (.head _), hReads⟩
      · rintro time ⟨own, hOwn, hMarks, read, hRead, hReads⟩
        have hMarked := hAll.marks_of_reads hRead hReads hOwn hMarks
        exact hAll.le_lastSeen hRow hWhole time
          (List.mem_append_right _ (List.mem_filterMap.mpr ⟨own, hOwn, hMarked⟩))

/-- The services take in their reports one after the other. -/
theorem reports_in_turn :
    let c := Crew.ofErrands (Deployment.initial ⟨10000000000000000⟩ true) twoServices fun _ => none
    let schedule := List.replicate 20 (.turn 0) ++ .clock 10000000 :: List.replicate 20 (.turn 1)
    LastSeenKept c schedule ∧
      (c.run schedule).2.deployment.registry.issues.map (fun i => (i.firstSeen, i.lastSeen)) =
        [(⟨10000000000000000⟩, ⟨10000000010000000⟩)] := by
  intro c schedule
  have hMarks : (c.run schedule).1.map Moment.mark =
      List.replicate 12 0 ++ List.replicate 11 1 := by decide +kernel
  have hDated : Dated (Deployment.initial ⟨10000000000000000⟩ true) :=
    ⟨rfl, Registry.keyed_empty, List.forall_mem_nil _, List.forall_mem_nil _⟩
  have hForward : ∀ micros, .clock micros ∈ schedule → 0 ≤ micros := by
    intro micros hMem
    obtain rfl : micros = 10000000 := by simpa [schedule] using hMem
    decide
  refine ⟨(last_seen_kept_iff hDated twoServices (fun _ => none) hForward).mpr ?_,
    by decide +kernel⟩
  rintro issueId ⟨read, later, other, own, _, _, hSublist, hRead, hLater, -, hOther, -⟩
  -- Nobody has a turn both before and after one of somebody else.
  have hTurns := hSublist.map Moment.mark
  rw [hMarks, List.map_cons, List.map_cons, List.map_cons, List.map_singleton, hRead.mark,
    hLater.mark] at hTurns
  revert hOther hTurns
  generalize own.mark = x
  generalize other.mark = y
  revert x y
  decide

/-- A service that has read the time before another one marks the issue after it. -/
theorem marked_late :
    let c := Crew.ofErrands (Deployment.initial ⟨10000000000000000⟩ true) twoServices fun _ => none
    let schedule := List.replicate 2 (.turn 0) ++ .clock 10000000 ::
      (List.replicate 20 (.turn 1) ++ List.replicate 20 (.turn 0))
    (c.issuesAfter schedule 23).map (fun i => (i.firstSeen, i.lastSeen)) =
        [(⟨10000000010000000⟩, ⟨10000000010000000⟩)] ∧
      (c.issuesAfter schedule schedule.length).map (fun i => (i.firstSeen, i.lastSeen)) =
        [(⟨10000000010000000⟩, ⟨10000000000000000⟩)] ∧ ¬LastSeenKept c schedule := by
  intro c schedule
  have hEnd : (c.issuesAfter schedule schedule.length).map (fun i => (i.firstSeen, i.lastSeen)) =
      [(⟨10000000010000000⟩, ⟨10000000000000000⟩)] := by decide +kernel
  refine ⟨by decide +kernel, hEnd, fun hKept => ?_⟩
  obtain ⟨i, hMem, hSpan⟩ := List.mem_map.mp (hEnd ▸ List.mem_singleton_self _)
  obtain ⟨hFirst, hLast⟩ := Prod.mk.inj hSpan
  have hSince := hKept.since_first _ i hMem
  rw [hFirst, hLast] at hSince
  exact absurd hSince (by decide)

end Events
end Triage
