import Mathlib.Algebra.Order.Floor.Semifield
import Mathlib.Data.Rat.Floor
import Mathlib.Tactic.Linarith
import Mathlib.Tactic.NormNum
import Mathlib.Tactic.Ring
import Triage.Connect.Retry
import Triage.Proofs.Connect.WayBack

/-!
# Series of attempts

A series keeps no count of its attempts: it goes on while the next one starts before the deadline.
What a finished series has done is told pause by pause (`Conducted`), which is shown for one attempt
and then for all.  Every pause moves the clock by the interval, so there are at most as many as fit
into the timeout, and which of the three endings a series has is settled by the first outcome that is
not worth a retry, if it comes in time (`series_bounded`).
-/

namespace Triage.Connect

variable {ε τ : Type} {retryable : ε → Bool} {outcome : ℕ → Option ε}

/-- An attempt fails in a way that is worth a retry. -/
def FailsPassingly (retryable : ε → Bool) (outcome : ℕ → Option ε) (n : ℕ) : Prop :=
  ∃ error, outcome n = some error ∧ retryable error = true

/-- There is only one first attempt that does not fail in a way that is worth a retry. -/
theorem first_unique {m n : ℕ} (hm : ∀ i < m, FailsPassingly retryable outcome i)
    (hmEnd : ¬FailsPassingly retryable outcome m)
    (hn : ∀ i < n, FailsPassingly retryable outcome i)
    (hnEnd : ¬FailsPassingly retryable outcome n) : m = n := by
  rcases Nat.lt_trichotomy m n with hLess | hEq | hMore
  · exact absurd (hn m hLess) hmEnd
  · exact hEq
  · exact absurd (hm n hMore) hnEnd

theorem not_failsPassingly_of_none {n : ℕ} (h : outcome n = none) :
    ¬FailsPassingly retryable outcome n := by
  rintro ⟨error, hError, -⟩
  rw [h] at hError
  cases hError

theorem not_failsPassingly_of_refused {n : ℕ} {error : ε} (h : outcome n = some error)
    (hRefused : retryable error = false) : ¬FailsPassingly retryable outcome n := by
  rintro ⟨other, hOther, hRetry⟩
  obtain rfl := Option.some.inj (h.symm.trans hOther)
  rw [hRefused] at hRetry
  cases hRetry

section Steps

variable [Add τ] [LT τ] [DecidableLT τ] {deadline interval time : τ} {fuel n : ℕ} {s : Series ε τ}

theorem attemptFrom_connected (h : outcome n = none) :
    attemptFrom retryable outcome deadline interval (fuel + 1) n time = some ⟨[], .connected⟩ := by
  simp only [attemptFrom, h]

theorem attemptFrom_refused {error : ε} (h : outcome n = some error)
    (hRefused : retryable error = false) :
    attemptFrom retryable outcome deadline interval (fuel + 1) n time =
      some ⟨[], .refused error⟩ := by
  simp only [attemptFrom, h, hRefused, Bool.not_false, if_true]

theorem attemptFrom_gaveUp {error : ε} (h : outcome n = some error)
    (hRetry : retryable error = true) (hLate : deadline < time + interval) :
    attemptFrom retryable outcome deadline interval (fuel + 1) n time =
      some ⟨[], .gaveUp error⟩ := by
  simp [attemptFrom, h, hRetry, hLate]

theorem attemptFrom_repeat {error : ε} (h : outcome n = some error)
    (hRetry : retryable error = true) (hTime : ¬deadline < time + interval) :
    attemptFrom retryable outcome deadline interval (fuel + 1) n time =
      (attemptFrom retryable outcome deadline interval fuel (n + 1) (time + interval)).map
        fun later => { later with repeated := ⟨error, time, time + interval⟩ :: later.repeated } := by
  simp [attemptFrom, h, hRetry, hTime]

/-- An attempt ends the series, or is followed by a pause that ends before the deadline and by the
rest of the series. -/
theorem attemptFrom_cases
    (h : attemptFrom retryable outcome deadline interval (fuel + 1) n time = some s) :
    (outcome n = none ∧ s = ⟨[], .connected⟩) ∨
    (∃ error, outcome n = some error ∧ retryable error = false ∧ s = ⟨[], .refused error⟩) ∨
    ∃ error, outcome n = some error ∧ retryable error = true ∧
      ((deadline < time + interval ∧ s = ⟨[], .gaveUp error⟩) ∨
        (¬deadline < time + interval ∧ ∃ later,
          attemptFrom retryable outcome deadline interval fuel (n + 1) (time + interval) =
            some later ∧
          s = { later with repeated := ⟨error, time, time + interval⟩ :: later.repeated })) := by
  cases hOutcome : outcome n with
  | none =>
      rw [attemptFrom_connected hOutcome] at h
      exact .inl ⟨rfl, (Option.some.inj h).symm⟩
  | some error =>
      refine .inr ?_
      cases hRetry : retryable error with
      | false =>
          rw [attemptFrom_refused hOutcome hRetry] at h
          exact .inl ⟨error, rfl, hRetry, (Option.some.inj h).symm⟩
      | true =>
          refine .inr ⟨error, rfl, hRetry, ?_⟩
          by_cases hLate : deadline < time + interval
          · rw [attemptFrom_gaveUp hOutcome hRetry hLate] at h
            exact .inl ⟨hLate, (Option.some.inj h).symm⟩
          · rw [attemptFrom_repeat hOutcome hRetry hLate] at h
            obtain ⟨later, hLater, hSeries⟩ := Option.map_eq_some_iff.mp h
            exact .inr ⟨hLate, later, hLater, hSeries.symm⟩

/-- A finished series does not change when more attempts are allowed. -/
theorem attemptFrom_succ (h : attemptFrom retryable outcome deadline interval fuel n time = some s) :
    attemptFrom retryable outcome deadline interval (fuel + 1) n time = some s := by
  induction fuel generalizing n time s with
  | zero => cases h
  | succ fuel ih =>
      rcases attemptFrom_cases h with ⟨hNone, rfl⟩ | ⟨error, hSome, hRefused, rfl⟩ |
        ⟨error, hSome, hRetry, ⟨hLate, rfl⟩ | ⟨hTime, later, hLater, rfl⟩⟩
      · exact attemptFrom_connected hNone
      · exact attemptFrom_refused hSome hRefused
      · exact attemptFrom_gaveUp hSome hRetry hLate
      · rw [attemptFrom_repeat hSome hRetry hTime, ih hLater]
        rfl

theorem attemptFrom_le {more : ℕ} (hMore : fuel ≤ more)
    (h : attemptFrom retryable outcome deadline interval fuel n time = some s) :
    attemptFrom retryable outcome deadline interval more n time = some s := by
  induction hMore with
  | refl => exact h
  | step _ ih => exact attemptFrom_succ ih

end Steps

section ExactTime

variable [Field τ] [LinearOrder τ] {deadline interval time : τ} {fuel n : ℕ} {s : Series ε τ}

/-- What a series has done whose first attempt is number `n` and is made at a time. -/
structure Conducted (retryable : ε → Bool) (outcome : ℕ → Option ε) (deadline interval : τ) (n : ℕ)
    (time : τ) (s : Series ε τ) : Prop where
  failed : ∀ (i : ℕ) (pause : Pause ε τ), s.repeated[i]? = some pause →
    outcome (n + i) = some pause.error ∧ retryable pause.error = true
  paused : ∀ (i : ℕ) (pause : Pause ε τ), s.repeated[i]? = some pause →
    pause.start = time + i * interval ∧ pause.finish = pause.start + interval ∧
      pause.finish ≤ deadline
  connected : s.ending = .connected → outcome (n + s.pauses) = none
  refused : ∀ error, s.ending = .refused error →
    outcome (n + s.pauses) = some error ∧ retryable error = false
  gaveUp : ∀ error, s.ending = .gaveUp error →
    outcome (n + s.pauses) = some error ∧ retryable error = true ∧
      deadline < time + (s.pauses + 1) * interval

/-- A series that is over after one attempt. -/
theorem Conducted.single {ending : Ending ε}
    (hConnected : ending = .connected → outcome n = none)
    (hRefused : ∀ error, ending = .refused error → outcome n = some error ∧ retryable error = false)
    (hGaveUp : ∀ error, ending = .gaveUp error →
      outcome n = some error ∧ retryable error = true ∧ deadline < time + interval) :
    Conducted retryable outcome deadline interval n time ⟨[], ending⟩ where
  failed i pause h := by simp at h
  paused i pause h := by simp at h
  connected := hConnected
  refused := hRefused
  gaveUp error h := by simpa [Series.pauses] using hGaveUp error h

/-- One more attempt and a pause before a series. -/
theorem Conducted.repeat {error : ε} (hOutcome : outcome n = some error)
    (hRetry : retryable error = true) (hTime : time + interval ≤ deadline)
    (h : Conducted retryable outcome deadline interval (n + 1) (time + interval) s) :
    Conducted retryable outcome deadline interval n time
      { s with repeated := ⟨error, time, time + interval⟩ :: s.repeated } := by
  have hShift (i : ℕ) : n + 1 + i = n + (i + 1) := by omega
  have hPauses : n + (s.repeated.length + 1) = n + 1 + s.pauses := by rw [Series.pauses]; omega
  refine ⟨?_, ?_, ?_, ?_, ?_⟩
  · rintro (_ | i) pause hPause
    · obtain rfl := Option.some.inj hPause
      exact ⟨hOutcome, hRetry⟩
    · rw [← hShift]
      exact h.failed i pause hPause
  · rintro (_ | i) pause hPause
    · obtain rfl := Option.some.inj hPause
      exact ⟨by simp, rfl, hTime⟩
    · obtain ⟨hStart, hFinish, hBefore⟩ := h.paused i pause hPause
      refine ⟨?_, hFinish, hBefore⟩
      rw [hStart]
      push_cast
      ring
  · intro hEnding
    rw [Series.pauses, List.length_cons, hPauses]
    exact h.connected hEnding
  · intro e hEnding
    rw [Series.pauses, List.length_cons, hPauses]
    exact h.refused e hEnding
  · intro e hEnding
    obtain ⟨hSome, hAgain, hLate⟩ := h.gaveUp e hEnding
    rw [Series.pauses, List.length_cons, hPauses]
    refine ⟨hSome, hAgain, hLate.trans_eq ?_⟩
    rw [Series.pauses]
    push_cast
    ring

theorem conducted_attemptFrom
    (h : attemptFrom retryable outcome deadline interval fuel n time = some s) :
    Conducted retryable outcome deadline interval n time s := by
  induction fuel generalizing n time s with
  | zero => cases h
  | succ fuel ih =>
      rcases attemptFrom_cases h with ⟨hNone, rfl⟩ | ⟨error, hSome, hRefused, rfl⟩ |
        ⟨error, hSome, hRetry, ⟨hLate, rfl⟩ | ⟨hTime, later, hLater, rfl⟩⟩
      · exact .single (fun _ => hNone) (fun e he => by cases he) (fun e he => by cases he)
      · refine .single (fun he => by cases he) (fun e he => ?_) (fun e he => by cases he)
        cases he
        exact ⟨hSome, hRefused⟩
      · refine .single (fun he => by cases he) (fun e he => by cases he) (fun e he => ?_)
        cases he
        exact ⟨hSome, hRetry, hLate⟩
      · exact .repeat hSome hRetry (not_lt.mp hTime) (ih hLater)

variable (retryable outcome) in
/-- A series is finished once the deadline would be passed by as many intervals as attempts are
allowed. -/
theorem attemptFrom_finishes (n : ℕ) (h : deadline < time + (fuel + 1 : ℕ) * interval) :
    ∃ s, attemptFrom retryable outcome deadline interval (fuel + 1) n time = some s := by
  induction fuel generalizing n time with
  | zero =>
      have hLate : deadline < time + interval := by simpa using h
      cases hOutcome : outcome n with
      | none => exact ⟨_, attemptFrom_connected hOutcome⟩
      | some error =>
          cases hRetry : retryable error with
          | false => exact ⟨_, attemptFrom_refused hOutcome hRetry⟩
          | true => exact ⟨_, attemptFrom_gaveUp hOutcome hRetry hLate⟩
  | succ fuel ih =>
      cases hOutcome : outcome n with
      | none => exact ⟨_, attemptFrom_connected hOutcome⟩
      | some error =>
          cases hRetry : retryable error with
          | false => exact ⟨_, attemptFrom_refused hOutcome hRetry⟩
          | true =>
              by_cases hLate : deadline < time + interval
              · exact ⟨_, attemptFrom_gaveUp hOutcome hRetry hLate⟩
              · have hRest : deadline < time + interval + (fuel + 1 : ℕ) * interval :=
                  h.trans_eq (by push_cast; ring)
                obtain ⟨later, hLater⟩ := ih (n + 1) hRest
                exact ⟨_, by rw [attemptFrom_repeat hOutcome hRetry hLate, hLater]; rfl⟩

/-- Before its last attempt, all attempts of a series fail in a way that is worth a retry. -/
theorem Conducted.failsPassingly
    (h : Conducted retryable outcome deadline interval 0 time s) :
    ∀ i < s.pauses, FailsPassingly retryable outcome i := by
  intro i hi
  have hFailed := h.failed i _ (List.getElem?_eq_getElem hi)
  rw [Nat.zero_add] at hFailed
  exact ⟨_, hFailed⟩

/-- The last attempt of a series that is not given up is a success or fails for good. -/
theorem Conducted.not_failsPassingly (h : Conducted retryable outcome deadline interval 0 time s)
    (hEnding : ∀ error, s.ending ≠ .gaveUp error) : ¬FailsPassingly retryable outcome s.pauses := by
  cases hIs : s.ending with
  | connected =>
      have hNone := h.connected hIs
      rw [Nat.zero_add] at hNone
      exact not_failsPassingly_of_none hNone
  | refused error =>
      obtain ⟨hSome, hRefused⟩ := h.refused error hIs
      rw [Nat.zero_add] at hSome
      exact not_failsPassingly_of_refused hSome hRefused
  | gaveUp error => exact absurd hIs (hEnding error)

variable [IsStrictOrderedRing τ] [FloorSemiring τ] {start timeout : τ}

/-- No more pauses than intervals fit into the timeout. -/
theorem Conducted.pauses_le (hInterval : 0 < interval)
    (h : Conducted retryable outcome (start + timeout) interval 0 start s) :
    s.pauses ≤ ⌊timeout / interval⌋₊ := by
  rcases Nat.eq_zero_or_pos s.pauses with hNone | hSome
  · omega
  · obtain ⟨hStart, hFinish, hBefore⟩ := h.paused (s.pauses - 1) _
      (List.getElem?_eq_getElem (Nat.sub_lt hSome Nat.one_pos))
    refine Nat.le_floor ((le_div_iff₀ hInterval).mpr ?_)
    have hCast : ((s.pauses - 1 : ℕ) : τ) = s.pauses - 1 := by
      rw [Nat.cast_sub hSome, Nat.cast_one]
    rw [hFinish, hStart, hCast] at hBefore
    linarith

/-- A series that is given up has paused as often as there is time for. -/
theorem Conducted.pauses_eq (hInterval : 0 < interval) {error : ε}
    (h : Conducted retryable outcome (start + timeout) interval 0 start s)
    (hEnding : s.ending = .gaveUp error) : s.pauses = ⌊timeout / interval⌋₊ := by
  refine le_antisymm (h.pauses_le hInterval) ?_
  have hLate := (h.gaveUp error hEnding).2.2
  have hRatio : timeout / interval < (s.pauses + 1 : ℕ) := by
    rw [div_lt_iff₀ hInterval]
    push_cast
    linarith
  exact Nat.lt_succ_iff.mp ((Nat.floor_lt' (Nat.succ_ne_zero _)).mpr hRatio)

/-- All attempts of a series that is given up fail in a way that is worth a retry. -/
theorem Conducted.failsPassingly_all (hInterval : 0 < interval) {error : ε}
    (h : Conducted retryable outcome (start + timeout) interval 0 start s)
    (hEnding : s.ending = .gaveUp error) :
    ∀ i < ⌊timeout / interval⌋₊ + 1, FailsPassingly retryable outcome i := by
  intro i hi
  rw [← h.pauses_eq hInterval hEnding] at hi
  rcases Nat.lt_succ_iff_lt_or_eq.mp hi with hEarlier | rfl
  · exact h.failsPassingly i hEarlier
  · obtain ⟨hSome, hRetry, -⟩ := h.gaveUp error hEnding
    rw [Nat.zero_add] at hSome
    exact ⟨error, hSome, hRetry⟩

/-- A series ends at the first outcome that is not an error worth a retry, if it comes in time. -/
theorem Conducted.pauses_eq_first (hInterval : 0 < interval)
    (h : Conducted retryable outcome (start + timeout) interval 0 start s)
    (hn : n < ⌊timeout / interval⌋₊ + 1) (hBefore : ∀ i < n, FailsPassingly retryable outcome i)
    (hFirst : ¬FailsPassingly retryable outcome n) :
    s.pauses = n ∧ ∀ error, s.ending ≠ .gaveUp error := by
  have hEnding : ∀ error, s.ending ≠ .gaveUp error := fun error hGaveUp =>
    hFirst (h.failsPassingly_all hInterval hGaveUp n hn)
  exact ⟨first_unique h.failsPassingly (h.not_failsPassingly hEnding) hBefore hFirst, hEnding⟩

/-- A series connects exactly if the first outcome that is not an error worth a retry is a success and
comes in time. -/
theorem Conducted.connected_iff (hInterval : 0 < interval)
    (h : Conducted retryable outcome (start + timeout) interval 0 start s) :
    s.ending = .connected ↔ ∃ n < ⌊timeout / interval⌋₊ + 1, outcome n = none ∧
      ∀ i < n, FailsPassingly retryable outcome i := by
  constructor
  · intro hEnding
    have hNone : outcome s.pauses = none := by simpa using h.connected hEnding
    exact ⟨s.pauses, Nat.lt_succ_of_le (h.pauses_le hInterval), hNone, h.failsPassingly⟩
  · rintro ⟨n, hn, hNone, hBefore⟩
    obtain ⟨rfl, hNotLate⟩ :=
      h.pauses_eq_first hInterval hn hBefore (not_failsPassingly_of_none hNone)
    cases hEnding : s.ending with
    | connected => rfl
    | refused error => simpa [hNone] using (h.refused error hEnding).1
    | gaveUp error => exact absurd hEnding (hNotLate error)

/-- A series is refused exactly if the first outcome that is not an error worth a retry is another
error and comes in time. -/
theorem Conducted.refused_iff (hInterval : 0 < interval)
    (h : Conducted retryable outcome (start + timeout) interval 0 start s) (error : ε) :
    s.ending = .refused error ↔ ∃ n < ⌊timeout / interval⌋₊ + 1, outcome n = some error ∧
      retryable error = false ∧ ∀ i < n, FailsPassingly retryable outcome i := by
  constructor
  · intro hEnding
    obtain ⟨hSome, hRefused⟩ := h.refused error hEnding
    rw [Nat.zero_add] at hSome
    exact ⟨s.pauses, Nat.lt_succ_of_le (h.pauses_le hInterval), hSome, hRefused,
      h.failsPassingly⟩
  · rintro ⟨n, hn, hSome, hRefused, hBefore⟩
    obtain ⟨rfl, hNotLate⟩ :=
      h.pauses_eq_first hInterval hn hBefore (not_failsPassingly_of_refused hSome hRefused)
    cases hEnding : s.ending with
    | connected => simpa [hSome] using h.connected hEnding
    | refused other =>
        have hOther : error = other := by simpa [hSome] using (h.refused other hEnding).1
        rw [hOther]
    | gaveUp other => exact absurd hEnding (hNotLate other)

/-- A series is given up if all attempts for which there is time fail in a way that is worth a retry.
-/
theorem Conducted.exists_gaveUp (hInterval : 0 < interval)
    (h : Conducted retryable outcome (start + timeout) interval 0 start s)
    (hAll : ∀ i < ⌊timeout / interval⌋₊ + 1, FailsPassingly retryable outcome i) :
    ∃ error, s.ending = .gaveUp error := by
  by_contra hNever
  exact h.not_failsPassingly (fun error hError => hNever ⟨error, hError⟩)
    (hAll _ (Nat.lt_succ_of_le (h.pauses_le hInterval)))

/-- A series is given up exactly if all attempts for which there is time fail in a way that is worth a
retry. -/
theorem Conducted.gaveUp_iff (hInterval : 0 < interval)
    (h : Conducted retryable outcome (start + timeout) interval 0 start s) (error : ε) :
    s.ending = .gaveUp error ↔ outcome ⌊timeout / interval⌋₊ = some error ∧
      ∀ i < ⌊timeout / interval⌋₊ + 1, FailsPassingly retryable outcome i := by
  have hLast {error : ε} (hEnding : s.ending = .gaveUp error) :
      outcome ⌊timeout / interval⌋₊ = some error := by
    have hSome := (h.gaveUp error hEnding).1
    rwa [Nat.zero_add, h.pauses_eq hInterval hEnding] at hSome
  constructor
  · exact fun hEnding => ⟨hLast hEnding, h.failsPassingly_all hInterval hEnding⟩
  · rintro ⟨hSome, hAll⟩
    obtain ⟨other, hEnding⟩ := h.exists_gaveUp hInterval hAll
    rw [hEnding, Option.some.inj ((hLast hEnding).symm.trans hSome)]

/-- For every sequence of outcomes, and however many attempts are allowed, a series ends after at most
one attempt more than intervals fit into the timeout.  Its pauses last one interval each, follow each
other at once and end before the deadline.  It connects exactly if the first outcome that is not an
error worth a retry comes in time and is a success, it is refused exactly if this outcome is an error,
and it is given up exactly if no such outcome comes in time; then no attempt is left out. -/
theorem series_bounded (retryable : ε → Bool) (outcome : ℕ → Option ε) (start timeout : τ)
    (hInterval : 0 < interval) :
    let most := ⌊timeout / interval⌋₊ + 1
    ∃ s : Series ε τ,
      (∀ fuel ≥ most,
        attemptFrom retryable outcome (start + timeout) interval fuel 0 start = some s) ∧
      s.attempts ≤ most ∧
      (∀ (i : ℕ) (pause : Pause ε τ), s.repeated[i]? = some pause →
        outcome i = some pause.error ∧ pause.start = start + i * interval ∧
          pause.finish = pause.start + interval ∧ pause.finish ≤ start + timeout) ∧
      (s.ending = .connected ↔ ∃ n < most, outcome n = none ∧
        ∀ i < n, FailsPassingly retryable outcome i) ∧
      (∀ error, s.ending = .refused error ↔ ∃ n < most, outcome n = some error ∧
        retryable error = false ∧ ∀ i < n, FailsPassingly retryable outcome i) ∧
      (∀ error, s.ending = .gaveUp error ↔ outcome (most - 1) = some error ∧
        ∀ i < most, FailsPassingly retryable outcome i) ∧
      ((∀ i < most, FailsPassingly retryable outcome i) → s.attempts = most) := by
  intro most
  have hRatio : timeout / interval < most := by
    simpa [most] using Nat.lt_floor_add_one (timeout / interval)
  have hSpan : start + timeout < start + most * interval :=
    (add_lt_add_iff_left start).mpr ((div_lt_iff₀ hInterval).mp hRatio)
  obtain ⟨s, hSeries⟩ := attemptFrom_finishes retryable outcome 0 hSpan
  have h := conducted_attemptFrom hSeries
  refine ⟨s, fun fuel hFuel => attemptFrom_le hFuel hSeries, ?_, ?_, h.connected_iff hInterval,
    h.refused_iff hInterval, h.gaveUp_iff hInterval, fun hAll => ?_⟩
  · exact Nat.succ_le_succ (h.pauses_le hInterval)
  · intro i pause hPause
    have hFailed := (h.failed i pause hPause).1
    rw [Nat.zero_add] at hFailed
    exact ⟨hFailed, h.paused i pause hPause⟩
  · obtain ⟨error, hEnding⟩ := h.exists_gaveUp hInterval hAll
    exact congrArg (· + 1) (h.pauses_eq hInterval hEnding)

/-- A database that refuses two attempts and then answers is connected to at the third attempt, the
last one for which two and a half seconds leave time. -/
theorem connected_at_third_attempt :
    let refusal : List Incident := [⟨"ConnectionRefusedError", "refused", true, none, none⟩]
    let outcome (n : ℕ) : Option (List Incident) := if n < 2 then some refusal else none
    (0 : ℚ) < 1 ∧ ∃ s : Series (List Incident) ℚ,
      attemptFrom isRetryable outcome (0 + 5 / 2) 1 3 0 0 = some s ∧ s.ending = .connected := by
  intro refusal outcome
  have hRefusal : isRetryable refusal = true := by decide +kernel
  have hMost : ⌊(5 / 2 : ℚ) / 1⌋₊ + 1 = 3 := by norm_num
  obtain ⟨s, hSeries, -, -, hConnected, -⟩ :=
    series_bounded isRetryable outcome (0 : ℚ) (5 / 2) one_pos
  rw [hMost] at hSeries hConnected
  refine ⟨one_pos, s, hSeries 3 le_rfl, hConnected.mpr ⟨2, by decide, rfl, fun i hi => ?_⟩⟩
  exact ⟨refusal, if_pos hi, hRefusal⟩

end ExactTime

end Triage.Connect
