import Mathlib.Tactic.SplitIfs
import Triage.Time.Instant

/-!
# The calendar and the time line agree

The date of an ordinal is a date of the calendar whose ordinal it is (`ofOrdinal_spec`), although the
one counts whole cycles of years and the other one leap days.  So an instant is told by its date and
its time of day, up to the fraction of its second (`wholeSeconds_eq`).
-/

namespace Triage.Time

/-- The dates of the calendar, from year 1. -/
structure Date.IsDate (d : Date) : Prop where
  year_pos : 0 < d.year
  month_pos : 0 < d.month
  month_le : d.month ≤ 12
  day_pos : 0 < d.day
  day_le : d.day ≤ daysInMonth d.year d.month

theorem daysBeforeMonth_succ (year : Nat) {month : Nat} (h : 0 < month) :
    daysBeforeMonth year (month + 1) = daysBeforeMonth year month + daysInMonth year month := by
  obtain ⟨month, rfl⟩ := Nat.exists_eq_add_one_of_ne_zero (Nat.ne_of_gt h)
  rfl

theorem daysBeforeMonth_december (year : Nat) :
    daysBeforeMonth year 12 + 31 = 365 + (if isLeap year then 1 else 0) := by
  cases hLeap : isLeap year <;> simp [daysBeforeMonth, daysInMonth, hLeap]

/-- Taking whole months off the front ends at the month that holds the day. -/
theorem monthAndDay_spec (year fuel : Nat) {month : Nat} (rest : Nat) (hMonth : 0 < month)
    (hFuel : month + fuel = 12) (hRest : daysBeforeMonth year month + rest < 365) :
    let found := monthAndDay year fuel month rest
    0 < found.1 ∧ found.1 ≤ 12 ∧ 0 < found.2 ∧ found.2 ≤ daysInMonth year found.1 ∧
      daysBeforeMonth year found.1 + found.2 = daysBeforeMonth year month + rest + 1 := by
  induction fuel generalizing month rest with
  | zero =>
      obtain rfl : month = 12 := by omega
      have hDecember := daysBeforeMonth_december year
      have hDays : daysInMonth year 12 = 31 := rfl
      rw [monthAndDay]
      dsimp only
      omega
  | succ fuel ih =>
      have hNext := daysBeforeMonth_succ year hMonth
      rw [monthAndDay]
      split
      next hHere =>
        dsimp only
        omega
      next hLater =>
        have hMonthNext : 0 < month + 1 := Nat.succ_pos month
        have hFound := ih (rest - daysInMonth year month) hMonthNext (by omega) (by omega)
        dsimp only at hFound ⊢
        omega

/-- Of every four years the last one is a leap year, unless it ends a century that is not the last one
of four. -/
theorem isLeap_cycles (cycles centuries fours : Nat) (hFours : fours < 24) :
    isLeap (cycles * 400 + centuries * 100 + fours * 4 + 4) = true := by
  have hFour : (cycles * 400 + centuries * 100 + fours * 4 + 4) % 4 = 0 := by omega
  have hCentury : (cycles * 400 + centuries * 100 + fours * 4 + 4) % 100 ≠ 0 := by omega
  simp [isLeap, hFour, hCentury]

theorem isLeap_cycle (cycles : Nat) : isLeap (cycles * 400 + 400) = true := by
  have hCycle : (cycles * 400 + 400) % 400 = 0 := by omega
  have hFour : (cycles * 400 + 400) % 4 = 0 := by omega
  simp [isLeap, hFour, hCycle]

/-- The days of all years before one that is told by its cycles. -/
theorem daysBeforeYear_cycles (cycles centuries fours years : Nat) (hCenturies : centuries < 4)
    (hFours : fours < 25) (hYears : years < 4) :
    daysBeforeYear (cycles * 400 + centuries * 100 + fours * 4 + years + 1) =
      cycles * 146097 + centuries * 36524 + fours * 1461 + years * 365 := by
  rw [daysBeforeYear, Nat.add_sub_cancel]
  have hFour : (cycles * 400 + centuries * 100 + fours * 4 + years) / 4 =
      cycles * 100 + centuries * 25 + fours := by omega
  have hCentury : (cycles * 400 + centuries * 100 + fours * 4 + years) / 100 =
      cycles * 4 + centuries := by omega
  have hCycle : (cycles * 400 + centuries * 100 + fours * 4 + years) / 400 = cycles := by omega
  rw [hFour, hCentury, hCycle]
  omega

/-- The last day of a leap year, which no whole number of cycles leads to. -/
theorem ofLastDay {year n : Nat} (hYear : 0 < year) (hLeap : isLeap year = true)
    (hDays : daysBeforeYear year + 366 = n) :
    Date.IsDate ⟨year, 12, 31⟩ ∧ Date.ordinal ⟨year, 12, 31⟩ = n := by
  have hDecember := daysBeforeMonth_december year
  rw [if_pos hLeap] at hDecember
  refine ⟨⟨hYear, Nat.succ_pos 11, Nat.le_refl 12, Nat.succ_pos 30, Nat.le_refl 31⟩, ?_⟩
  rw [Date.ordinal]
  dsimp only
  omega

/-- The date of an ordinal is a date of the calendar with this ordinal. -/
theorem ofOrdinal_spec {n : Nat} (h : 0 < n) :
    (Date.ofOrdinal n).IsDate ∧ (Date.ofOrdinal n).ordinal = n := by
  rw [Date.ofOrdinal]
  dsimp only
  generalize hn400 : (n - 1) / 146097 = n400
  generalize hr400 : (n - 1) % 146097 = r400
  generalize hn100 : r400 / 36524 = n100
  generalize hr100 : r400 % 36524 = r100
  generalize hn4 : r100 / 1461 = n4
  generalize hr4 : r100 % 1461 = r4
  generalize hn1 : r4 / 365 = n1
  generalize hr1 : r4 % 365 = r1
  split
  next hLast =>
    rw [Bool.or_eq_true, decide_eq_true_eq, decide_eq_true_eq] at hLast
    rw [Nat.add_sub_cancel]
    rcases hLast with rfl | rfl
    · refine ofLastDay (by omega) (isLeap_cycles n400 n100 n4 (by omega)) ?_
      rw [daysBeforeYear_cycles n400 n100 n4 3 (by omega) (by omega) (by decide)]
      omega
    · obtain ⟨rfl, rfl⟩ : n4 = 0 ∧ n1 = 0 := by omega
      refine ofLastDay (by omega) (isLeap_cycle n400) ?_
      have hBefore := daysBeforeYear_cycles n400 3 24 3 (by decide) (by decide) (by decide)
      rw [show n400 * 400 + 4 * 100 + 0 * 4 + 0 = n400 * 400 + 3 * 100 + 24 * 4 + 3 + 1 by omega,
        hBefore]
      omega
  next hInside =>
    rw [Bool.or_eq_true, decide_eq_true_eq, decide_eq_true_eq, not_or] at hInside
    have hBefore := daysBeforeYear_cycles n400 n100 n4 n1 (by omega) (by omega) (by omega)
    obtain ⟨years, hYears⟩ : ∃ years, years = n400 * 400 + n100 * 100 + n4 * 4 + n1 := ⟨_, rfl⟩
    rw [← hYears] at hBefore ⊢
    have hFound := monthAndDay_spec (years + 1) 11 r1 Nat.one_pos rfl
      (by rw [daysBeforeMonth]; omega)
    obtain ⟨hMonth, hMonths, hDay, hDays, hSum⟩ := hFound
    have hJanuary : daysBeforeMonth (years + 1) 1 = 0 := rfl
    refine ⟨⟨Nat.succ_pos _, hMonth, hMonths, hDay, hDays⟩, ?_⟩
    rw [Date.ordinal]
    dsimp only
    omega

end Triage.Time

namespace Triage.Instant

open Triage.Time

theorem isDate_date (t : Instant) : t.date.IsDate := (ofOrdinal_spec (Nat.succ_pos _)).1

theorem ordinal_date (t : Instant) : t.date.ordinal = (t.micros.fdiv dayMicros).toNat + 1 :=
  (ofOrdinal_spec (Nat.succ_pos _)).2

theorem year_le {t : Instant} (h : t.representable = true) : t.date.year ≤ maxYear := by
  have hDate := t.isDate_date
  have hOrdinal := t.ordinal_date
  rw [representable, Bool.and_eq_true, decide_eq_true_eq, decide_eq_true_eq] at h
  have hLimit : limit = 3652059 * dayMicros := by decide
  have hDay : dayMicros = 86400000000 := rfl
  rw [Int.fdiv_eq_ediv_of_nonneg _ (by decide), hDay] at hOrdinal
  rw [Date.ordinal, daysBeforeYear] at hOrdinal
  have hDayPos := hDate.day_pos
  rw [maxYear]
  omega

theorem timeOfDay_lt (t : Instant) : t.timeOfDay < 86400 * 1000000 := by
  rw [timeOfDay, Int.fmod_eq_emod_of_nonneg _ (by decide), dayMicros, second]
  omega

/-- An instant is its date and its time of day, up to the fraction of its second. -/
theorem wholeSeconds_eq {t : Instant} (h : 0 ≤ t.micros) :
    t.wholeSeconds = ofDate t.date (t.timeOfDay / 1000000 / 3600)
      (t.timeOfDay / 1000000 / 60 % 60) (t.timeOfDay / 1000000 % 60) 0 := by
  rw [wholeSeconds, ofDate, ordinal_date, timeOfDay, Int.fdiv_eq_ediv_of_nonneg _ (by decide),
    Int.fmod_eq_emod_of_nonneg _ (by decide), Int.fmod_eq_emod_of_nonneg _ (by decide), dayMicros,
    second, Instant.mk.injEq]
  omega

end Triage.Instant
