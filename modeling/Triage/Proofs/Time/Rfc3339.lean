import Mathlib.Data.List.Basic
import Mathlib.Data.List.Induction
import Triage.Proofs.Text.Numerals
import Triage.Proofs.Time.Calendar
import Triage.Time.Iso

/-!
# RFC 3339 texts read back

The RFC 3339 text of an instant tells its second and no more (`rfc3339_inj`).  The ISO reader gives
that second back, provided that the year has four digits: it takes the year from exactly four
characters, and the writer does not fill a shorter year up.
-/

namespace Triage.Time

open Triage.Text

/-- Digits are read as the number they stand for, and what follows them is left. -/
theorem takeNumber?_append (digits rest : List Char)
    (hDigits : ∀ c ∈ digits, isAsciiDigit c = true) :
    takeNumber? digits.length (digits ++ rest) = some (valueOf digits, rest) := by
  induction digits using List.reverseRecOn generalizing rest with
  | nil => rfl
  | append_singleton digits c ih =>
      have hFront := ih (c :: rest) fun d hd => hDigits d (List.mem_append_left _ hd)
      have hDigit : digitValue? c = some (c.toNat - 48) :=
        if_pos (hDigits c (List.mem_append_right _ List.mem_cons_self))
      rw [List.length_append, List.length_singleton, List.append_assoc, List.singleton_append,
        takeNumber?, hFront, Option.bind_eq_bind, Option.bind_some]
      dsimp only
      rw [hDigit, valueOf_append]
      simp [valueOf]

theorem takeNumber?_paddedDigits {n : Nat} (width : Nat) (rest : List Char) (hWidth : 0 < width)
    (hFits : n < 10 ^ width) :
    takeNumber? width (paddedDigits width n ++ rest) = some (n, rest) := by
  have hTaken := takeNumber?_append (paddedDigits width n) rest
    fun c hc => isAsciiDigit_of_mem_paddedDigits hc
  rwa [length_paddedDigits width hWidth hFits, valueOf_paddedDigits] at hTaken

/-- Only digits are read as a number. -/
theorem isAsciiDigit_of_takeNumber? {width : Nat} {text rest : List Char} {value : Nat}
    (h : takeNumber? width text = some (value, rest)) :
    ∃ digits, text = digits ++ rest ∧ digits.length = width ∧
      ∀ c ∈ digits, isAsciiDigit c = true := by
  induction width generalizing value rest with
  | zero =>
      rw [takeNumber?, Option.some.injEq, Prod.mk.injEq] at h
      exact ⟨[], h.2, rfl, fun c hc => absurd hc List.not_mem_nil⟩
  | succ width ih =>
      rw [takeNumber?, Option.bind_eq_bind, Option.bind_eq_some_iff] at h
      obtain ⟨⟨high, behind⟩, hHigh, h⟩ := h
      obtain ⟨digits, hText, hLength, hDigits⟩ := ih hHigh
      cases behind with
      | nil => simp at h
      | cons c behind =>
          by_cases hDigit : isAsciiDigit c = true
          · simp only [digitValue?, hDigit, if_true, Option.bind_eq_bind, Option.bind_some,
              Option.pure_def, Option.some.injEq, Prod.mk.injEq] at h
            refine ⟨digits ++ [c], by rw [hText, ← h.2, List.append_assoc]; rfl,
              by rw [List.length_append, hLength]; rfl, fun d hd => ?_⟩
            rcases List.mem_append.mp hd with hFront | hLast
            · exact hDigits d hFront
            · rwa [List.mem_singleton.mp hLast]
          · simp [digitValue?, hDigit] at h

theorem exists_pair {n : Nat} (h : n < 100) :
    ∃ a b, paddedDigits 2 n = [a, b] ∧ isAsciiDigit a = true ∧ isAsciiDigit b = true := by
  obtain ⟨a, b, hPair⟩ := List.length_eq_two.1 (length_paddedDigits 2 (by decide) h)
  have hDigits : ∀ c ∈ paddedDigits 2 n, isAsciiDigit c = true :=
    fun c hc => isAsciiDigit_of_mem_paddedDigits hc
  rw [hPair] at hDigits
  exact ⟨a, b, hPair, hDigits a (by simp), hDigits b (by simp)⟩

theorem Date.IsDate.fits {d : Date} (h : d.IsDate) : d.month < 100 ∧ d.day < 100 := by
  have hMonth := h.month_le
  have hDay := h.day_le
  have hMost : daysInMonth d.year d.month ≤ 31 := by
    unfold daysInMonth
    split <;> first | omega | (split <;> omega)
  omega

/-- The fields of a date name the date. -/
theorem Date.IsDate.resolve? {d : Date} (text : String) (hDate : d.IsDate)
    (hYear : d.year ≤ maxYear) :
    (DateFields.calendar d.year d.month d.day).resolve? text = .ok d := by
  obtain ⟨hYearPos, hMonthPos, hMonth, hDayPos, hDay⟩ := hDate
  have hYears : ¬(d.year = 0 ∨ maxYear < d.year) := by omega
  have hMonths : ¬(d.month = 0 ∨ 12 < d.month) := by omega
  have hDays : ¬(d.day = 0 ∨ daysInMonth d.year d.month < d.day) := by omega
  simp only [DateFields.resolve?, Bool.or_eq_true, decide_eq_true_eq, hYears, hMonths, hDays,
    if_false]
  rfl

/-- The shape of a written date is recognized. -/
theorem dateLength?_dateDigits {d : Date} (rest : List Char) (hDate : d.IsDate)
    (hYear : d.year ≤ maxYear) : dateLength? (Instant.dateDigits 4 d ++ rest) = some 10 := by
  obtain ⟨a, b, hMonth, hDigit, -⟩ := exists_pair hDate.fits.1
  obtain ⟨e, f, hDay, -, -⟩ := exists_pair hDate.fits.2
  obtain ⟨w, x, y, z, hYear⟩ := List.length_eq_four.mp
    (length_paddedDigits 4 (by decide) (Nat.lt_succ_of_le hYear))
  have hWeek : a ≠ 'W' := ne_of_isAsciiDigit hDigit (by decide)
  simp [Instant.dateDigits, hMonth, hDay, hYear, dateLength?, hWeek]

/-- A written date is read field by field. -/
theorem readDate?_dateDigits {d : Date} (rest : List Char) (hDate : d.IsDate)
    (hYear : d.year ≤ maxYear) :
    readDate? 10 (Instant.dateDigits 4 d ++ rest) = some (.calendar d.year d.month d.day) := by
  obtain ⟨a, b, hMonth, hDigit, -⟩ := exists_pair hDate.fits.1
  have hWeek : a ≠ 'W' := ne_of_isAsciiDigit hDigit (by decide)
  have hText : Instant.dateDigits 4 d ++ rest =
      paddedDigits 4 d.year ++ '-' :: a :: b :: '-' :: (paddedDigits 2 d.day ++ rest) := by
    simp [Instant.dateDigits, hMonth]
  have hReadYear := takeNumber?_paddedDigits 4
    ('-' :: a :: b :: '-' :: (paddedDigits 2 d.day ++ rest)) (by decide) (Nat.lt_succ_of_le hYear)
  have hReadMonth := takeNumber?_paddedDigits 2
    ('-' :: (paddedDigits 2 d.day ++ rest)) (by decide) hDate.fits.1
  have hReadDay := takeNumber?_paddedDigits 2 rest (by decide) hDate.fits.2
  rw [hMonth, List.cons_append, List.cons_append, List.nil_append] at hReadMonth
  rw [← hText] at hReadYear
  simp [readDate?, hReadYear, hReadMonth, hReadDay, hWeek]

/-- Hours, minutes and seconds with colons are read to the end. -/
theorem readClock?_digits (hour minute second : Nat) (hHour : hour < 100)
    (hMinute : minute < 100) (hSecond : second < 100) :
    readClock?
        (paddedDigits 2 hour ++ ':' :: (paddedDigits 2 minute ++ ':' :: paddedDigits 2 second)) =
      some (⟨hour, minute, second, 0⟩, false) := by
  obtain ⟨a, b, hMinutes, -, -⟩ := exists_pair hMinute
  obtain ⟨e, f, hSeconds, -, -⟩ := exists_pair hSecond
  have hReadHour := takeNumber?_paddedDigits 2 (':' :: a :: b :: ':' :: e :: f :: [])
    (by decide) hHour
  have hReadMinute := takeNumber?_paddedDigits 2 (':' :: e :: f :: []) (by decide) hMinute
  have hReadSecond := takeNumber?_paddedDigits 2 [] (by decide) hSecond
  rw [hMinutes] at hReadMinute ⊢
  rw [hSeconds] at hReadSecond ⊢
  simp only [List.cons_append, List.nil_append] at hReadMinute hReadSecond ⊢
  simp [readClock?, hReadHour, hReadMinute, hReadSecond, afterDigits?]

end Triage.Time

namespace Triage.Instant

open Triage.Text Triage.Time

theorem clockDigits_eq (t : Instant) : t.clockDigits =
    paddedDigits 2 (t.timeOfDay / 1000000 / 3600) ++ ':' ::
      (paddedDigits 2 (t.timeOfDay / 1000000 / 60 % 60) ++ ':' ::
        paddedDigits 2 (t.timeOfDay / 1000000 % 60)) := by
  simp [clockDigits]

theorem hours_lt (t : Instant) : t.timeOfDay / 1000000 / 3600 < 24 := by
  have := t.timeOfDay_lt
  omega

theorem mem_clockDigits {t : Instant} {c : Char} (h : c ∈ t.clockDigits) :
    isAsciiDigit c = true ∨ c = ':' := by
  rw [clockDigits_eq, List.mem_append, List.mem_cons, List.mem_append, List.mem_cons] at h
  rcases h with h | h | h | h | h
  · exact .inl (isAsciiDigit_of_mem_paddedDigits h)
  · exact .inr h
  · exact .inl (isAsciiDigit_of_mem_paddedDigits h)
  · exact .inr h
  · exact .inl (isAsciiDigit_of_mem_paddedDigits h)

/-- A written time of day is read back, as a time in UTC. -/
theorem readTimeAndZone?_clockDigits (t : Instant) :
    readTimeAndZone? (t.clockDigits ++ ['Z']) =
      some (⟨t.timeOfDay / 1000000 / 3600, t.timeOfDay / 1000000 / 60 % 60,
        t.timeOfDay / 1000000 % 60, 0⟩, some 0) := by
  have hHours := t.hours_lt
  have hRead := readClock?_digits (t.timeOfDay / 1000000 / 3600)
    (t.timeOfDay / 1000000 / 60 % 60) (t.timeOfDay / 1000000 % 60)
    (by omega) (by omega) (by omega)
  rw [← clockDigits_eq] at hRead
  have hClock : (t.clockDigits ++ ['Z']).takeWhile (fun c => c != '+' && c != '-' && c != 'Z') =
      t.clockDigits := by
    rw [List.takeWhile_append_of_pos fun c hc => ?_]
    · simp
    · rcases mem_clockDigits hc with hDigit | rfl
      · simp [ne_of_isAsciiDigit hDigit (d := '+') (by decide),
          ne_of_isAsciiDigit hDigit (d := '-') (by decide),
          ne_of_isAsciiDigit hDigit (d := 'Z') (by decide)]
      · decide
  simp [readTimeAndZone?, hClock, hRead]

theorem length_dateDigits {d : Date} (hDate : d.IsDate) (hYear : d.year ≤ maxYear) :
    (dateDigits 4 d).length = 10 := by
  have hYears := length_paddedDigits 4 (by decide) (Nat.lt_succ_of_le hYear)
  have hMonths := length_paddedDigits 2 (by decide) hDate.fits.1
  have hDays := length_paddedDigits 2 (by decide) hDate.fits.2
  simp [dateDigits, hYears, hMonths, hDays]

theorem toList_rfc3339 (t : Instant) :
    t.rfc3339.toList = dateDigits 1 t.date ++ 'T' :: (t.clockDigits ++ ['Z']) := by
  simp [rfc3339]

/-- Years of four digits are not filled up. -/
theorem dateDigits_of_le {d : Date} (hYear : 1000 ≤ d.year) : dateDigits 1 d = dateDigits 4 d := by
  rw [dateDigits, dateDigits, paddedDigits_of_le 3 hYear,
    paddedDigits_of_le 0 (Nat.le_trans (by decide) hYear)]

theorem micros_nonneg {t : Instant} (h : t.representable = true) : 0 ≤ t.micros := by
  rw [representable, Bool.and_eq_true, decide_eq_true_eq] at h
  exact h.1

theorem representable_wholeSeconds {t : Instant} (h : t.representable = true) :
    t.wholeSeconds.representable = true := by
  rw [representable, Bool.and_eq_true, decide_eq_true_eq, decide_eq_true_eq] at h ⊢
  have hSecond : second = 1000000 := rfl
  rw [wholeSeconds, Int.fmod_eq_emod_of_nonneg _ (by decide), hSecond]
  dsimp only
  omega

/-- From year 1000 on a written instant is read back to its second. -/
theorem readIso_rfc3339 {t : Instant} (hValid : t.representable = true)
    (hYear : 1000 ≤ t.date.year) : readIso t.rfc3339 = .ok t.wholeSeconds := by
  have hDate := t.isDate_date
  have hMost := year_le hValid
  have hStart := micros_nonneg hValid
  have hText : t.rfc3339.toList = dateDigits 4 t.date ++ 'T' :: (t.clockDigits ++ ['Z']) := by
    rw [toList_rfc3339, dateDigits_of_le hYear]
  have hShape := dateLength?_dateDigits ('T' :: (t.clockDigits ++ ['Z'])) hDate hMost
  have hFields := readDate?_dateDigits ('T' :: (t.clockDigits ++ ['Z'])) hDate hMost
  have hBehind : (dateDigits 4 t.date ++ 'T' :: (t.clockDigits ++ ['Z'])).drop 10 =
      'T' :: (t.clockDigits ++ ['Z']) := List.drop_left' (length_dateDigits hDate hMost)
  have hResolved := hDate.resolve? t.rfc3339 hMost
  have hHours : ¬23 < t.timeOfDay / 1000000 / 3600 := Nat.not_lt.mpr (Nat.le_of_lt_succ t.hours_lt)
  have hMinutes : ¬59 < t.timeOfDay / 1000000 / 60 % 60 := by omega
  have hSeconds : ¬59 < t.timeOfDay / 1000000 % 60 := by omega
  have hTold : LocalTime.toUtc ⟨t.date, ⟨t.timeOfDay / 1000000 / 3600,
      t.timeOfDay / 1000000 / 60 % 60, t.timeOfDay / 1000000 % 60, 0⟩, some 0⟩ =
      .ok t.wholeSeconds := by
    have hWhole := representable_wholeSeconds hValid
    have hShift : t.wholeSeconds.shift 0 = t.wholeSeconds := by simp [shift]
    rw [LocalTime.toUtc, ← wholeSeconds_eq hStart]
    simp [hShift, hWhole]
  rw [← hTold]
  simp [readIso, hText, hShape, hFields, hBehind, readTimeAndZone?_clockDigits, hResolved,
    dayMicros, second, hHours, hMinutes, hSeconds, bind, Except.bind, pure, Except.pure]

/-- Before year 1000 the reader finds no year of four digits in a written instant. -/
theorem readIso_rfc3339_early {t : Instant} (hYear : t.date.year < 1000) :
    readIso t.rfc3339 = .error (.malformed t.rfc3339) := by
  have hYearDigits : (paddedDigits 1 t.date.year).length ≤ 3 := by
    have hDigits := length_natDigits_le 3 (by decide) hYear
    rw [paddedDigits, List.length_append, List.length_replicate]
    omega
  have hUnread : takeNumber? 4 t.rfc3339.toList = none := by
    rw [Option.eq_none_iff_forall_ne_some]
    rintro ⟨value, rest⟩ hRead
    obtain ⟨digits, hText, hLength, hDigits⟩ := isAsciiDigit_of_takeNumber? hRead
    have hDash : '-' ∈ t.rfc3339.toList.take 4 := by
      rw [toList_rfc3339, dateDigits, List.append_assoc, List.append_assoc,
        List.take_append, List.mem_append]
      obtain ⟨more, hMore⟩ : ∃ more, 4 - (paddedDigits 1 t.date.year).length = more + 1 :=
        ⟨3 - (paddedDigits 1 t.date.year).length, by omega⟩
      rw [hMore]
      exact .inr List.mem_cons_self
    rw [hText, ← hLength, List.take_left] at hDash
    exact absurd (hDigits _ hDash) (by decide)
  have hDate : ∀ length, readDate? length t.rfc3339.toList = none := fun length => by
    rw [readDate?, hUnread]
    rfl
  cases hLength : dateLength? t.rfc3339.toList with
  | none => simp [readIso, hLength, bind, Except.bind, throw, throwThe, MonadExceptOf.throw]
  | some length =>
      simp [readIso, hLength, hDate, bind, Except.bind, throw, throwThe, MonadExceptOf.throw]

theorem notMem_dateDigits {c : Char} {d : Date} {width : Nat} (hDigit : isAsciiDigit c = false)
    (hDash : c ≠ '-') : c ∉ dateDigits width d := fun hMem => by
  rw [dateDigits, List.append_assoc] at hMem
  simp [notMem_paddedDigits hDigit, hDash] at hMem

theorem dateDigits_injective {d e : Date} {width : Nat}
    (h : dateDigits width d = dateDigits width e) : d = e := by
  have hDash := notMem_paddedDigits (c := '-') (by decide)
  rw [dateDigits, dateDigits, List.append_assoc, List.append_assoc] at h
  obtain ⟨hYear, h⟩ := eq_of_append_separator (hDash _ _) (hDash _ _) h
  obtain ⟨hMonth, hDay⟩ := eq_of_append_separator (hDash _ _) (hDash _ _) h
  obtain ⟨year, month, day⟩ := d
  obtain rfl := paddedDigits_injective hYear
  obtain rfl := paddedDigits_injective hMonth
  obtain rfl := paddedDigits_injective hDay
  rfl

theorem clockDigits_inj {t u : Instant} (h : t.clockDigits = u.clockDigits) :
    t.timeOfDay / 1000000 = u.timeOfDay / 1000000 := by
  have hColon := notMem_paddedDigits (c := ':') (by decide)
  rw [clockDigits_eq, clockDigits_eq] at h
  obtain ⟨hHour, h⟩ := eq_of_append_separator (hColon _ _) (hColon _ _) h
  obtain ⟨hMinute, hSecond⟩ := eq_of_append_separator (hColon _ _) (hColon _ _) h
  have := paddedDigits_injective hHour
  have := paddedDigits_injective hMinute
  have := paddedDigits_injective hSecond
  omega

/-- The text does not show the fraction of the second. -/
theorem rfc3339_wholeSeconds (t : Instant) : t.wholeSeconds.rfc3339 = t.rfc3339 := by
  have hDay : t.wholeSeconds.micros.fdiv dayMicros = t.micros.fdiv dayMicros := by
    rw [wholeSeconds, Int.fmod_eq_emod_of_nonneg _ (by decide),
      Int.fdiv_eq_ediv_of_nonneg _ (by decide), Int.fdiv_eq_ediv_of_nonneg _ (by decide), dayMicros,
      second]
    dsimp only
    omega
  have hSeconds : t.wholeSeconds.timeOfDay / 1000000 = t.timeOfDay / 1000000 := by
    rw [timeOfDay, timeOfDay, wholeSeconds, Int.fmod_eq_emod_of_nonneg _ (by decide),
      Int.fmod_eq_emod_of_nonneg _ (by decide), Int.fmod_eq_emod_of_nonneg _ (by decide), dayMicros,
      second]
    dsimp only
    omega
  rw [rfc3339, rfc3339, date, date, hDay, clockDigits, clockDigits, hSeconds]

/-- The text tells the second, and only the second. -/
theorem rfc3339_inj {t u : Instant} (ht : 0 ≤ t.micros) (hu : 0 ≤ u.micros) :
    t.rfc3339 = u.rfc3339 ↔ t.wholeSeconds = u.wholeSeconds := by
  constructor
  · intro h
    have hTexts := congrArg String.toList h
    rw [toList_rfc3339, toList_rfc3339] at hTexts
    have hMark : ∀ {d : Date}, 'T' ∉ dateDigits 1 d := notMem_dateDigits (by decide) (by decide)
    obtain ⟨hDates, hClocks⟩ := eq_of_append_separator hMark hMark hTexts
    have hDate := dateDigits_injective hDates
    have hClock := clockDigits_inj (List.append_cancel_right hClocks)
    rw [wholeSeconds_eq ht, wholeSeconds_eq hu, hDate, hClock]
  · intro h
    rw [← rfc3339_wholeSeconds t, h, rfc3339_wholeSeconds]

end Triage.Instant

namespace Triage.Time

theorem LocalTime.representable_of_toUtc {v : LocalTime} {t : Instant} (h : v.toUtc = .ok t) :
    t.representable = true := by
  rw [LocalTime.toUtc] at h
  split at h
  next hValid => exact Except.ok.inj h ▸ hValid
  next => cases h

/-- For any two local times that have an instant: the text of the first one is read back to the whole
second exactly from year 1000 on, and before it is refused; and the texts of both are equal exactly
when their instants fall in the same second. -/
theorem rfc3339_read_back_iff {v w : LocalTime} {t u : Instant} (hFirst : v.toUtc = .ok t)
    (hSecond : w.toUtc = .ok u) :
    (readIso t.rfc3339 = .ok t.wholeSeconds ↔ 1000 ≤ t.date.year) ∧
      (readIso t.rfc3339 = .error (.malformed t.rfc3339) ↔ t.date.year < 1000) ∧
      (t.rfc3339 = u.rfc3339 ↔ t.wholeSeconds = u.wholeSeconds) := by
  have hValid := LocalTime.representable_of_toUtc hFirst
  have hValid' := LocalTime.representable_of_toUtc hSecond
  refine ⟨⟨fun hRead => ?_, Instant.readIso_rfc3339 hValid⟩,
    ⟨fun hRead => ?_, Instant.readIso_rfc3339_early⟩,
    Instant.rfc3339_inj (Instant.micros_nonneg hValid) (Instant.micros_nonneg hValid')⟩
  · by_contra hEarly
    rw [Instant.readIso_rfc3339_early (Nat.lt_of_not_le hEarly)] at hRead
    cases hRead
  · by_contra hLate
    rw [Instant.readIso_rfc3339 hValid (Nat.le_of_not_lt hLate)] at hRead
    cases hRead

/-- Half past midnight an hour east is the evening before in UTC. -/
theorem half_past_midnight_read_back :
    let east : LocalTime := ⟨⟨2026, 1, 1⟩, ⟨0, 30, 0, 250000⟩, some 3600000000⟩
    let utc : LocalTime := ⟨⟨2025, 12, 31⟩, ⟨23, 30, 0, 0⟩, none⟩
    let t := Instant.ofDate ⟨2025, 12, 31⟩ 23 30 0 250000
    let u := Instant.ofDate ⟨2025, 12, 31⟩ 23 30 0 0
    (east.toUtc = .ok t ∧ utc.toUtc = .ok u) ∧
      (readIso t.rfc3339 = .ok t.wholeSeconds ↔ 1000 ≤ t.date.year) ∧
      (readIso t.rfc3339 = .error (.malformed t.rfc3339) ↔ t.date.year < 1000) ∧
      (t.rfc3339 = u.rfc3339 ↔ t.wholeSeconds = u.wholeSeconds) :=
  have hEast : LocalTime.toUtc ⟨⟨2026, 1, 1⟩, ⟨0, 30, 0, 250000⟩, some 3600000000⟩ =
      .ok (Instant.ofDate ⟨2025, 12, 31⟩ 23 30 0 250000) := by decide
  have hUtc : LocalTime.toUtc ⟨⟨2025, 12, 31⟩, ⟨23, 30, 0, 0⟩, none⟩ =
      .ok (Instant.ofDate ⟨2025, 12, 31⟩ 23 30 0 0) := by decide
  ⟨⟨hEast, hUtc⟩, rfc3339_read_back_iff hEast hUtc⟩

/-- The text of the first second of year 999 is refused. -/
theorem year_999_not_read_back :
    let t := Instant.ofDate ⟨999, 1, 1⟩ 0 0 0 0
    LocalTime.toUtc ⟨⟨999, 1, 1⟩, ⟨0, 0, 0, 0⟩, none⟩ = .ok t ∧
      t.rfc3339 = "999-01-01T00:00:00Z" ∧
      readIso t.rfc3339 = .error (.malformed "999-01-01T00:00:00Z") ∧
      ¬readIso t.rfc3339 = .ok t.wholeSeconds := by
  have hText : (Instant.ofDate ⟨999, 1, 1⟩ 0 0 0 0).rfc3339 = "999-01-01T00:00:00Z" := by
    decide +kernel
  have hRead : readIso "999-01-01T00:00:00Z" = .error (.malformed "999-01-01T00:00:00Z") := by
    decide +kernel
  refine ⟨by decide, hText, hText ▸ hRead, fun h => ?_⟩
  rw [hText, hRead] at h
  cases h

end Triage.Time
