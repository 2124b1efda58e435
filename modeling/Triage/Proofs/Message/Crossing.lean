import Triage.Message.Normal
import Triage.Proofs.Pattern.Swaps
import Triage.Proofs.Text.Alphabets

/-!
# Rules that read blanks

All patterns of volatile text but seven stop at a space.  The other seven are the clock time of
twelve hours, the drive path, and the five keys with a value.  A clock time cannot get into a word
of hexadecimal digits and hyphens, because nothing but its `AM` or `PM` may come after the blanks.
A drive path and a key may run into a number, but then they go through all of it.  So each of them
leaves two texts that differ in such a word the same, or different in the word only.
-/

namespace Triage.Message

open Triage.Pattern
open Triage.Spot (Firm Twin)
open Triage.Text (isDigit isBlank isWord isAsciiLetter decimals hexadecimals)

variable {u v : List Char}

/-- The pattern takes texts that differ in one word to such texts, whatever it writes. -/
def Keeps (u v : List Char) (p : Pattern) : Prop :=
  ∀ ⦃replacement text text' : List Char⦄, Swap u v text text' →
    Swap u v (p.replaceAll replacement text) (p.replaceAll replacement text')

/-- A time of day in twelve hours. -/
def twelveHourClock : Pattern :=
  inOrder [.run isDigit 1 (some 2), char ':', digits 2, atLeast 0 isBlank,
    .orElse (text "AM") (text "PM")]

/-- A path that begins with a drive. -/
def drivePath : Pattern :=
  inOrder [one isAsciiLetter, char ':', char '\\',
    .many (inOrder [atLeast 1 inDriveSegment, char '\\']), atLeast 0 inDriveSegment]

/-- A word of hexadecimal digits and hyphens that is not a single character. -/
structure HexWord (word : List Char) : Prop where
  letters : ∀ c ∈ word, c ∈ '-' :: hexadecimals
  long : ∃ c d tail, word = c :: d :: tail

namespace HexWord

theorem notMem (h : HexWord u) {c : Char} (hc : c ∉ '-' :: hexadecimals) : c ∉ u :=
  fun hMem => hc (h.letters c hMem)

/-- No blank begins it. -/
theorem first (h : HexWord u) : ∃ c tail, u = c :: tail ∧ isBlank c = false := by
  have hAll : ∀ c ∈ '-' :: hexadecimals, !isBlank c := List.all_eq_true.mp (by decide)
  obtain ⟨c, d, tail, rfl⟩ := h.long
  exact ⟨c, d :: tail, rfl, by simpa using hAll c (h.letters c List.mem_cons_self)⟩

/-- It does not go on with `AM` or `PM`. -/
theorem no_half_day (h : HexWord u) (before : Option Char) (rest : List Char) :
    (Pattern.orElse (text "AM") (text "PM")).ends ⟨before, u ++ rest⟩ = [] := by
  obtain ⟨c, d, tail, rfl⟩ := h.long
  refine List.eq_nil_iff_forall_not_mem.mpr fun t ht => ?_
  obtain ⟨m, hReach, hReads⟩ := reads_of_mem_ends ht
  have hM : 'M' ∉ c :: d :: tail := h.notMem (by decide)
  have hRest : c :: d :: (tail ++ rest) = m ++ t.rest := hReach.rest
  have hSecond : d = 'M' := by
    rcases hReads with hReads | hReads
    · obtain rfl := hReads.of_text
      obtain ⟨-, hTail⟩ := List.cons.inj hRest
      exact (List.cons.inj hTail).1
    · obtain rfl := hReads.of_text
      obtain ⟨-, hTail⟩ := List.cons.inj hRest
      exact (List.cons.inj hTail).1
  simp [hSecond] at hM

end HexWord

theorem twelveHourClock_guides (hu : HexWord u) (hv : HexWord v) (rest : List Char) :
    twelveHourClock.Guides (Firm u v rest) (Firm u v rest) := by
  have hBlanks : (atLeast 0 isBlank).Carries (Firm u v rest) (Twin u v rest) :=
    (carries_run (twin_read hu.first hv.first) 0 none).mono .inl id
  have hHalf : (Pattern.orElse (text "AM") (text "PM")).Carries (Twin u v rest)
      (Firm u v rest) := by
    intro s t h
    rcases h with hFirm | ⟨rfl, rfl⟩
    · exact firm_of_bars (by decide) hFirm
    · rw [hu.no_half_day, hv.no_half_day]
      exact .nil
  exact ((firm_of_bars (by decide)).next ((firm_of_bars (by decide)).next
    ((firm_of_bars (by decide)).next (hBlanks.next (hHalf.next carries_empty))))).guides

/-- A text up to its first colon does not run past a space. -/
theorem colon_before_space {d m k rest : List Char} (hSpace : ' ' ∉ d) (hColon : ':' ∉ k) :
    d ++ ':' :: m ≠ k ++ ' ' :: rest := by
  intro h
  rcases List.append_eq_append_iff.mp h with ⟨a, rfl, hTail⟩ | ⟨a, rfl, hTail⟩
  · cases a with
    | nil => exact absurd (List.cons.inj hTail).1 (by decide)
    | cons x a =>
        obtain ⟨rfl, -⟩ := List.cons.inj hTail
        simp at hColon
  · cases a with
    | nil => exact absurd (List.cons.inj hTail).1 (by decide)
    | cons x a =>
        obtain ⟨rfl, -⟩ := List.cons.inj hTail
        simp at hSpace

theorem twelveHourClock_spares (hu : HexWord u) : twelveHourClock.Spares u := by
  intro k rest before hk hNonempty
  refine stop?_eq_none_iff.mpr fun t ht => ?_
  obtain ⟨m, hReach, d, after, rfl, hd, colon, after', rfl, hColon, -⟩ := reads_of_leads ht
  obtain ⟨c, rfl, hc⟩ := hColon.of_one
  obtain rfl : c = ':' := of_decide_eq_true hc
  have hSpace : ' ' ∉ d := fun hMem => absurd (hd.2.2 ' ' hMem) (by decide)
  rw [← List.cons_append, List.suffix_concat_iff] at hk
  rcases hk with rfl | ⟨k, rfl, hk⟩
  · exact hNonempty rfl
  · -- Up to the space behind the word there is no colon.
    have hWord : ':' ∉ k := by
      intro hMem
      rcases List.mem_cons.mp (hk.subset hMem) with hEq | hMem
      · exact absurd hEq (by decide)
      · exact hu.notMem (by decide) hMem
    have hRest : d ++ ':' :: (after' ++ t.rest) = k ++ ' ' :: rest := by
      simpa using hReach.rest.symm
    exact colon_before_space hSpace hWord hRest

/-- What a number is made of: ASCII digits, at least one. -/
structure Numeral (word : List Char) : Prop where
  digits : ∀ c ∈ word, c ∈ decimals
  nonempty : word ≠ []

namespace Numeral

theorem swallowed (h : Numeral u) {accepts : Char → Bool}
    (hAll : ∀ c ∈ decimals, accepts c = true) : u ≠ [] ∧ ∀ c ∈ u, accepts c = true :=
  ⟨h.nonempty, fun c hc => hAll c (h.digits c hc)⟩

theorem last (h : Numeral u) : u.getLast?.any isWord = true := by
  have hAll : ∀ c ∈ decimals, isWord c = true := List.all_eq_true.mp (by decide)
  rw [List.getLast?_eq_some_getLast h.nonempty]
  exact hAll _ (h.digits _ (List.getLast_mem h.nonempty))

theorem first (h : Numeral u) : ∃ c tail, u = c :: tail ∧ isBlank c = false := by
  have hAll : ∀ c ∈ decimals, !isBlank c := List.all_eq_true.mp (by decide)
  obtain ⟨c, tail, rfl⟩ := List.exists_cons_of_ne_nil h.nonempty
  exact ⟨c, tail, rfl, by simpa using hAll c (h.digits c List.mem_cons_self)⟩

end Numeral

/-- In the middle of a run of word characters there is no word edge. -/
theorem wordEdge_haltsWithin {value : Char → Bool} (hWord : ∀ c, value c = true → isWord c = true) :
    (inOrder [.wordEdge]).HaltsWithin value := by
  intro s hBefore hAfter
  have hEdge : s.atWordEdge = false := by
    rw [Spot.atWordEdge_eq, Spot.wordBefore]
    cases hb : s.before with
    | none => simp [hb] at hBefore
    | some b =>
        cases hc : s.rest.head? with
        | none => simp [hc] at hAfter
        | some c =>
            rw [hb] at hBefore
            rw [hc] at hAfter
            simp [hWord b hBefore, hWord c hAfter]
  simp [inOrder, ends, hEdge]

theorem keyed_keeps (hu : Numeral u) (hv : Numeral v) {key : String} {value : Char → Bool}
    (hKey : (text key).bars ' ' = true)
    (hFirst : key.toList.head?.any (fun c => !(' ' :: decimals).contains c) = true)
    (hDecimals : ∀ c ∈ decimals, value c = true)
    (hWord : ∀ c, value c = true → isWord c = true) : Keeps u v (keyed key value) := by
  have hGuides : ∀ rest, (keyed key value).Guides (Firm u v rest) (Firm u v rest) := by
    intro rest
    have hBlanks : (atLeast 0 isBlank).Carries (Firm u v rest) (Twin u v rest) :=
      (carries_run (twin_read hu.first hv.first) 0 none).mono .inl id
    have hValue : ((atLeast 1 value).next (inOrder [.wordEdge])).Carries (Twin u v rest)
        (Firm u v rest) :=
      twin_greedy (hu.swallowed hDecimals) (hv.swallowed hDecimals) (hu.last.trans hv.last.symm)
        (wordEdge_haltsWithin hWord) (firm_of_bars (by decide))
    exact ((firm_of_bars rfl).next ((firm_of_bars hKey).next ((firm_of_bars (by decide)).next
      (hBlanks.next hValue)))).guides
  have hStarts : (keyed key value).Starts fun c => !(' ' :: decimals).contains c :=
    (starts_text hFirst).next.edged
  have hSpares : ∀ {u : List Char}, Numeral u → (keyed key value).Spares u := by
    intro u hu
    refine spares_of_starts hStarts fun c hc => ?_
    rcases List.mem_cons.mp hc with rfl | hDigit
    · rfl
    · simp [hu.digits c hDigit]
  exact fun _ _ _ h => swap_of_guides hStarts.consumes hGuides (hSpares hu) (hSpares hv) h

theorem twelveHourClock_keeps (hu : HexWord u) (hv : HexWord v) : Keeps u v twelveHourClock := by
  have hStarts : twelveHourClock.Starts isDigit := (starts_run Nat.one_pos).next
  exact fun _ _ _ h => swap_of_guides hStarts.consumes (twelveHourClock_guides hu hv)
    (twelveHourClock_spares hu) (twelveHourClock_spares hv) h

theorem drivePath_guides (hu : Numeral u) (hv : Numeral v) (rest : List Char) :
    drivePath.Guides (Firm u v rest) (Firm u v rest) := by
  have hDecimals : ∀ c ∈ decimals, inDriveSegment c = true := List.all_eq_true.mp (by decide)
  have hLast := hu.last.trans hv.last.symm
  have hSegment : (inOrder [atLeast 1 inDriveSegment, char '\\']).Carries (Twin u v rest)
      (Firm u v rest) :=
    twin_greedy (hu.swallowed hDecimals) (hv.swallowed hDecimals) hLast
      (char_haltsWithin (by decide)) (firm_of_bars (by decide))
  have hSegments : (Pattern.many (inOrder [atLeast 1 inDriveSegment, char '\\'])).Carries
      (Firm u v rest) (Firm u v rest) := by
    have hConsumes : (inOrder [atLeast 1 inDriveSegment, char '\\']).Consumes :=
      (starts_run Nat.one_pos).next.consumes
    refine (hSegment.mono .inl id).many fun _ p hp q hq _ => ?_
    exact iff_of_true (hConsumes.shorter (mem_ends.mp hp)) (hConsumes.shorter (mem_ends.mp hq))
  have hRest : (inOrder [atLeast 0 inDriveSegment]).Guides (Firm u v rest) (Firm u v rest) :=
    fun _ _ h => twin_guides (hu.swallowed hDecimals) (hv.swallowed hDecimals) hLast (.inl h)
  exact .next (firm_of_bars (by decide)) (.next (firm_of_bars (by decide))
    (.next (firm_of_bars (by decide)) (.next hSegments hRest)))

theorem drivePath_keeps (hu : Numeral u) (hv : Numeral v) : Keeps u v drivePath := by
  have hStarts : drivePath.Starts isAsciiLetter := (starts_run Nat.one_pos).next
  have hSpares : ∀ {u : List Char}, Numeral u → drivePath.Spares u := by
    intro u hu
    have hAll : ∀ c ∈ decimals, !isAsciiLetter c := List.all_eq_true.mp (by decide)
    refine spares_of_starts hStarts fun c hc => ?_
    rcases List.mem_cons.mp hc with rfl | hDigit
    · rfl
    · simpa using hAll c (hu.digits c hDigit)
  exact fun _ _ _ h =>
    swap_of_guides hStarts.consumes (drivePath_guides hu hv) (hSpares hu) (hSpares hv) h

end Triage.Message
