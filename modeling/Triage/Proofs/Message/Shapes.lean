import Triage.Proofs.Message.Crossing

/-!
# Shapes of volatile words

UUIDs, timestamps and long numbers as they are written, and what the patterns make of them: the
pattern of a shape reads such a word as a whole, and the patterns that are applied before it do not
occur in the word.  All groups of a UUID are word characters, so a number of ten digits would have
to be a group of it; and no group of it has two characters, so it holds no date.
-/

namespace Triage.Message

open Triage.Pattern
open Triage.Text (isDigit isBlank isWord isHexDigit isAsciiDigit decimals hexadecimals)

/-- Groups of so many characters of a class, with a separator between them. -/
def Grouped (accepts : Char → Bool) (separator : Char) (lengths : List Nat) (text : List Char) :
    Prop :=
  ∃ groups : List (List Char), groups.map List.length = lengths ∧
    (∀ group ∈ groups, ∀ c ∈ group, accepts c = true) ∧ text = [separator].intercalate groups

theorem grouped_of_all {accepts : Char → Bool} {separator : Char} (groups : List (List Char))
    (hAll : groups.all (·.all accepts) = true) :
    Grouped accepts separator (groups.map List.length) ([separator].intercalate groups) := by
  simp only [List.all_eq_true] at hAll
  exact ⟨groups, rfl, hAll, rfl⟩

/-- Hexadecimal digits in groups of 8, 4, 4, 4 and 12, with hyphens between them. -/
def IsUuid (text : List Char) : Prop := Grouped isHexDigit '-' [8, 4, 4, 4, 12] text

/-- A fraction of a second, or nothing. -/
def IsFraction (text : List Char) : Prop :=
  text = [] ∨ ∃ places, places ≠ [] ∧ (∀ c ∈ places, isAsciiDigit c = true) ∧ text = '.' :: places

/-- `Z`, or a sign with hours and minutes. -/
def IsZone (text : List Char) : Prop :=
  text = ['Z'] ∨ ∃ sign offset, (sign = '+' ∨ sign = '-') ∧ Grouped isAsciiDigit ':' [2, 2] offset ∧
    text = sign :: offset

/-- A date, `T`, a time of day, maybe a fraction, and a zone. -/
def IsTimestamp (text : List Char) : Prop :=
  ∃ date time part zone, Grouped isAsciiDigit '-' [4, 2, 2] date ∧
    Grouped isAsciiDigit ':' [2, 2, 2] time ∧ IsFraction part ∧ IsZone zone ∧
    text = date ++ 'T' :: (time ++ (part ++ zone))

/-- Six ASCII digits or more. -/
def IsLongNumber (text : List Char) : Prop :=
  6 ≤ text.length ∧ ∀ c ∈ text, isAsciiDigit c = true

theorem isDigit_of_isAsciiDigit {c : Char} (h : isAsciiDigit c = true) : isDigit c = true := by
  have hAll : ∀ c ∈ decimals, isDigit c = true := List.all_eq_true.mp (by decide)
  exact hAll c (Text.mem_decimals h)

/-- A pattern of groups reads what is grouped so. -/
theorem reads_of_grouped {accepts wider : Char → Bool} {separator : Char} {lengths : List Nat}
    {text : List Char} (hWider : ∀ c, accepts c = true → wider c = true)
    (h : Grouped accepts separator lengths text) :
    (inOrder ((lengths.map fun n => exactly n wider).intersperse (char separator))).Reads text := by
  obtain ⟨groups, rfl, hAll, rfl⟩ := h
  have hExactly : ∀ {group : List Char}, (∀ c ∈ group, accepts c = true) →
      (exactly group.length wider).Reads group := by
    intro group hGroup
    exact reads_exactly fun c hc => hWider c (hGroup c hc)
  induction groups with
  | nil => rfl
  | cons group groups ih =>
      rw [List.forall_mem_cons] at hAll
      cases groups with
      | nil => exact ⟨group, [], by simp, hExactly hAll.1, rfl⟩
      | cons next groups =>
          exact ⟨group, _, by simp, hExactly hAll.1, [separator], _, rfl, reads_char separator,
            ih hAll.2⟩

/-! ### Timestamps -/

/-- A timestamp of RFC 3339. -/
def timestamp : Pattern :=
  inOrder [calendarDate, char 'T', clockTime, optional fraction, .orElse (char 'Z') zoneOffset]

theorem timestamp_reads {word : List Char} (h : IsTimestamp word) : timestamp.Reads word := by
  obtain ⟨date, time, part, zone, hDate, hTime, hPart, hZone, rfl⟩ := h
  have hFraction : (optional fraction).Reads part := by
    rcases hPart with rfl | ⟨places, hSome, hPlaces, rfl⟩
    · exact .inr rfl
    · refine .inl ⟨['.'], places, rfl, reads_char '.', places, [], by simp, ⟨?_, by simp, ?_⟩, rfl⟩
      · exact List.length_pos_iff.mpr hSome
      · exact fun c hc => isDigit_of_isAsciiDigit (hPlaces c hc)
  have hOffset : (Pattern.orElse (char 'Z') zoneOffset).Reads zone := by
    rcases hZone with rfl | ⟨sign, offset, hSign, hOffset, rfl⟩
    · exact .inl (reads_char 'Z')
    · have hOne : (one fun c => c = '+' || c = '-').Reads [sign] :=
        reads_one (by simpa using hSign)
      exact .inr ⟨[sign], offset, rfl, hOne,
        reads_of_grouped (fun c => isDigit_of_isAsciiDigit) hOffset⟩
  have hDigits := reads_of_grouped (fun c => isDigit_of_isAsciiDigit) hDate
  have hClock := reads_of_grouped (fun c => isDigit_of_isAsciiDigit) hTime
  exact ⟨date, _, rfl, hDigits, ['T'], _, rfl, reads_char 'T', time, _, rfl, hClock, part, zone,
    rfl, hFraction, zone, [], by simp, hOffset, rfl⟩

/-- The zone of a timestamp. -/
def zone : Pattern := .orElse (char 'Z') zoneOffset

theorem zoneOffset_starts : zoneOffset.Starts fun c => c = '+' || c = '-' :=
  (starts_run Nat.one_pos).next

theorem zone_starts : zone.Starts fun c => c = 'Z' || c = '+' || c = '-' := by
  refine ((starts_char 'Z').mono fun c hc => ?_).orElse (zoneOffset_starts.mono fun c hc => ?_)
  · simp [hc]
  · simpa [or_assoc] using Or.inr (by simpa using hc)

theorem prefixFree_digits (n : Nat) : (digits n).PrefixFree := prefixFree_exactly n isDigit

/-- The first character of a zone tells how long it is. -/
theorem zone_prefixFree : zone.PrefixFree := by
  have hOffset : zoneOffset.PrefixFree := by
    refine prefixFree_inOrder ?_
    simp only [List.forall_mem_cons]
    exact ⟨prefixFree_exactly 1 _, prefixFree_digits 2, prefixFree_char ':', prefixFree_digits 2,
      List.forall_mem_nil _⟩
  refine (prefixFree_char 'Z').orElse hOffset (starts_char 'Z')
    (zoneOffset_starts.mono fun c hc => ?_)
  simp only [Bool.or_eq_true, decide_eq_true_eq] at hc
  rcases hc with rfl | rfl <;> rfl

/-- Either there is a fraction, and the zone comes where its digits end, or there is only a zone. -/
theorem fraction_zone_prefixFree : (inOrder [optional fraction, zone]).PrefixFree := by
  have hNoDigit : zone.Starts fun c => !isDigit c := by
    refine zone_starts.mono fun c hc => ?_
    simp only [Bool.or_eq_true, decide_eq_true_eq] at hc
    rcases hc with (rfl | rfl) | rfl <;> rfl
  have hNoPoint : zone.Starts fun c => !decide (c = '.') := by
    refine zone_starts.mono fun c hc => ?_
    simp only [Bool.or_eq_true, decide_eq_true_eq] at hc
    rcases hc with (rfl | rfl) | rfl <;> rfl
  have hChoice : (Pattern.orElse ((char '.').next (someDigits.next zone)) zone).PrefixFree :=
    ((prefixFree_char '.').next (zone_prefixFree.afterRun hNoDigit 1)).orElse zone_prefixFree
      (starts_char '.').next hNoPoint
  refine hChoice.of_reads ?_
  rintro _ ⟨part, _, rfl, hPart, zone, _, rfl, hReads, rfl⟩
  rw [List.append_nil]
  rcases hPart with ⟨point, _, rfl, hPoint, places, _, rfl, hPlaces, rfl⟩ | rfl
  · exact .inl ⟨point, places ++ zone, by simp, hPoint, places, zone, rfl, hPlaces, hReads⟩
  · exact .inr hReads

/-- No timestamp goes on to another one. -/
theorem timestamp_prefixFree : timestamp.PrefixFree := by
  have hDate : calendarDate.PrefixFree := by
    refine prefixFree_inOrder ?_
    simp only [List.forall_mem_cons]
    exact ⟨prefixFree_digits 4, prefixFree_char '-', prefixFree_digits 2, prefixFree_char '-',
      prefixFree_digits 2, List.forall_mem_nil _⟩
  have hTime : clockTime.PrefixFree := by
    refine prefixFree_inOrder ?_
    simp only [List.forall_mem_cons]
    exact ⟨prefixFree_digits 2, prefixFree_char ':', prefixFree_digits 2, prefixFree_char ':',
      prefixFree_digits 2, List.forall_mem_nil _⟩
  exact hDate.next ((prefixFree_char 'T').next (hTime.next fraction_zone_prefixFree))

theorem timestamp_replaced {word : List Char} (h : IsTimestamp word) (replacement : List Char) :
    timestamp.replaceAll replacement word = replacement := by
  have hReads := timestamp_reads h
  have hConsumes : timestamp.Consumes :=
    consumes_of_canRead (show timestamp.canRead [] = false by decide)
  have hReach : Spot.Reaches ⟨none, word⟩ word ⟨word.getLast?, []⟩ := ⟨by simp, by simp⟩
  exact timestamp_prefixFree.replaceAll_leads hConsumes (leads_of_reads (by decide) hReads hReach)

/-! ### UUIDs -/

/-- The pattern of a number of ten digits. -/
def unixSeconds : Pattern := edged [digits 10]

theorem unixSeconds_consumes : unixSeconds.Consumes :=
  consumes_of_canRead (show unixSeconds.canRead [] = false by decide)

/-- A date, with the year at one of its ends. -/
def hyphenatedDate (first last : Nat) : Pattern :=
  inOrder [digits first, char '-', digits 2, char '-', digits last]

namespace IsUuid

variable {word : List Char}

theorem letters (h : IsUuid word) : ∀ c ∈ word, c ∈ '-' :: hexadecimals := by
  obtain ⟨groups, -, hAll, rfl⟩ := h
  induction groups with
  | nil => simp
  | cons group groups ih =>
      rw [List.forall_mem_cons] at hAll
      have hGroup : ∀ c ∈ group, c ∈ '-' :: hexadecimals := fun c hc =>
        List.mem_cons_of_mem _ (Text.mem_hexadecimals (hAll.1 c hc))
      cases groups with
      | nil => simpa using hGroup
      | cons next groups =>
          rw [List.intercalate_cons_cons]
          simp only [List.forall_mem_append, List.forall_mem_singleton]
          exact ⟨⟨hGroup, List.mem_cons_self⟩, ih hAll.2⟩

/-- A UUID begins with two hexadecimal digits and ends with one. -/
theorem ends_in_digits (h : IsUuid word) :
    (∃ c d tail, word = c :: d :: tail ∧ isHexDigit c = true) ∧
    ∃ front e, word = front ++ [e] ∧ isHexDigit e = true := by
  obtain ⟨groups, hLengths, hAll, rfl⟩ := h
  simp only [List.map_eq_cons_iff, List.map_eq_nil_iff] at hLengths
  obtain ⟨a, _, rfl, ha, b, _, rfl, -, c, _, rfl, -, d, _, rfl, -, e, _, rfl, he, rfl⟩ := hLengths
  constructor
  · match a, ha with
    | x :: y :: a, _ =>
        have hx : isHexDigit x = true := hAll (x :: y :: a) (by simp) x (by simp)
        exact ⟨x, y, a ++ '-' :: (b ++ '-' :: (c ++ '-' :: (d ++ '-' :: e))), by simp, hx⟩
  · have hNonempty : e ≠ [] := List.ne_nil_of_length_pos (by omega)
    have hLast := hAll e (by simp) _ (List.getLast_mem hNonempty)
    refine ⟨['-'].intercalate [a, b, c, d] ++ '-' :: e.dropLast, e.getLast hNonempty, ?_, hLast⟩
    simp [List.dropLast_append_getLast hNonempty]

theorem hexWord (h : IsUuid word) : HexWord word := by
  obtain ⟨⟨c, d, tail, hWord, -⟩, -⟩ := h.ends_in_digits
  exact ⟨h.letters, c, d, tail, hWord⟩

theorem length_group {groups : List (List Char)} {group : List Char}
    (h : groups.map List.length = [8, 4, 4, 4, 12]) (hMem : group ∈ groups) :
    group.length = 8 ∨ group.length = 4 ∨ group.length = 12 := by
  have hLength : group.length ∈ groups.map List.length := List.mem_map_of_mem hMem
  rw [h] at hLength
  simp only [List.mem_cons, List.not_mem_nil, or_false] at hLength
  omega

/-- A number of ten digits would be a group of the UUID. -/
theorem unixSeconds_unchanged (h : IsUuid word) (replacement : List Char) :
    unixSeconds.replaceAll replacement word = word := by
  obtain ⟨groups, hLengths, hAll, rfl⟩ := h
  have hEach : groups.map (unixSeconds.replaceAll replacement) = groups := by
    refine (List.map_congr_left fun group hGroup => ?_).trans (List.map_id groups)
    refine replaceAll_eq_self (edgedRun_not_occursIn (by decide) ?_ ?_)
    · exact fun c hc => Text.isWord_of_isHexDigit (hAll group hGroup c hc)
    · rintro ⟨hLeast, hMost, -⟩
      have hLong := hMost 10 rfl
      have hLength := length_group hLengths hGroup
      omega
  rw [unixSeconds_consumes.replaceAll_intercalate (by decide) (by decide), hEach]

/-- Two digits between hyphens would be a group of the UUID. -/
theorem no_date (h : IsUuid word) (first last : Nat) :
    ¬(hyphenatedDate first last).OccursIn word := by
  rintro ⟨front, rest, t, hWord, ht⟩
  obtain ⟨m, hReach, hReads⟩ := reads_of_leads ht
  obtain ⟨year, _, rfl, -, hyphen, _, rfl, hHyphen, month, _, rfl, hMonth, hyphen', later, rfl,
    hHyphen', -⟩ := hReads
  obtain ⟨c, rfl, hc⟩ := hHyphen.of_one
  obtain ⟨c', rfl, hc'⟩ := hHyphen'.of_one
  obtain rfl : c = '-' := of_decide_eq_true hc
  obtain rfl : c' = '-' := of_decide_eq_true hc'
  obtain ⟨groups, hLengths, hAll, rfl⟩ := h
  have hNoHyphen : '-' ∉ month := fun hMem => absurd (hMonth.2.2 '-' hMem) (by decide)
  have hGroups : ∀ group ∈ groups, '-' ∉ group := fun group hGroup hMem =>
    absurd (hAll group hGroup '-' hMem) (by decide)
  have hNonempty : groups ≠ [] := by
    rintro rfl
    cases hLengths
  have hSplit := List.splitOn_intercalate '-' hGroups hNonempty
  have hMem : month ∈ groups := by
    have hText : ['-'].intercalate groups =
        (front ++ year) ++ '-' :: (month ++ '-' :: (later ++ t.rest)) := by
      rw [hWord, show rest = _ from hReach.rest]
      simp
    rw [← hSplit, hText, List.splitOn_append_cons_self,
      List.splitOn_append_cons_self_of_not_mem hNoHyphen]
    simp
  have hLong := hMonth.2.1 2 rfl
  have hLength := length_group hLengths hMem
  omega

/-- The pattern of UUIDs replaces a UUID as a whole. -/
theorem replaced (h : IsUuid word) (replacement : List Char) :
    uuidPattern.replaceAll replacement word = replacement := by
  have hHex : ∀ n, (exactly n isHexDigit).PrefixFree := fun n => prefixFree_exactly n isHexDigit
  have hHyphen := prefixFree_char '-'
  have hPrefixFree : uuidPattern.PrefixFree := by
    refine prefixFree_inOrder ?_
    simp only [List.forall_mem_cons]
    exact ⟨prefixFree_wordEdge, hHex 8, hHyphen, hHex 4, hHyphen, hHex 4, hHyphen, hHex 4, hHyphen,
      hHex 12, prefixFree_wordEdge, List.forall_mem_nil _⟩
  have hConsumes : uuidPattern.Consumes :=
    consumes_of_canRead (show uuidPattern.canRead [] = false by decide)
  obtain ⟨⟨c, d, tail, hFront, hc⟩, front, e, hBack, he⟩ := h.ends_in_digits
  have hFirst : word.head?.any isWord = true := by simp [hFront, Text.isWord_of_isHexDigit hc]
  have hLast : word.getLast?.any isWord = true := by simp [hBack, Text.isWord_of_isHexDigit he]
  have hReads := reads_of_grouped (fun _ => id) h
  exact hPrefixFree.replaceAll_leads hConsumes (edged_leads (by decide) hReads hFirst hLast)

end IsUuid

/-! ### Long numbers -/

namespace IsLongNumber

variable {word : List Char}

theorem numeral (h : IsLongNumber word) : Numeral word where
  digits c hc := Text.mem_decimals (h.2 c hc)
  nonempty := List.ne_nil_of_length_pos (by have := h.1; omega)

theorem hexWord (h : IsLongNumber word) : HexWord word where
  letters c hc := by
    have hAll : decimals ⊆ '-' :: hexadecimals := by decide
    exact hAll (h.numeral.digits c hc)
  long := by
    match word, h.1 with
    | c :: d :: tail, _ => exact ⟨c, d, tail, rfl⟩

theorem words (h : IsLongNumber word) : ∀ c ∈ word, isWord c = true :=
  fun c hc => Text.isWord_of_isDigit (isDigit_of_isAsciiDigit (h.2 c hc))

theorem reads_run (h : IsLongNumber word) {least : Nat} {most : Option Nat}
    (hLeast : least ≤ word.length) (hMost : ∀ k ∈ most, word.length ≤ k) :
    (run isDigit least most).Reads word :=
  ⟨hLeast, hMost, fun c hc => isDigit_of_isAsciiDigit (h.2 c hc)⟩

/-- Ten digits are taken for seconds, more or fewer are not. -/
theorem unixSeconds_unchanged (h : IsLongNumber word) (hLength : word.length ≠ 10)
    (replacement : List Char) : unixSeconds.replaceAll replacement word = word := by
  refine replaceAll_eq_self (edgedRun_not_occursIn (by decide) h.words ?_)
  rintro ⟨hLeast, hMost, -⟩
  have hLong := hMost 10 rfl
  omega

theorem unixSeconds_replaced (h : IsLongNumber word) (hLength : word.length = 10)
    (replacement : List Char) : unixSeconds.replaceAll replacement word = replacement := by
  refine edgedRun_replaceAll (by decide) h.words (h.reads_run (by omega) fun k hk => ?_)
  obtain rfl : 10 = k := by simpa using hk
  omega

theorem replaced (h : IsLongNumber word) (replacement : List Char) :
    (edged [atLeast 6 isDigit]).replaceAll replacement word = replacement :=
  edgedRun_replaceAll (by decide) h.words (h.reads_run h.1 (by simp))

end IsLongNumber

end Triage.Message
