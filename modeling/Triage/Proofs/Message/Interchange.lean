import Triage.Proofs.Message.Settling
import Triage.Proofs.Message.Shapes

/-!
# Volatile words do not matter

A UUID, a timestamp or a long number between spaces can be exchanged for another one without a
change to the normal form of the message, whatever stands around it
(`uuids_and_timestamps_interchangeable`, `long_numbers_interchangeable`).  The rules before the one
that replaces the word keep the two texts the same but for the word, and that rule makes them equal.

A number of ten digits is taken for seconds since the epoch, and so it gets the placeholder of
timestamps.  It cannot be exchanged for a number of another length
(`unix_seconds_stand_apart`).
-/

namespace Triage.Message

open Triage.Pattern
open Triage.Text (isDigit isAsciiAlnum isWord decimals hexadecimals)

variable {u v : List Char}

/-- The pattern makes texts that differ in one word equal. -/
def Levels (u v : List Char) (p : Pattern) : Prop :=
  ∀ ⦃replacement text text' : List Char⦄, Swap u v text text' →
    p.replaceAll replacement text = p.replaceAll replacement text'

/-- A pattern that stops at spaces and leaves both words alone. -/
theorem keeps_of_unchanged {p : Pattern} (hp : p.Consumes) (hBars : p.bars ' ' = true)
    (hu : ∀ replacement, p.replaceAll replacement u = u)
    (hv : ∀ replacement, p.replaceAll replacement v = v) : Keeps u v p :=
  fun replacement _ _ h => swap_of_bars hp hBars (hu replacement) (hv replacement) h

/-- A pattern that stops at spaces and can read nothing of the words. -/
theorem keeps_of_canRead {p : Pattern} {alphabet : List Char} (hBars : p.bars ' ' = true)
    (hCan : p.canRead alphabet = false) (hu : ∀ c ∈ u, c ∈ alphabet)
    (hv : ∀ c ∈ v, c ∈ alphabet) : Keeps u v p := by
  exact keeps_of_unchanged (consumes_of_canRead hCan) hBars
    (fun _ => replaceAll_eq_self (not_occursIn_of_canRead hCan hu))
    (fun _ => replaceAll_eq_self (not_occursIn_of_canRead hCan hv))

/-- A pattern that stops at spaces and replaces both words as a whole. -/
theorem levels_of_replaced {p : Pattern} (hp : p.Consumes) (hBars : p.bars ' ' = true)
    (hu : ∀ replacement, p.replaceAll replacement u = replacement)
    (hv : ∀ replacement, p.replaceAll replacement v = replacement) : Levels u v p :=
  fun replacement _ _ h =>
    replaceAll_eq_of_bars hp hBars ((hu replacement).trans (hv replacement).symm) h

theorem foldl_keeps {some : List Rule} (h : ∀ rule ∈ some, Keeps u v rule.pattern)
    {text text' : List Char} (hText : Swap u v text text') :
    Swap u v
      (some.foldl (fun text r => r.pattern.replaceAll r.placeholder.toList text) text)
      (some.foldl (fun text r => r.pattern.replaceAll r.placeholder.toList text) text') := by
  induction some generalizing text text' with
  | nil => exact hText
  | cons rule rest ih =>
      rw [List.forall_mem_cons] at h
      exact ih h.2 (h.1 hText)

/-- If the rules before one keep two texts the same but for a word, and this rule makes them equal,
then a round ends with the same text. -/
theorem normalizeRound_eq {before after : List Rule} {rule : Rule}
    (hRules : rules = before ++ rule :: after) (hKeep : ∀ r ∈ before, Keeps u v r.pattern)
    (hLevel : Levels u v rule.pattern) {text text' : List Char} (h : Swap u v text text') :
    normalizeRound text = normalizeRound text' := by
  unfold normalizeRound
  simp only [hRules, List.foldl_append, List.foldl_cons]
  rw [hLevel (foldl_keeps hKeep h)]

/-- From the first round on there is no difference. -/
theorem normalize_interchange {before after : List Rule} {rule : Rule}
    (hRules : rules = before ++ rule :: after) {word word' : String}
    (hKeep : ∀ r ∈ before, Keeps word.toList word'.toList r.pattern)
    (hLevel : Levels word.toList word'.toList rule.pattern) (front rest : String) :
    normalize (front ++ " " ++ word ++ " " ++ rest) =
      normalize (front ++ " " ++ word' ++ " " ++ rest) := by
  have hText : ∀ w : String, (front ++ " " ++ w ++ " " ++ rest).toList =
      front.toList ++ ' ' :: (w.toList ++ ' ' :: rest.toList) := by
    intro w
    simp [String.toList_append]
  have hRound := normalizeRound_eq hRules hKeep hLevel (.word front.toList rest.toList)
  rw [normalize_eq, normalize_eq, hText, hText, maxRounds, Function.iterate_succ_apply, hRound,
    ← Function.iterate_succ_apply]

/-- The rules for timestamps do not touch a UUID. -/
theorem timestampPatterns_keep_uuids (hu : IsUuid u) (hv : IsUuid v) :
    ∀ p ∈ timestampPatterns, Keeps u v p := by
  have hAbsent : ∀ {p : Pattern}, p.bars ' ' = true → p.canRead ('-' :: hexadecimals) = false →
      Keeps u v p := fun hBars hCan => keeps_of_canRead hBars hCan hu.letters hv.letters
  have hDate : ∀ n m, (hyphenatedDate n m).bars ' ' = true →
      (hyphenatedDate n m).canRead [] = false →
      Keeps u v (hyphenatedDate n m) := fun n m hBars hCan =>
    keeps_of_unchanged (consumes_of_canRead hCan) hBars
      (fun _ => replaceAll_eq_self (hu.no_date n m)) (fun _ => replaceAll_eq_self (hv.no_date n m))
  simp only [timestampPatterns, List.forall_mem_cons]
  exact ⟨hAbsent (by decide) (by decide), hAbsent (by decide) (by decide),
    keeps_of_unchanged unixSeconds_consumes (by decide) hu.unixSeconds_unchanged
      hv.unixSeconds_unchanged,
    hDate 4 2 (by decide) (by decide), hAbsent (by decide) (by decide),
    hDate 2 4 (by decide) (by decide),
    hAbsent (by decide) (by decide), twelveHourClock_keeps hu.hexWord hv.hexWord,
    List.forall_mem_nil _⟩

/-- A pattern that stops at spaces and never reads a decimal does not touch a number. -/
theorem keeps_numbers (hu : Numeral u) (hv : Numeral v) {p : Pattern} (hBars : p.bars ' ' = true)
    (hCan : p.canRead decimals = false) : Keeps u v p :=
  keeps_of_canRead hBars hCan hu.digits hv.digits

/-- The rules for timestamps do not touch a number, but the one for ten digits. -/
theorem timestampPatterns_keep_numbers (hu : IsLongNumber u) (hv : IsLongNumber v)
    (hu' : u.length ≠ 10) (hv' : v.length ≠ 10) : ∀ p ∈ timestampPatterns, Keeps u v p := by
  have hAbsent := @keeps_numbers u v hu.numeral hv.numeral
  simp only [timestampPatterns, List.forall_mem_cons]
  exact ⟨hAbsent (by decide) (by decide), hAbsent (by decide) (by decide),
    keeps_of_unchanged unixSeconds_consumes (by decide) (hu.unixSeconds_unchanged hu')
      (hv.unixSeconds_unchanged hv'),
    hAbsent (by decide) (by decide), hAbsent (by decide) (by decide),
    hAbsent (by decide) (by decide), hAbsent (by decide) (by decide),
    twelveHourClock_keeps hu.hexWord hv.hexWord, List.forall_mem_nil _⟩

/-- No rule from the paths to the keys touches a number. -/
theorem middle_rules_keep_numbers (hu : Numeral u) (hv : Numeral v) :
    (∀ p ∈ pathPatterns, Keeps u v p) ∧ (∀ p ∈ addressPatterns, Keeps u v p) ∧
      Keeps u v uuidPattern ∧ Keeps u v emailPattern ∧ Keeps u v versionPattern := by
  have hAbsent := @keeps_numbers u v hu hv
  simp only [pathPatterns, addressPatterns, List.forall_mem_cons]
  exact ⟨⟨hAbsent (by decide) (by decide), hAbsent (by decide) (by decide),
      drivePath_keeps hu hv, List.forall_mem_nil _⟩,
    ⟨hAbsent (by decide) (by decide), hAbsent (by decide) (by decide), List.forall_mem_nil _⟩,
    hAbsent (by decide) (by decide), hAbsent (by decide) (by decide),
    hAbsent (by decide) (by decide)⟩

theorem identifierPatterns_keep_numbers (hu : Numeral u) (hv : Numeral v) :
    ∀ entry ∈ identifierPatterns, Keeps u v entry.2 := by
  have hDigits : ∀ c ∈ decimals, isDigit c = true := List.all_eq_true.mp (by decide)
  have hAlnums : ∀ c ∈ decimals, isAsciiAlnum c = true := List.all_eq_true.mp (by decide)
  have hDigit : ∀ {key : String}, (text key).bars ' ' = true →
      key.toList.head?.any (fun c => !(' ' :: decimals).contains c) = true →
      Keeps u v (keyed key isDigit) := fun hKey hFirst =>
    keyed_keeps hu hv hKey hFirst hDigits fun _ => Text.isWord_of_isDigit
  have hAlnum : ∀ {key : String}, (text key).bars ' ' = true →
      key.toList.head?.any (fun c => !(' ' :: decimals).contains c) = true →
      Keeps u v (keyed key isAsciiAlnum) := fun hKey hFirst =>
    keyed_keeps hu hv hKey hFirst hAlnums fun _ => Text.isWord_of_isAsciiAlnum
  simp only [identifierPatterns, List.forall_mem_cons]
  exact ⟨hDigit (by decide) (by decide), hDigit (by decide) (by decide),
    hDigit (by decide) (by decide), hAlnum (by decide) (by decide), hAlnum (by decide) (by decide),
    List.forall_mem_nil _⟩

/-! ### The normal form -/

/-- A UUID can be exchanged for another one, and so can a timestamp. -/
theorem uuids_and_timestamps_interchangeable (front rest word word' : String)
    (h : (IsUuid word.toList ∧ IsUuid word'.toList) ∨
      (IsTimestamp word.toList ∧ IsTimestamp word'.toList)) :
    normalize (front ++ " " ++ word ++ " " ++ rest) =
      normalize (front ++ " " ++ word' ++ " " ++ rest) := by
  rcases h with ⟨hWord, hWord'⟩ | ⟨hWord, hWord'⟩
  · have hRules : rules = timestampPatterns.map (⟨·, "<timestamp>"⟩) ++ ⟨uuidPattern, "<uuid>"⟩ ::
        (pathPatterns.map (⟨·, "<path>"⟩) ++ addressPatterns.map (⟨·, "<ip>"⟩) ++
          [⟨emailPattern, "<email>"⟩, ⟨versionPattern, "<version>"⟩] ++
          identifierPatterns.map (fun entry => ⟨entry.2, entry.1 ++ "=<id>"⟩) ++
          numberPatterns.map (⟨·, "<number>"⟩)) := rfl
    refine normalize_interchange hRules ?_ ?_ front rest
    · exact List.forall_mem_map.mpr (timestampPatterns_keep_uuids hWord hWord')
    · exact levels_of_replaced (consumes_of_canRead (show uuidPattern.canRead [] = false by decide))
        (by decide) hWord.replaced hWord'.replaced
  · have hRules : rules = [] ++ ⟨timestamp, "<timestamp>"⟩ :: rules.tail := rfl
    refine normalize_interchange hRules (List.forall_mem_nil _) ?_ front rest
    exact levels_of_replaced (consumes_of_canRead (show timestamp.canRead [] = false by decide))
      (by decide) (timestamp_replaced hWord) (timestamp_replaced hWord')

theorem retries_and_restarts_agree :
    normalize ("job" ++ " " ++ "123e4567-e89b-12d3-a456-426614174000" ++ " " ++ "at 10:30 AM") =
        normalize ("job" ++ " " ++ "00000000-0000-0000-0000-0000000000FF" ++ " " ++ "at 10:30 AM") ∧
      normalize ("down since" ++ " " ++ "2024-01-15T10:30:00Z" ++ " " ++ "/srv") =
        normalize ("down since" ++ " " ++ "2023-12-31T23:59:59.5+02:00" ++ " " ++ "/srv") := by
  constructor
  · refine uuids_and_timestamps_interchangeable _ _ _ _ (.inl ⟨?_, ?_⟩)
    · exact grouped_of_all ["123e4567".toList, "e89b".toList, "12d3".toList, "a456".toList,
        "426614174000".toList] (by decide)
    · exact grouped_of_all ["00000000".toList, "0000".toList, "0000".toList, "0000".toList,
        "0000000000FF".toList] (by decide)
  · refine uuids_and_timestamps_interchangeable _ _ _ _ (.inr ⟨?_, ?_⟩)
    · exact ⟨"2024-01-15".toList, "10:30:00".toList, [], ['Z'],
        grouped_of_all ["2024".toList, "01".toList, "15".toList] (by decide),
        grouped_of_all ["10".toList, "30".toList, "00".toList] (by decide),
        .inl rfl, .inl rfl, by decide⟩
    · exact ⟨"2023-12-31".toList, "23:59:59".toList, ".5".toList, "+02:00".toList,
        grouped_of_all ["2023".toList, "12".toList, "31".toList] (by decide),
        grouped_of_all ["23".toList, "59".toList, "59".toList] (by decide),
        .inr ⟨['5'], by decide, List.all_eq_true.mp (by decide), rfl⟩,
        .inr ⟨'+', "02:00".toList, .inl rfl,
          grouped_of_all ["02".toList, "00".toList] (by decide), rfl⟩, by decide⟩

/-- A long number can be exchanged for another one, if both have ten digits or neither has. -/
theorem long_numbers_interchangeable (front rest word word' : String)
    (hWord : IsLongNumber word.toList) (hWord' : IsLongNumber word'.toList)
    (hTen : word.toList.length = 10 ↔ word'.toList.length = 10) :
    normalize (front ++ " " ++ word ++ " " ++ rest) =
      normalize (front ++ " " ++ word' ++ " " ++ rest) := by
  by_cases h : word.toList.length = 10
  · have hRules : rules = rules.take 2 ++ ⟨unixSeconds, "<timestamp>"⟩ :: rules.drop 3 := rfl
    have hAbsent := @keeps_numbers word.toList word'.toList hWord.numeral hWord'.numeral
    refine normalize_interchange hRules ?_ ?_ front rest
    · have hFirst : rules.take 2 = (timestampPatterns.take 2).map (⟨·, "<timestamp>"⟩) := rfl
      rw [hFirst, List.forall_mem_map]
      simp only [timestampPatterns, List.take_succ_cons, List.take_zero, List.forall_mem_cons]
      exact ⟨hAbsent (by decide) (by decide), hAbsent (by decide) (by decide),
        List.forall_mem_nil _⟩
    · exact levels_of_replaced unixSeconds_consumes (by decide) (hWord.unixSeconds_replaced h)
        (hWord'.unixSeconds_replaced (hTen.mp h))
  · have hRules : rules = (timestampPatterns.map (⟨·, "<timestamp>"⟩) ++
        [⟨uuidPattern, "<uuid>"⟩] ++ pathPatterns.map (⟨·, "<path>"⟩) ++
        addressPatterns.map (⟨·, "<ip>"⟩) ++
        [⟨emailPattern, "<email>"⟩, ⟨versionPattern, "<version>"⟩] ++
        identifierPatterns.map (fun entry => ⟨entry.2, entry.1 ++ "=<id>"⟩)) ++
        ⟨edged [atLeast 6 isDigit], "<number>"⟩ :: numberPatterns.tail.map (⟨·, "<number>"⟩) := rfl
    obtain ⟨hPaths, hAddresses, hUuid, hEmail, hVersion⟩ :=
      middle_rules_keep_numbers hWord.numeral hWord'.numeral
    have hTimes := timestampPatterns_keep_numbers hWord hWord' h (fun h' => h (hTen.mpr h'))
    have hKeys := identifierPatterns_keep_numbers hWord.numeral hWord'.numeral
    refine normalize_interchange hRules ?_ ?_ front rest
    · simp only [List.forall_mem_append, List.forall_mem_map, List.forall_mem_cons]
      exact ⟨⟨⟨⟨⟨hTimes, hUuid, List.forall_mem_nil _⟩, hPaths⟩, hAddresses⟩,
        hEmail, hVersion, List.forall_mem_nil _⟩, hKeys⟩
    · exact levels_of_replaced
        (consumes_of_canRead (show (edged [atLeast 6 isDigit]).canRead [] = false by decide))
        (by decide) hWord.replaced hWord'.replaced

theorem order_numbers_agree :
    normalize ("order" ++ " " ++ "9876543" ++ " " ++ "id= 7") =
      normalize ("order" ++ " " ++ "123456789012" ++ " " ++ "id= 7") :=
  long_numbers_interchangeable _ _ _ _ ⟨by decide, List.all_eq_true.mp (by decide)⟩
    ⟨by decide, List.all_eq_true.mp (by decide)⟩ (by decide)

/-- A number of ten digits becomes a timestamp, and so it cannot be exchanged for a shorter one. -/
theorem unix_seconds_stand_apart :
    IsLongNumber "9876543".toList ∧ IsLongNumber "9876543210".toList ∧
      normalize ("Query" ++ " " ++ "9876543" ++ " " ++ "failed") = "Query <number> failed" ∧
      normalize ("Query" ++ " " ++ "9876543210" ++ " " ++ "failed") = "Query <timestamp> failed" ∧
      normalize ("Query" ++ " " ++ "9876543" ++ " " ++ "failed") ≠
        normalize ("Query" ++ " " ++ "9876543210" ++ " " ++ "failed") := by
  have hNumber : normalize ("Query" ++ " " ++ "9876543" ++ " " ++ "failed") =
      "Query <number> failed" := by decide +kernel
  have hSeconds : normalize ("Query" ++ " " ++ "9876543210" ++ " " ++ "failed") =
      "Query <timestamp> failed" := by decide +kernel
  refine ⟨⟨by decide, List.all_eq_true.mp (by decide)⟩,
    ⟨by decide, List.all_eq_true.mp (by decide)⟩, hNumber, hSeconds, ?_⟩
  rw [hNumber, hSeconds]
  decide

end Triage.Message
