import Mathlib.Data.List.TakeDrop
import Triage.Json.Reader
import Triage.Proofs.Json.Spelling

/-!
# JSON is read as it is spelled

The reader takes every piece of a JSON text for what it spells (`Spells.reads`): characters one by
one (`readChars?_char`), numbers in three parts (`readNumber?_eq`), and values by the grammar.  The
fuel of the reader is the length of the text, and no piece runs out of it.  So a text that spells a
value is read as this value (`SpellsText.parse?_eq`), and spells no other (`SpellsText.unique`).
-/

namespace Triage.Json

open Text (isAsciiDigit valueOf)

section Blanks

variable {blanks text rest : List Char} {c : Char}

theorem skipBlanks_append (h : Blanks blanks) (text : List Char) :
    skipBlanks (blanks ++ text) = skipBlanks text := by
  induction blanks with
  | nil => rfl
  | cons c blanks ih =>
      have hFirst : (decide (c = ' ') || decide (c = '\t') || decide (c = '\n') ||
          decide (c = '\r')) = true := by
        simpa [or_assoc] using h c List.mem_cons_self
      rw [List.cons_append, skipBlanks, if_pos hFirst]
      exact ih fun d hd => h d (List.mem_cons_of_mem _ hd)

theorem skipBlanks_opens (h : Opens c) (rest : List Char) : skipBlanks (c :: rest) = c :: rest := by
  have hBlank : (decide (c = ' ') || decide (c = '\t') || decide (c = '\n') ||
      decide (c = '\r')) = false := by
    simp [h.ne (d := ' ') (by decide) (by decide), h.ne (d := '\t') (by decide) (by decide),
      h.ne (d := '\n') (by decide) (by decide), h.ne (d := '\r') (by decide) (by decide)]
  rw [skipBlanks, hBlank]
  rfl

@[simp]
theorem skipBlanks_comma (rest : List Char) : skipBlanks (',' :: rest) = ',' :: rest := rfl

@[simp]
theorem skipBlanks_bracket (rest : List Char) : skipBlanks (']' :: rest) = ']' :: rest := rfl

@[simp]
theorem skipBlanks_brace (rest : List Char) : skipBlanks ('}' :: rest) = '}' :: rest := rfl

/-- After its blanks, a piece does not start with a closing bracket. -/
theorem Spells.first {p : Piece} {text : List Char} (h : Spells p text) (rest : List Char) {d : Char}
    (hd : isAsciiDigit d = false) (hList : d ∉ ['n', 't', 'f', '"', '[', '{', '-']) :
    ∃ c more, skipBlanks (text ++ d :: rest) = c :: more ∧ c ≠ d := by
  obtain ⟨before, c, more, hBefore, rfl, hc⟩ := h.opens
  refine ⟨c, more ++ d :: rest, ?_, hc.ne hd hList⟩
  rw [List.append_assoc, skipBlanks_append hBefore, List.cons_append, skipBlanks_opens hc]

end Blanks

section Strings

variable {c : Char} {cs text digits rest : List Char} {unit fuel : Nat}

theorem readUnit?_append (h : SpellsUnit unit digits) (rest : List Char) :
    readUnit? (digits ++ rest) = some (unit, rest) := by
  obtain ⟨ha, hb, hc, hd⟩ := h
  simp [readUnit?, ha, hb, hc, hd]

theorem readEscape?_short {letter : Char} (h : (letter, c) ∈ shortEscapes) (rest : List Char) :
    readEscape? (letter :: rest) = some (c, rest) := by
  simp only [shortEscapes, List.mem_cons, Prod.mk.injEq, List.not_mem_nil, or_false] at h
  rcases h with ⟨rfl, rfl⟩ | ⟨rfl, rfl⟩ | ⟨rfl, rfl⟩ | ⟨rfl, rfl⟩ | ⟨rfl, rfl⟩ | ⟨rfl, rfl⟩ |
    ⟨rfl, rfl⟩ | ⟨rfl, rfl⟩ <;> rfl

theorem readEscape?_unit (h : SpellsUnit c.toNat digits) (rest : List Char) :
    readEscape? ('u' :: (digits ++ rest)) = some (c, rest) := by
  have hScalar : c.toNat < 0xD800 ∨ 0xE000 ≤ c.toNat := by
    rcases c.valid with hLow | hHigh
    · exact .inl hLow
    · exact .inr hHigh.1
  simp [readEscape?, readUnit?_append h, hScalar, Char.ofNat_toNat]

theorem readEscape?_pair {high low : Nat} {front back : List Char}
    (hHigh : 0xD800 ≤ high ∧ high < 0xDC00) (hLow : 0xDC00 ≤ low ∧ low < 0xE000)
    (hChar : c.toNat = 0x10000 + (high - 0xD800) * 1024 + (low - 0xDC00))
    (hFront : SpellsUnit high front) (hBack : SpellsUnit low back) (rest : List Char) :
    readEscape? ('u' :: (front ++ '\\' :: 'u' :: (back ++ rest))) = some (c, rest) := by
  have hSurrogate : ¬(high < 0xD800 ∨ 0xE000 ≤ high) := by omega
  have hFirst : ¬0xDC00 ≤ high := by omega
  simp [readEscape?, readUnit?_append hFront, readUnit?_append hBack, hSurrogate, hFirst, hLow,
    ← hChar, Char.ofNat_toNat]

/-- An escape is read in one go. -/
theorem readChars?_escape (escape : List Char) (h : readEscape? (escape ++ rest) = some (c, rest))
    (fuel : Nat) : readChars? (fuel + 1) ('\\' :: (escape ++ rest)) =
      (readChars? fuel rest).map fun r => (c :: r.1, r.2) := by
  rw [readChars?, h]
  simp only [Option.bind_eq_bind, Option.bind_some]
  cases readChars? fuel rest <;> rfl

/-- A spelled character is read in one go. -/
theorem readChars?_char (h : SpellsChar c text) (fuel : Nat) (rest : List Char) :
    readChars? (fuel + 1) (text ++ rest) =
      (readChars? fuel rest).map fun r => (c :: r.1, r.2) := by
  cases h with
  | plain hPrintable hQuote hBackslash =>
      rw [List.singleton_append, readChars?, if_neg (by omega)]
      · cases readChars? fuel rest <;> rfl
      · exact hQuote
      · exact hBackslash
  | short h => exact readChars?_escape [_] (readEscape?_short h rest) fuel
  | unit h => exact readChars?_escape ('u' :: _) (readEscape?_unit h rest) fuel
  | @pair _ _ _ front back hHigh hLow hChar hFront hBack =>
      have hPair := readEscape?_pair hHigh hLow hChar hFront hBack rest
      have hEscape : readEscape? ('u' :: front ++ '\\' :: 'u' :: back ++ rest) = some (c, rest) := by
        simpa using hPair
      simpa using readChars?_escape _ hEscape fuel

/-- A spelled string is read to its closing quote. -/
theorem readChars?_spelled (h : SpellsChars cs text) (hFuel : text.length < fuel)
    (rest : List Char) : readChars? fuel (text ++ '"' :: rest) = some (cs, rest) := by
  induction h generalizing fuel with
  | nil =>
      obtain ⟨fuel, rfl⟩ := Nat.exists_eq_add_of_lt hFuel
      simp [readChars?]
  | @cons c cs text more hFirst hRest ih =>
      rw [List.length_append] at hFuel
      have hPos : 0 < text.length := hFirst.length_pos
      obtain ⟨fuel, rfl⟩ := Nat.exists_eq_add_one_of_ne_zero (Nat.ne_zero_of_lt hFuel)
      rw [List.append_assoc, readChars?_char hFirst, ih (by omega)]
      rfl

end Strings

section Numbers

variable {digits places fraction exponent rest : List Char} {power : Int}

theorem takeDigits_append (hDigits : Digits digits)
    (hRest : ∀ c, rest.head? = some c → isAsciiDigit c = false) :
    takeDigits (digits ++ rest) = (digits, rest) := by
  rw [takeDigits, List.span_eq_takeWhile_dropWhile, List.takeWhile_append_of_pos hDigits.2,
    List.dropWhile_append_of_pos hDigits.2]
  cases rest with
  | nil => simp
  | cons c rest => simp [hRest c rfl]

/-- The digits of an exponent, after its sign if it has one. -/
theorem readExponent?_spelled (hDigits : Digits digits)
    (hRest : ∀ c, rest.head? = some c → isAsciiDigit c = false) :
    readExponent? (digits ++ rest) = some ((valueOf digits : Int), rest) ∧
      readExponent? ('+' :: (digits ++ rest)) = some ((valueOf digits : Int), rest) ∧
      readExponent? ('-' :: (digits ++ rest)) = some (-(valueOf digits : Int), rest) := by
  have hTake := takeDigits_append hDigits hRest
  have hValue := Text.readNat?_eq hDigits.1 hDigits.2
  refine ⟨?_, ?_, ?_⟩
  · obtain ⟨c, more, rfl, hc⟩ := hDigits.exists_cons
    have hMinus : c ≠ '-' := Text.ne_of_isAsciiDigit hc (by decide)
    have hPlus : c ≠ '+' := Text.ne_of_isAsciiDigit hc (by decide)
    rw [List.cons_append] at hTake ⊢
    simp [readExponent?, hMinus, hPlus, hTake, hValue]
  · simp [readExponent?, hTake, hValue]
  · simp [readExponent?, hTake, hValue]

/-- The places after a decimal point, if there is one. -/
def readPlaces? : List Char → Option (Option (List Char) × List Char)
  | '.' :: more =>
    let (digits, rest) := takeDigits more
    if digits.isEmpty then none else some (some digits, rest)
  | rest => some (none, rest)

/-- The exponent, if one is announced. -/
def readPower? : List Char → Option (Option Int × List Char)
  | 'e' :: more => (readExponent? more).map fun r => (some r.1, r.2)
  | 'E' :: more => (readExponent? more).map fun r => (some r.1, r.2)
  | rest => some (none, rest)

/-- What follows the digits before the decimal point. -/
def readTail? (negative : Bool) (whole tail : List Char) : Option (Json × List Char) :=
  (readPlaces? tail).bind fun (fraction, rest) =>
    (readPower? rest).bind fun (exponent, rest) =>
      match fraction, exponent with
      | none, none => some (.int (signed negative (valueOf whole)), rest)
      | _, _ =>
        let places := fraction.getD []
        (Text.readNat? (whole ++ places)).bind fun digits =>
          let power : Int := exponent.getD 0 - (places.length : Int)
          some (.decimal (Binary64.canonical ⟨negative, digits, power⟩), rest)

theorem bind_readPlaces? {β : Type} (k : Option (List Char) × List Char → Option β)
    (tail : List Char) :
    (match tail with
      | '.' :: more =>
        if (takeDigits more).1.isEmpty then none
        else k (some (takeDigits more).1, (takeDigits more).2)
      | _ => k (none, tail)) = (readPlaces? tail).bind k := by
  unfold readPlaces?
  split
  · dsimp only
    split <;> rfl
  · rfl

theorem bind_readPower? {β : Type} (k : Option Int × List Char → Option β) (rest : List Char) :
    (match rest with
      | 'e' :: more => ((readExponent? more).map fun r => (some r.1, r.2)).bind k
      | 'E' :: more => ((readExponent? more).map fun r => (some r.1, r.2)).bind k
      | _ => k (none, rest)) = (readPower? rest).bind k := by
  unfold readPower?
  split <;> rfl

/-- A number is read in three parts: the digits with their sign, the places and the exponent. -/
theorem readNumber?_eq {whole tail : List Char} (negative : Bool) (hWhole : WholeDigits whole)
    (hTail : ∀ c, tail.head? = some c → isAsciiDigit c = false) :
    readNumber? (minus negative ++ (whole ++ tail)) = readTail? negative whole tail := by
  obtain ⟨hDigits, hZero⟩ := hWhole
  have hTake := takeDigits_append hDigits hTail
  have hValue := Text.readNat?_eq hDigits.1 hDigits.2
  have hAlone : ¬((whole.length != 1 && decide (whole.head? = some '0')) = true) := by
    simp only [Bool.and_eq_true, bne_iff_ne, decide_eq_true_eq, not_and']
    exact fun h => not_not_intro (hZero h)
  have hMinus : ∀ rest, whole ++ tail = '-' :: rest → False := by
    obtain ⟨c, more, rfl, hc⟩ := hDigits.exists_cons
    intro rest h
    exact Text.ne_of_isAsciiDigit hc (by decide) (List.cons.inj h).1
  -- Both sides look at the tail in the same order, so only the sign and the digits are to be read.
  rw [readTail?, ← bind_readPlaces?]
  simp only [← bind_readPower?]
  cases negative
  · rw [minus, if_neg (by decide), List.nil_append, readNumber?]
    · simp only [hTake, hValue, if_neg hAlone, Option.bind_eq_bind, Option.bind_some,
        Option.bind_none, signed]
      rfl
    · exact hMinus
  · rw [minus, if_pos rfl, List.singleton_append, readNumber?]
    simp only [hTake, hValue, if_neg hAlone, Option.bind_eq_bind, Option.bind_some,
      Option.bind_none, signed]
    rfl

/-- Spelled places are read, and told from none. -/
theorem readPlaces?_spelled (h : SpellsFraction places fraction)
    (hRest : ∀ c, rest.head? = some c → isAsciiDigit c = false ∧ c ≠ '.') :
    ∃ o, readPlaces? (fraction ++ rest) = some (o, rest) ∧ o.getD [] = places ∧
      (o = none ↔ fraction = []) := by
  cases h with
  | none =>
      refine ⟨none, ?_, rfl, by simp⟩
      cases rest with
      | nil => rfl
      | cons c rest => simp [readPlaces?, (hRest c rfl).2]
  | places hDigits =>
      refine ⟨some _, ?_, rfl, by simp⟩
      simp [readPlaces?, takeDigits_append hDigits fun c hc => (hRest c hc).1, hDigits.1]

/-- A spelled exponent is read, and told from none. -/
theorem readPower?_spelled (h : SpellsExponent power exponent) (hRest : NumberEnds rest) :
    ∃ o, readPower? (exponent ++ rest) = some (o, rest) ∧ o.getD 0 = power ∧
      (o = none ↔ exponent = []) := by
  have hEnd : ∀ c, rest.head? = some c → isAsciiDigit c = false := fun c hc => (hRest c hc).1
  cases h with
  | none =>
      refine ⟨none, ?_, rfl, by simp⟩
      cases rest with
      | nil => rfl
      | cons c rest =>
          obtain ⟨-, -, hSmall, hLarge⟩ := hRest c rfl
          simp [readPower?, hSmall, hLarge]
  | plain hLetter hDigits =>
      refine ⟨some _, ?_, rfl, by simp⟩
      rcases hLetter with rfl | rfl <;> simp [readPower?, (readExponent?_spelled hDigits hEnd).1]
  | plus hLetter hDigits =>
      refine ⟨some _, ?_, rfl, by simp⟩
      rcases hLetter with rfl | rfl <;> simp [readPower?, (readExponent?_spelled hDigits hEnd).2.1]
  | minus hLetter hDigits =>
      refine ⟨some _, ?_, rfl, by simp⟩
      rcases hLetter with rfl | rfl <;> simp [readPower?, (readExponent?_spelled hDigits hEnd).2.2]

/-- A spelled number is read up to where it ends. -/
theorem readNumber?_spelled {j : Json} {text : List Char} (h : SpellsNumber j text)
    (hRest : NumberEnds rest) : readNumber? (text ++ rest) = some (j, rest) := by
  cases h with
  | whole negative hWhole =>
      obtain ⟨fraction, hPlaces, -, hNoPlaces⟩ :=
        readPlaces?_spelled .none fun c hc => ⟨(hRest c hc).1, (hRest c hc).2.1⟩
      obtain ⟨exponent, hPower, -, hNoPower⟩ := readPower?_spelled .none hRest
      obtain rfl := hNoPlaces.mpr rfl
      obtain rfl := hNoPower.mpr rfl
      rw [List.append_assoc, readNumber?_eq negative hWhole fun c hc => (hRest c hc).1, readTail?]
      rw [List.nil_append] at hPlaces hPower
      simp only [hPlaces, hPower, Option.bind_some]
  | @decimal whole places fraction exponent power negative hWhole hFraction hExponent hDecimal =>
      obtain ⟨o, hPlaces, hIsPlaces, hNoPlaces⟩ :=
        readPlaces?_spelled hFraction fun c hc => hExponent.head hRest hc
      obtain ⟨p, hPower, hIsPower, hNoPower⟩ := readPower?_spelled hExponent hRest
      obtain ⟨hNe, hDigits⟩ := hWhole.1.append hFraction.places_digits
      have hValue := Text.readNat?_eq hNe hDigits
      have hTail : ∀ c, (fraction ++ (exponent ++ rest)).head? = some c → isAsciiDigit c = false :=
        fun c hc => hFraction.head (fun c hc => (hExponent.head hRest hc).1) hc
      have hText : minus negative ++ (whole ++ (fraction ++ exponent)) ++ rest =
          minus negative ++ (whole ++ (fraction ++ (exponent ++ rest))) := by
        simp only [List.append_assoc]
      rw [hText, readNumber?_eq negative hWhole hTail, readTail?]
      simp only [hPlaces, hPower, Option.bind_some, hIsPlaces, hIsPower, hValue]
      -- Only a number without places and without an exponent is whole.
      split
      · exact absurd (by rw [hNoPlaces.mp rfl, hNoPower.mp rfl]; rfl) hDecimal
      · rfl

end Numbers

section Values

variable {text rest : List Char} {fuel : Nat}

theorem readValue?_blanks {blanks : List Char} (h : Blanks blanks) (fuel : Nat) (text : List Char) :
    readValue? fuel (blanks ++ text) = readValue? fuel text := by
  cases fuel with
  | zero => rfl
  | succ fuel => simp only [readValue?, skipBlanks_append h]

/-- What begins as a number is read as one. -/
theorem readValue?_number {c : Char} (hc : c = '-' ∨ isAsciiDigit c = true) (fuel : Nat)
    (rest : List Char) : readValue? (fuel + 1) (c :: rest) = readNumber? (c :: rest) := by
  have hOpens : Opens c := hc.imp_left fun h => by
    subst h
    decide
  have hOther : ∀ d, isAsciiDigit d = false → d ≠ '-' → c ≠ d := by
    rintro d hDigit hMinus rfl
    rcases hc with rfl | hIs
    · exact hMinus rfl
    · exact Text.ne_of_isAsciiDigit hIs hDigit rfl
  rw [readValue?, skipBlanks_opens hOpens]
  split
  case h_7 => rfl
  all_goals
    next h => exact absurd (List.cons.inj h).1 (hOther _ (by decide) (by decide))

/-- What it means that the reader reads a piece: a value up to its end, an item up to blanks, and
what stands between brackets with the closing one. -/
def Reads : Piece → List Char → Prop
  | .value j, text => ∀ fuel rest, text.length < fuel → NumberEnds rest →
    readValue? fuel (text ++ rest) = some (j, rest)
  | .item j, text => ∀ fuel rest, text.length < fuel → NumberEnds rest →
    ∃ left, readValue? fuel (text ++ rest) = some (j, left) ∧ skipBlanks left = skipBlanks rest
  | .items js, text => ∀ fuel rest, text.length + 1 < fuel →
    readItems? fuel (text ++ ']' :: rest) = some (js, rest)
  | .member m, text => ∀ fuel rest, text.length < fuel → NumberEnds rest →
    readMembers? (fuel + 1) (text ++ rest) =
      match skipBlanks rest with
      | '}' :: rest => some ([m], rest)
      | ',' :: rest => (readMembers? fuel rest).bind fun r => some (m :: r.1, r.2)
      | _ => none
  | .members ms, text => ∀ fuel rest, text.length + 1 < fuel →
    readMembers? fuel (text ++ '}' :: rest) = some (ms, rest)

/-- The reader reads every piece as the grammar has it. -/
theorem Spells.reads {p : Piece} (h : Spells p text) : Reads p text := by
  -- Every call on the way to a smaller piece takes one from the fuel, and passes a character at least.
  induction h with
  | null | yes | no =>
      intro fuel rest hFuel hRest
      obtain ⟨fuel, rfl⟩ := Nat.exists_eq_add_one_of_ne_zero (Nat.ne_zero_of_lt hFuel)
      rfl
  | number h =>
      intro fuel rest hFuel hRest
      obtain ⟨fuel, rfl⟩ := Nat.exists_eq_add_one_of_ne_zero (Nat.ne_zero_of_lt hFuel)
      -- The first character says that it is a number, and where the number ends says `hRest`.
      have hRead := readNumber?_spelled h hRest
      obtain ⟨c, more, rfl, hc⟩ := h.opens
      rw [List.cons_append, readValue?_number hc]
      exact hRead
  | @string s text h =>
      intro fuel rest hFuel hRest
      obtain ⟨fuel, rfl⟩ := Nat.exists_eq_add_one_of_ne_zero (Nat.ne_zero_of_lt hFuel)
      have hChars : readChars? (text.length + (rest.length + 1) + 1) (text ++ '"' :: rest) =
          some (s.toList, rest) := readChars?_spelled h (by omega) rest
      simp [readValue?, skipBlanks, hChars]
  | @emptyArray blanks h =>
      intro fuel rest hFuel hRest
      obtain ⟨fuel, rfl⟩ := Nat.exists_eq_add_one_of_ne_zero (Nat.ne_zero_of_lt hFuel)
      simp [readValue?, skipBlanks, skipBlanks_append h]
  | @array js text h ih =>
      intro fuel rest hFuel hRest
      obtain ⟨fuel, rfl⟩ := Nat.exists_eq_add_one_of_ne_zero (Nat.ne_zero_of_lt hFuel)
      obtain ⟨c, more, hFirst, hOther⟩ := h.first rest (d := ']') (by decide) (by decide)
      have hItems := ih fuel rest (by simp at hFuel; omega)
      simp [readValue?, skipBlanks, hFirst, hOther, hItems]
  | @emptyObject blanks h =>
      intro fuel rest hFuel hRest
      obtain ⟨fuel, rfl⟩ := Nat.exists_eq_add_one_of_ne_zero (Nat.ne_zero_of_lt hFuel)
      simp [readValue?, skipBlanks, skipBlanks_append h]
  | @object ms text h ih =>
      intro fuel rest hFuel hRest
      obtain ⟨fuel, rfl⟩ := Nat.exists_eq_add_one_of_ne_zero (Nat.ne_zero_of_lt hFuel)
      obtain ⟨c, more, hFirst, hOther⟩ := h.first rest (d := '}') (by decide) (by decide)
      have hMembers := ih fuel rest (by simp at hFuel; omega)
      simp [readValue?, skipBlanks, hFirst, hOther, hMembers]
  | @item j before text after hBefore h hAfter ih =>
      intro fuel rest hFuel hRest
      refine ⟨after ++ rest, ?_, skipBlanks_append hAfter rest⟩
      rw [List.append_assoc, readValue?_blanks hBefore, List.append_assoc]
      exact ih fuel _ (by simp at hFuel; omega) (numberEnds_blanks hAfter hRest)
  | @lastItem j text h ih =>
      intro fuel rest hFuel
      obtain ⟨fuel, rfl⟩ := Nat.exists_eq_add_one_of_ne_zero (Nat.ne_zero_of_lt hFuel)
      obtain ⟨left, hItem, hLeft⟩ := ih fuel (']' :: rest) (by omega) (numberEnds_cons (by simp) rest)
      simp [readItems?, hItem, hLeft]
  | @moreItems j js text more h hMore ih ihMore =>
      intro fuel rest hFuel
      obtain ⟨fuel, rfl⟩ := Nat.exists_eq_add_one_of_ne_zero (Nat.ne_zero_of_lt hFuel)
      rw [List.length_append, List.length_cons] at hFuel
      have hRest := ihMore fuel rest (by omega)
      obtain ⟨left, hItem, hLeft⟩ := ih fuel (',' :: (more ++ ']' :: rest)) (by omega)
        (numberEnds_cons (by simp) _)
      simp [readItems?, hItem, hLeft, hRest]
  | @member key j before name between text hBefore hName hBetween h ih =>
      intro fuel rest hFuel hRest
      simp only [List.length_append, List.length_cons] at hFuel
      obtain ⟨left, hItem, hLeft⟩ := ih fuel rest (by omega) hRest
      have hOpen : skipBlanks (before ++ ('"' :: (name ++ '"' :: (between ++ ':' :: text))) ++ rest) =
          '"' :: (name ++ '"' :: (between ++ ':' :: (text ++ rest))) := by
        rw [List.append_assoc, skipBlanks_append hBefore]
        simp [skipBlanks]
      have hColon : skipBlanks (between ++ ':' :: (text ++ rest)) = ':' :: (text ++ rest) :=
        skipBlanks_append hBetween _
      have hLength : name.length < (name ++ '"' :: (between ++ ':' :: (text ++ rest))).length.succ := by
        simp only [List.length_append]
        omega
      rw [readMembers?, hOpen]
      simp only [readChars?_spelled hName hLength, Option.bind_eq_bind, Option.bind_some,
        String.ofList_toList, hColon, hItem, hLeft]
      rfl
  | @lastMember m text h ih =>
      intro fuel rest hFuel
      obtain ⟨fuel, rfl⟩ := Nat.exists_eq_add_one_of_ne_zero (Nat.ne_zero_of_lt hFuel)
      rw [ih fuel ('}' :: rest) (by omega) (numberEnds_cons (by simp) rest)]
      rfl
  | @moreMembers m ms text more h hMore ih ihMore =>
      intro fuel rest hFuel
      obtain ⟨fuel, rfl⟩ := Nat.exists_eq_add_one_of_ne_zero (Nat.ne_zero_of_lt hFuel)
      rw [List.length_append, List.length_cons] at hFuel
      rw [List.append_assoc, List.cons_append, ih fuel _ (by omega) (numberEnds_cons (by simp) _)]
      simp [ihMore fuel rest (by omega)]

/-- The reader reads a text as the value that it spells. -/
theorem SpellsText.parse?_eq {j : Json} {text : String} (h : SpellsText j text) :
    parse? text = some j := by
  have hEnd : NumberEnds [] := fun c hc => by cases hc
  obtain ⟨left, hRead, hLeft⟩ :=
    Spells.reads h text.toList.length.succ [] (Nat.lt_succ_self _) hEnd
  rw [List.append_nil] at hRead
  rw [parse?]
  simp only [hRead, hLeft]
  rfl

/-- No text spells two values. -/
theorem SpellsText.unique {j other : Json} {text : String} (h : SpellsText j text)
    (hOther : SpellsText other text) : j = other :=
  Option.some.inj (h.parse?_eq.symm.trans hOther.parse?_eq)

end Values

end Triage.Json
