import Mathlib.Data.List.TakeWhile
import Triage.Proofs.Text.Containment
import Triage.Text.Wildcard

/-!
# What a search finds

A search reads a text up to its first NUL character (`asRead`).  A text without a NUL character is
found where it occurs in what is read of the other one.  Of a text with one, the pattern ends before
the run of characters that closes it, so what is read of it has to stand at the end (`isFoundIn_iff`).
For texts with neither a NUL character nor one of two noncharacters, to be found is to occur
(`foundIn_iff_occursIn`).
-/

namespace Triage.Text

variable {α : Type} {text whole : String}

theorem anyTail_iff {p : List α → Bool} {xs : List α} :
    anyTail p xs = true ↔ ∃ tail, tail <:+ xs ∧ p tail = true := by
  induction xs with
  | nil => simp [anyTail, List.suffix_nil]
  | cons x xs ih =>
      rw [anyTail, Bool.or_eq_true, ih]
      constructor
      · rintro (hHere | ⟨tail, hTail, hLater⟩)
        · exact ⟨_, List.suffix_rfl, hHere⟩
        · exact ⟨tail, hTail.trans (List.suffix_cons x xs), hLater⟩
      · rintro ⟨tail, hTail, h⟩
        rcases List.suffix_cons_iff.mp hTail with rfl | hLater
        · exact .inl h
        · exact .inr ⟨tail, hLater, h⟩

namespace Wildcard

variable {part chars : List Char} {rest : List Wildcard}

/-- A run takes up whatever stands before something that the rest of the pattern fits. -/
theorem fits_anyRun_iff :
    fits (.anyRun :: rest) chars = true ↔ ∃ tail, tail <:+ chars ∧ fits rest tail = true := by
  rw [fits, anyTail_iff]

/-- Characters that stand for themselves take up as many characters that compare like them. -/
theorem fits_chars_iff :
    fits (part.map .char ++ rest) chars = true ↔
      ∃ piece tail, chars = piece ++ tail ∧ part.map patternKey = piece.map patternKey ∧
        fits rest tail = true := by
  induction part generalizing chars with
  | nil => simp
  | cons c part ih =>
      cases chars with
      | nil => simp [fits]
      | cons d chars =>
          rw [List.map_cons, List.cons_append, fits, Bool.and_eq_true, beq_iff_eq, ih]
          constructor
          · rintro ⟨hKey, piece, tail, rfl, hPiece, hFits⟩
            exact ⟨d :: piece, tail, rfl, by rw [List.map_cons, List.map_cons, hKey, hPiece], hFits⟩
          · rintro ⟨piece, tail, hChars, hPiece, hFits⟩
            cases piece with
            | nil => simp at hPiece
            | cons e piece =>
                obtain ⟨rfl, rfl⟩ := List.cons.inj hChars
                obtain ⟨hKey, hPiece⟩ := List.cons.inj hPiece
                exact ⟨hKey, piece, tail, rfl, hPiece, hFits⟩

/-- A pattern that begins with a run and ends in characters asks for an end. -/
theorem fits_end_iff :
    fits (.anyRun :: part.map .char) chars = true ↔
      part.map patternKey <:+ chars.map patternKey := by
  rw [fits_anyRun_iff, List.suffix_map_iff]
  refine exists_congr fun tail => and_congr_right fun _ => ?_
  rw [← List.append_nil (part.map Wildcard.char), fits_chars_iff]
  constructor
  · rintro ⟨piece, rest, rfl, hPiece, hFits⟩
    rw [List.isEmpty_iff.mp hFits, List.append_nil]
    exact hPiece
  · exact fun hPiece => ⟨tail, [], (List.append_nil tail).symm, hPiece, rfl⟩

/-- A pattern that begins and ends with a run asks for a piece. -/
theorem fits_piece_iff :
    fits (.anyRun :: (part.map .char ++ [.anyRun])) chars = true ↔
      part.map patternKey <:+: chars.map patternKey := by
  have hRun : ∀ tail, fits [.anyRun] tail = true := fun tail =>
    fits_anyRun_iff.mpr ⟨[], List.nil_suffix, rfl⟩
  rw [fits_anyRun_iff, List.infix_map_iff]
  constructor
  · rintro ⟨_, hTail, hFits⟩
    obtain ⟨piece, rest, rfl, hPiece, -⟩ := fits_chars_iff.mp hFits
    exact ⟨piece, (List.prefix_append piece rest).isInfix.trans hTail.isInfix, hPiece⟩
  · rintro ⟨piece, ⟨before, behind, rfl⟩, hPiece⟩
    refine ⟨piece ++ behind, ⟨before, (List.append_assoc _ _ _).symm⟩, ?_⟩
    exact fits_chars_iff.mpr ⟨piece, behind, rfl, hPiece, hRun behind⟩

/-- What is read of the pattern for a text: the run that closes it is cut off with a NUL character. -/
theorem untilNul_around (text : String) :
    untilNul (around text) = .anyRun :: ((Text.untilNul text).toList.map .char ++
      if '\x00' ∈ text.toList then [] else [.anyRun]) := by
  rw [around, untilNul, Text.untilNul, String.toList_ofList, List.takeWhile_cons_of_pos rfl]
  refine congrArg (Wildcard.anyRun :: ·) ?_
  induction text.toList with
  | nil => rfl
  | cons c chars ih =>
      by_cases hNul : c = '\x00'
      · simp [hNul]
      · have hPart : Wildcard.char c ≠ .char '\x00' := fun h => hNul (Wildcard.char.inj h)
        simp [hNul, Ne.symm hNul, hPart, ih]

end Wildcard

/-- What a search reads of a text, character by character. -/
def asRead (text : String) : List Char := (untilNul text).toList.map patternKey

/-- A text without a NUL character is found where it occurs in what is read of the other text; a text
with one is found where what is read of it stands at the end of that. -/
def FoundIn (text whole : String) : Prop :=
  if '\x00' ∈ text.toList then asRead text <:+ asRead whole else asRead text <:+: asRead whole

theorem isFoundIn_iff : isFoundIn text whole = true ↔ FoundIn text whole := by
  rw [isFoundIn, Wildcard.untilNul_around, FoundIn, asRead, asRead]
  split
  next => rw [List.append_nil, Wildcard.fits_end_iff]
  next => rw [Wildcard.fits_piece_iff]

-- The pattern for this text has no run behind the word.
example : isFoundIn "disk\x00full" "slow disk" = true ∧
    isFoundIn "disk\x00full" "disk slow" = false := by
  decide +kernel

instance (text whole : String) : Decidable (FoundIn text whole) :=
  decidable_of_iff _ isFoundIn_iff

theorem foundIn_of_mem (h : '\x00' ∈ text.toList) :
    FoundIn text whole ↔ asRead text <:+ asRead whole := by rw [FoundIn, if_pos h]

theorem foundIn_of_notMem (h : '\x00' ∉ text.toList) :
    FoundIn text whole ↔ asRead text <:+: asRead whole := by rw [FoundIn, if_neg h]

theorem FoundIn.occurs (h : FoundIn text whole) : asRead text <:+: asRead whole := by
  rw [FoundIn] at h
  split at h
  · exact h.isInfix
  · exact h

theorem FoundIn.refl (text : String) : FoundIn text text := by
  rw [FoundIn]
  split
  · exact List.suffix_rfl
  · exact List.infix_rfl

/-- What is found in a text is found wherever that text is found, unless only the first of both asks
for an end. -/
theorem FoundIn.trans {a b c : String} (hab : FoundIn a b) (hbc : FoundIn b c)
    (hEnd : '\x00' ∈ a.toList → '\x00' ∈ b.toList) : FoundIn a c := by
  by_cases hNul : '\x00' ∈ a.toList
  · rw [foundIn_of_mem hNul] at hab ⊢
    rw [foundIn_of_mem (hEnd hNul)] at hbc
    exact hab.trans hbc
  · rw [foundIn_of_notMem hNul]
    exact hab.occurs.trans hbc.occurs

/-- What is found in the empty text is found anywhere. -/
theorem FoundIn.of_empty (h : FoundIn text "") (whole : String) : FoundIn text whole := by
  have hEmpty : asRead text = [] := List.infix_nil.mp h.occurs
  rw [FoundIn, hEmpty]
  split
  · exact List.nil_suffix
  · exact List.nil_infix

/-- An empty text need not be looked for, as it is found anywhere. -/
theorem isEmpty_or_isFoundIn_iff :
    (text.isEmpty || isFoundIn text whole) = true ↔ FoundIn text whole := by
  rw [Bool.or_eq_true, isFoundIn_iff, or_iff_right_iff_imp, String.isEmpty_iff]
  exact fun hEmpty => hEmpty ▸ .of_empty (.refl "") whole

/-- A text with neither a NUL character nor a noncharacter that is compared as another character. -/
def Plain (text : String) : Prop :=
  '\x00' ∉ text.toList ∧ '\ufffe' ∉ text.toList ∧ '\uffff' ∉ text.toList

instance (text : String) : Decidable (Plain text) := inferInstanceAs (Decidable (_ ∧ _))

theorem bne_nul_of_notMem (h : '\x00' ∉ text.toList) : ∀ c ∈ text.toList, (c != '\x00') = true :=
  fun _ hc => bne_iff_ne.mpr fun hNul => h (hNul ▸ hc)

theorem untilNul_of_notMem (h : '\x00' ∉ text.toList) : untilNul text = text := by
  rw [untilNul, List.takeWhile_eq_self_iff.mpr (bne_nul_of_notMem h), String.ofList_toList]

/-- A plain text is read as it is, up to the case of ASCII letters. -/
theorem Plain.asRead_eq (h : Plain text) : asRead text = text.toList.map foldAscii := by
  rw [asRead, untilNul_of_notMem h.1]
  refine List.map_congr_left fun c hc => ?_
  have hFirst : c ≠ '\ufffe' := fun hIs => h.2.1 (hIs ▸ hc)
  have hSecond : c ≠ '\uffff' := fun hIs => h.2.2 (hIs ▸ hc)
  simp [patternKey, hFirst, hSecond]

/-- Plain texts are found where they occur. -/
theorem foundIn_iff_occursIn (hText : Plain text) (hWhole : Plain whole) :
    FoundIn text whole ↔ OccursIn text whole := by
  rw [foundIn_of_notMem hText.1, hText.asRead_eq, hWhole.asRead_eq, OccursIn]

/-- What is read of two texts, one after the other, if the first one has no NUL character. -/
theorem asRead_append {first second : String} (h : '\x00' ∉ first.toList) :
    asRead (first ++ second) = asRead first ++ asRead second := by
  have hRead : (untilNul (first ++ second)).toList = first.toList ++ (untilNul second).toList := by
    rw [untilNul, untilNul, String.toList_ofList, String.toList_ofList, String.toList_append,
      List.takeWhile_append_of_pos (bne_nul_of_notMem h)]
  rw [asRead, hRead, List.map_append, asRead, asRead, untilNul_of_notMem h]

/-- Whatever is found in the second of two texts is found in both together, if the first one has no
NUL character. -/
theorem FoundIn.append_left {first : String} (h : FoundIn text whole)
    (hFirst : '\x00' ∉ first.toList) : FoundIn text (first ++ whole) := by
  rw [FoundIn, asRead_append hFirst]
  rw [FoundIn] at h
  split at h
  next hNul =>
    rw [if_pos hNul]
    exact h.trans (List.suffix_append _ _)
  next hNul =>
    rw [if_neg hNul]
    exact h.trans (List.suffix_append _ _).isInfix

/-- The first of several texts, and the others behind it. -/
theorem intercalate_cons_cons (first second : String) (others : List String) :
    " ".intercalate (first :: second :: others) =
      first ++ (" " ++ " ".intercalate (second :: others)) := by
  rw [String.intercalate_cons_cons, String.append_assoc]

theorem mem_intercalate {texts : List String} (hText : text ∈ texts) {c : Char}
    (hc : c ∈ text.toList) : c ∈ (" ".intercalate texts).toList := by
  induction texts with
  | nil => cases hText
  | cons first others ih =>
      cases others with
      | nil =>
          rw [String.intercalate_singleton]
          exact List.mem_singleton.mp hText ▸ hc
      | cons second others =>
          rw [intercalate_cons_cons, String.toList_append, String.toList_append]
          rcases List.mem_cons.mp hText with rfl | hLater
          · exact List.mem_append_left _ hc
          · exact List.mem_append_right _ (List.mem_append_right _ (ih hLater))

/-- In texts one space apart each of them is found, if none but the last has a NUL character. -/
theorem foundIn_intercalate {texts : List String}
    (h : ∀ text ∈ texts.dropLast, '\x00' ∉ text.toList) :
    ∀ text ∈ texts, FoundIn text (" ".intercalate texts) := by
  induction texts with
  | nil => exact fun text hText => absurd hText List.not_mem_nil
  | cons first others ih =>
      cases others with
      | nil =>
          intro text hText
          obtain rfl := List.mem_singleton.mp hText
          rw [String.intercalate_singleton]
          exact .refl text
      | cons second others =>
          rw [List.dropLast_cons_of_ne_nil (List.cons_ne_nil _ _)] at h
          have hFirst := h first List.mem_cons_self
          intro text hText
          rw [intercalate_cons_cons]
          rcases List.mem_cons.mp hText with rfl | hLater
          · rw [foundIn_of_notMem hFirst, asRead_append hFirst]
            exact (List.prefix_append _ _).isInfix
          · have hRest := ih (fun later hLater => h later (List.mem_cons_of_mem _ hLater)) text hLater
            exact (hRest.append_left (by decide)).append_left hFirst

end Triage.Text
