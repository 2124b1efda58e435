import Triage.Proofs.Webhook.Signing

/-!
# Which signatures are right

A signature is right when, apart from one mark in front of it and from the case of its letters, it is
the one of the body (`verify?_exact`).  Letters outside ASCII make no difference to that, because a
signature has none; but a signature with such a letter gets no answer at all, unless the letter is
the Kelvin sign, whose lower case is an ASCII letter.
-/

namespace Triage

namespace Text

/-- The lower case of ASCII text is the usual one. -/
theorem foldAscii_eq_toLower (c : Char) : foldAscii c = c.toLower := by
  by_cases hCapital : 65 ≤ c.toNat ∧ c.toNat ≤ 90
  · have hAll : ∀ n, n ≤ 90 → 65 ≤ n → foldAscii (Char.ofNat n) = (Char.ofNat n).toLower := by
      decide
    have hThis := hAll c.toNat hCapital.2 hCapital.1
    rwa [Char.ofNat_toNat] at hThis
  · have hBetween : ¬((decide ('A' ≤ c) && decide (c ≤ 'Z')) = true) := by
      rw [Bool.and_eq_true, decide_eq_true_eq, decide_eq_true_eq]
      exact hCapital
    have hFold : foldAscii c = c := if_neg hBetween
    have hLower : c.toLower = c := dif_neg hCapital
    rw [hFold, hLower]

/-- The lower case that matters to ASCII text is the usual one, apart from the Kelvin sign. -/
theorem lowerForAscii_eq_toLower {c : Char} (h : c ≠ '\u212A') : lowerForAscii c = c.toLower := by
  rw [lowerForAscii, if_neg h, foldAscii_eq_toLower]

theorem toNat_toLower_lt {c : Char} : c.toLower.toNat < 128 ↔ c.toNat < 128 := by
  rw [← foldAscii_eq_toLower]
  unfold foldAscii
  split
  next hCapital =>
    simp only [Bool.and_eq_true, decide_eq_true_eq] at hCapital
    have hLeast : 65 ≤ c.toNat := hCapital.1
    have hMost : c.toNat ≤ 90 := hCapital.2
    have hAll : ∀ n, n ≤ 90 → (Char.ofNat (n + 32)).toNat < 128 := by decide
    exact ⟨fun _ => by omega, fun _ => hAll _ hMost⟩
  · rfl

/-- Only ASCII characters and the Kelvin sign are ASCII in lower case. -/
theorem toNat_lowerForAscii_lt {c : Char} :
    (lowerForAscii c).toNat < 128 ↔ c.toNat < 128 ∨ c = '\u212A' := by
  by_cases hKelvin : c = '\u212A'
  · subst hKelvin
    decide
  · rw [lowerForAscii_eq_toLower hKelvin, toNat_toLower_lt]
    simp [hKelvin]

theorem toList_toLower (text : String) : text.toLower.toList = text.toList.map Char.toLower :=
  String.toList_map

/-- Neither the Kelvin sign nor its lower case is a hexadecimal digit. -/
theorem IsHex.ne_kelvin {c : Char} (h : IsHex c) : c ≠ '\u212A' ∧ c ≠ 'k' := by
  obtain ⟨value, hValue, rfl⟩ := h
  have hAll : ∀ value < 16, digitChar value ≠ '\u212A' ∧ digitChar value ≠ 'k' := by decide
  exact hAll value hValue

end Text

namespace Webhook

/-- What is left of a signature when one mark is removed from its front, if it has one. -/
inductive Unmarked (mark : String) : (signature given : String) → Prop
  | marked (given : String) : Unmarked mark (mark ++ given) given
  | bare {signature : String} (h : ¬mark.toList <+: signature.toList) :
      Unmarked mark signature signature

theorem unmarked_iff {mark signature given : String} :
    Unmarked mark signature given ↔ dropMark mark signature.toList = given.toList := by
  constructor
  · rintro (_ | hBare)
    · rw [String.toList_append, dropMark_marked]
    · exact if_neg (by simpa using hBare)
  · intro hGiven
    by_cases hMarked : mark.toList <+: signature.toList
    · obtain ⟨rest, hRest⟩ := hMarked
      rw [← hRest, dropMark_marked] at hGiven
      obtain rfl : signature = mark ++ given := by
        rw [← String.toList_inj, String.toList_append, ← hGiven, hRest]
      exact .marked given
    · rw [dropMark, if_neg (by simpa using hMarked), String.toList_inj] at hGiven
      subst hGiven
      exact .bare hMarked

/-- Every signature has something left. -/
theorem exists_unmarked (mark signature : String) : ∃ given, Unmarked mark signature given :=
  ⟨String.ofList (dropMark mark signature.toList), unmarked_iff.mpr String.toList_ofList.symm⟩

theorem Unmarked.unique {mark signature given other : String} (h : Unmarked mark signature given)
    (hOther : Unmarked mark signature other) : given = other := by
  rw [← String.toList_inj, ← unmarked_iff.mp h, unmarked_iff.mp hOther]

theorem Unmarked.exists_iff {mark signature given : String} (h : Unmarked mark signature given)
    (p : String → Prop) : (∃ other, Unmarked mark signature other ∧ p other) ↔ p given :=
  ⟨fun ⟨_, hOther, hp⟩ => h.unique hOther ▸ hp, fun hp => ⟨given, h, hp⟩⟩

/-- Nothing is left of nothing. -/
theorem Unmarked.of_empty {mark given : String} (h : Unmarked mark "" given) : given = "" := by
  have hGiven := unmarked_iff.mp h
  rw [← String.toList_inj, ← hGiven, dropMark]
  split <;> simp

variable {body : List UInt8} {secret signature mark given : String}

/-- There is an answer when what is given is ASCII, but for Kelvin signs. -/
theorem verify?_of_unmarked (hSecret : secret ≠ "") (hSignature : signature ≠ "")
    (hGiven : Unmarked mark signature given) :
    verify? body secret signature mark =
      if given.toList.all fun c => c.toNat < 128 || c = '\u212A' then
        some (decide (given.toList.map Text.lowerForAscii = (sign body secret).toList))
      else none := by
  have hPresent : (secret.isEmpty || signature.isEmpty) = false := by simp [hSecret, hSignature]
  have hAscii (c : Char) : decide ((Text.lowerForAscii c).toNat < 128) =
      (decide (c.toNat < 128) || decide (c = '\u212A')) := by
    rw [← Bool.decide_or, decide_eq_decide]
    exact Text.toNat_lowerForAscii_lt
  simp only [verify?, hPresent, Bool.false_eq_true, if_false, unmarked_iff.mp hGiven,
    List.all_map, Function.comp_def, hAscii]

/-- Comparing in the lower case that matters to ASCII is comparing up to the case of letters. -/
theorem map_lower_eq_sign :
    given.toList.map Text.lowerForAscii = (sign body secret).toList ↔
      given.toLower = sign body secret := by
  rw [← String.toList_inj, Text.toList_toLower]
  have hHex : ∀ c ∈ (sign body secret).toList, Text.IsHex c := fun c => isHex_of_mem_sign
  have hEach : '\u212A' ∉ given.toList →
      given.toList.map Text.lowerForAscii = given.toList.map Char.toLower := fun hKelvin =>
    List.map_congr_left fun c hc => Text.lowerForAscii_eq_toLower (ne_of_mem_of_not_mem hc hKelvin)
  constructor
  -- A Kelvin sign would become a `k` on one side and stay on the other; no signature has either.
  · intro hSame
    rw [← hEach fun hKelvin => ?_, hSame]
    exact (hHex 'k' (hSame ▸ List.mem_map.mpr ⟨_, hKelvin, rfl⟩)).ne_kelvin.2 rfl
  · intro hSame
    rw [hEach fun hKelvin => ?_, hSame]
    exact (hHex '\u212A' (hSame ▸ List.mem_map.mpr ⟨_, hKelvin, rfl⟩)).ne_kelvin.1 rfl

/-- What is right is ASCII, because its lower case is. -/
theorem ascii_of_toLower (h : given.toLower = sign body secret) {c : Char}
    (hc : c ∈ given.toList) : c.toNat < 128 := by
  have hDigit : c.toLower ∈ (sign body secret).toList := by
    rw [← h, Text.toList_toLower]
    exact List.mem_map_of_mem hc
  exact Text.toNat_toLower_lt.mp (isHex_of_mem_sign hDigit).facts.1

/-- A signature is right if and only if there is a secret and the signature of the body is given up
to the case of letters, with one mark in front or without.  There is no answer if and only if there
are a secret and a signature, and what is given has a character that is neither ASCII nor the Kelvin
sign. -/
theorem verify?_exact (body : List UInt8) (secret signature mark : String) :
    (verify? body secret signature mark = some true ↔
      secret ≠ "" ∧ ∃ given, Unmarked mark signature given ∧ given.toLower = sign body secret) ∧
    (verify? body secret signature mark = none ↔
      secret ≠ "" ∧ signature ≠ "" ∧ ∃ given, Unmarked mark signature given ∧
        ∃ c ∈ given.toList, 128 ≤ c.toNat ∧ c ≠ '\u212A') := by
  obtain ⟨given, hGiven⟩ := exists_unmarked mark signature
  rw [hGiven.exists_iff, hGiven.exists_iff]
  by_cases hSecret : secret = ""
  · simp [verify?, hSecret]
  by_cases hSignature : signature = ""
  · subst hSignature
    have hNone : given.toLower ≠ sign body secret := by
      obtain rfl := hGiven.of_empty
      intro hEmpty
      have hLength := length_sign body secret
      simp [← hEmpty, Text.toList_toLower] at hLength
    simp [verify?, hNone]
  rw [verify?_of_unmarked hSecret hSignature hGiven]
  split
  next hAscii =>
    simp only [List.all_eq_true, Bool.or_eq_true, decide_eq_true_eq] at hAscii
    refine ⟨?_, ?_⟩
    · simp [hSecret, map_lower_eq_sign]
    · simp only [reduceCtorEq, false_iff]
      rintro ⟨-, -, c, hc, hFar, hOther⟩
      rcases hAscii c hc with hNear | hKelvin
      · omega
      · exact hOther hKelvin
  next hNot =>
    simp only [List.all_eq_true, Bool.or_eq_true, decide_eq_true_eq, not_forall, not_or] at hNot
    obtain ⟨c, hc, hFar, hOther⟩ := hNot
    refine ⟨?_, ?_⟩
    · simp only [reduceCtorEq, false_iff]
      rintro ⟨-, hRight⟩
      exact hFar (ascii_of_toLower hRight hc)
    · simp only [true_iff]
      exact ⟨hSecret, hSignature, c, hc, by omega, hOther⟩

/-- A signature with an accent gets no answer. -/
theorem verify?_accented :
    ¬∃ answer, verify? (Text.utf8 "a") "s3cret" "é" defaultMark = some answer := by
  decide

end Webhook
end Triage
