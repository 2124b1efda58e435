import Triage.Text.Classes

/-!
# Alphabets

The small classes of characters as lists, so that a fact about all their characters can be decided,
and how the classes lie in each other.  What is decided is a Boolean fact about the list, since a
statement about each of its characters may be decided by going through all characters there are.
-/

namespace Triage.Text

/-- The ASCII digits. -/
def decimals : List Char := "0123456789".toList

/-- The hexadecimal digits of either case. -/
def hexadecimals : List Char := "0123456789abcdefABCDEF".toList

theorem mem_of_ascii {accepts : Char → Bool} {letters : List Char} {c : Char}
    (hAll : ∀ n < 128, accepts (Char.ofNat n) = true → Char.ofNat n ∈ letters)
    (hAscii : c.toNat < 128) (h : accepts c = true) : c ∈ letters := by
  have hLetter := hAll c.toNat hAscii
  rw [Char.ofNat_toNat] at hLetter
  exact hLetter h

theorem le_of_isAsciiDigit {c : Char} (h : isAsciiDigit c = true) : c.toNat ≤ 57 := by
  simp only [isAsciiDigit, Bool.and_eq_true, decide_eq_true_eq] at h
  exact h.2

theorem mem_decimals {c : Char} (h : isAsciiDigit c = true) : c ∈ decimals := by
  have hSmall := le_of_isAsciiDigit h
  exact mem_of_ascii (by decide) (by omega) h

theorem mem_hexadecimals {c : Char} (h : isHexDigit c = true) : c ∈ hexadecimals := by
  have hSmall : c.toNat ≤ 102 := by
    simp only [isHexDigit, Bool.or_eq_true, Bool.and_eq_true, decide_eq_true_eq] at h
    rcases h with (hDigit | hLetter) | hLetter
    · have := le_of_isAsciiDigit hDigit
      omega
    · exact hLetter.2
    · have hCapital : c.toNat ≤ 70 := hLetter.2
      omega
  exact mem_of_ascii (by decide) (by omega) h

theorem isWord_of_isHexDigit {c : Char} (h : isHexDigit c = true) : isWord c = true := by
  have hAll : ∀ c ∈ hexadecimals, isWord c = true := List.all_eq_true.mp (by decide)
  exact hAll c (mem_hexadecimals h)

theorem isWord_of_isAsciiAlnum {c : Char} (h : isAsciiAlnum c = true) : isWord c = true := by
  have hAscii : c.toNat < 128 := by
    simp only [isAsciiAlnum, isAsciiLetter, Bool.or_eq_true, Bool.and_eq_true,
      decide_eq_true_eq] at h
    rcases h with hDigit | hSmall | hCapital
    · have := le_of_isAsciiDigit hDigit
      omega
    · have hLetter : c.toNat ≤ 122 := hSmall.2
      omega
    · have hLetter : c.toNat ≤ 90 := hCapital.2
      omega
  simp [isWord, hAscii, h]

/-- Whether each of the ranges lies in one of the wider ones. -/
def areWithin (ranges wider : List (Nat × Nat)) : Bool :=
  ranges.all fun r => wider.any fun r' => r'.1.ble r.1 && r.2.ble r'.2

theorem inRanges_of_areWithin {ranges wider : List (Nat × Nat)} (h : areWithin ranges wider = true)
    {code : Nat} (hCode : inRanges ranges code = true) : inRanges wider code = true := by
  simp only [areWithin, List.all_eq_true, List.any_eq_true, Bool.and_eq_true, Nat.ble_eq] at h
  simp only [inRanges, List.any_eq_true, Bool.and_eq_true, decide_eq_true_eq] at hCode ⊢
  obtain ⟨r, hr, hLow, hHigh⟩ := hCode
  obtain ⟨r', hr', hLow', hHigh'⟩ := h r hr
  exact ⟨r', hr', by omega, by omega⟩

/-- A decimal digit of any script is a word character. -/
theorem isWord_of_isDigit {c : Char} (h : isDigit c = true) : isWord c = true := by
  unfold isDigit at h
  split at h
  next hAscii => simp [isWord, isAsciiAlnum, hAscii, h]
  next hBeyond =>
    have hTable : areWithin digitRanges wordRanges = true := by decide +kernel
    simp [isWord, hBeyond, inRanges_of_areWithin hTable h]

end Triage.Text
