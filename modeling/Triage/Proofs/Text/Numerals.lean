import Mathlib.Tactic.Ring
import Triage.Text.Numeral

/-!
# Numerals are unambiguous

A written number is read back as the number (`valueOf_natDigits`, `readNat?_eq`), so distinct numbers
have distinct numerals (`natDigits_injective`, `intDigits_injective`).  A numeral has no colon, and
can be told apart from what follows one (`intText_colon`).
-/

namespace Triage.Text

/-- The number that decimal digits stand for. -/
def valueOf (digits : List Char) : Nat := digits.foldl (fun acc c => acc * 10 + (c.toNat - 48)) 0

theorem toNat_digitChar {value : Nat} (h : value < 10) : (digitChar value).toNat = 48 + value := by
  have hAll : ∀ v : Fin 10, (digitChar v.val).toNat = 48 + v.val := by decide
  exact hAll ⟨value, h⟩

theorem valueOf_natDigits (n : Nat) : valueOf (natDigits n) = n := by
  induction n using Nat.strongRecOn with
  | ind n ih =>
      unfold natDigits
      split
      next h => simp [valueOf, toNat_digitChar h]
      next h =>
        have hFront := ih (n / 10) (by omega)
        unfold valueOf at hFront ⊢
        rw [List.foldl_append, hFront]
        simp only [List.foldl_cons, List.foldl_nil]
        rw [toNat_digitChar (by omega)]
        omega

theorem natDigits_injective {m n : Nat} (h : natDigits m = natDigits n) : m = n := by
  rw [← valueOf_natDigits m, h, valueOf_natDigits]

/-- Every character of a numeral is a decimal digit. -/
theorem toNat_of_mem_natDigits {n : Nat} {c : Char} (h : c ∈ natDigits n) :
    48 ≤ c.toNat ∧ c.toNat < 58 := by
  induction n using Nat.strongRecOn with
  | ind n ih =>
      unfold natDigits at h
      split at h
      next hSmall =>
        obtain rfl := List.mem_singleton.mp h
        rw [toNat_digitChar hSmall]
        omega
      next hLarge =>
        rcases List.mem_append.mp h with hFront | hLast
        · exact ih (n / 10) (by omega) hFront
        · obtain rfl := List.mem_singleton.mp hLast
          rw [toNat_digitChar (by omega)]
          omega

theorem isAsciiDigit_of_mem_natDigits {n : Nat} {c : Char} (h : c ∈ natDigits n) :
    isAsciiDigit c = true := by
  obtain ⟨hLeast, hMost⟩ := toNat_of_mem_natDigits h
  have hZero : '0' ≤ c := hLeast
  have hNine : c ≤ '9' := Nat.le_of_lt_succ hMost
  simp [isAsciiDigit, hZero, hNine]

theorem ne_of_isAsciiDigit {c d : Char} (h : isAsciiDigit c = true)
    (hOther : isAsciiDigit d = false) : c ≠ d := by
  rintro rfl
  rw [h] at hOther
  cases hOther

theorem notMem_natDigits {c : Char} (h : isAsciiDigit c = false) (n : Nat) : c ∉ natDigits n :=
  fun hMem => ne_of_isAsciiDigit (isAsciiDigit_of_mem_natDigits hMem) h rfl

theorem natDigits_ne_nil (n : Nat) : natDigits n ≠ [] := by
  unfold natDigits
  split <;> simp

/-- Only the numeral of zero begins with a zero. -/
theorem eq_zero_of_head_natDigits {n : Nat} (h : (natDigits n).head? = some '0') : n = 0 := by
  induction n using Nat.strongRecOn with
  | ind n ih =>
      unfold natDigits at h
      split at h
      next hSmall =>
        have hAll : ∀ n < 10, digitChar n = '0' → n = 0 := by decide
        exact hAll n hSmall (Option.some.inj h)
      next hLarge =>
        obtain ⟨c, more, hFront⟩ := List.exists_cons_of_ne_nil (natDigits_ne_nil (n / 10))
        rw [hFront] at h
        have hZero := ih (n / 10) (by omega) (by rw [hFront]; exact h)
        omega

/-- Decimal digits are read as the number they stand for. -/
theorem readNat?_eq {digits : List Char} (hNe : digits ≠ [])
    (hDigits : ∀ c ∈ digits, isAsciiDigit c = true) : readNat? digits = some (valueOf digits) := by
  have hFold : ∀ (text : List Char) (n : Nat), (∀ c ∈ text, isAsciiDigit c = true) →
      text.foldl (fun acc c => do return (← acc) * 10 + (← digitValue? c)) (some n) =
        some (text.foldl (fun acc c => acc * 10 + (c.toNat - 48)) n) := fun text => by
    induction text with
    | nil => exact fun n _ => rfl
    | cons c text ih =>
        intro n hAll
        have hValue : digitValue? c = some (c.toNat - 48) := if_pos (hAll c List.mem_cons_self)
        rw [List.foldl_cons, List.foldl_cons, hValue]
        exact ih _ fun d hd => hAll d (List.mem_cons_of_mem _ hd)
  cases digits with
  | nil => exact absurd rfl hNe
  | cons c digits => exact hFold _ 0 hDigits

/-- The digits of a text stand for more, the more of them follow. -/
theorem valueOf_append (front digits : List Char) :
    valueOf (front ++ digits) = valueOf front * 10 ^ digits.length + valueOf digits := by
  have hFold : ∀ (digits : List Char) (n : Nat),
      digits.foldl (fun acc c => acc * 10 + (c.toNat - 48)) n =
        n * 10 ^ digits.length + valueOf digits := fun digits => by
    induction digits with
    | nil => exact fun n => by simp [valueOf]
    | cons c digits ih =>
        intro n
        have hHead : valueOf (c :: digits) =
            (c.toNat - 48) * 10 ^ digits.length + valueOf digits := by
          rw [valueOf, List.foldl_cons, Nat.zero_mul, Nat.zero_add]
          exact ih (c.toNat - 48)
        rw [List.foldl_cons, ih, hHead, List.length_cons, Nat.pow_succ]
        ring
  have hSplit := hFold digits (valueOf front)
  rwa [valueOf, ← List.foldl_append] at hSplit

theorem valueOf_zeros (count : Nat) : valueOf (List.replicate count '0') = 0 := by
  induction count with
  | zero => rfl
  | succ count ih =>
      have hZero : valueOf ['0'] = 0 := rfl
      rw [List.replicate_succ, ← List.singleton_append, valueOf_append, ih, hZero, Nat.zero_mul]

theorem valueOf_paddedDigits (width n : Nat) : valueOf (paddedDigits width n) = n := by
  rw [paddedDigits, valueOf_append, valueOf_zeros, valueOf_natDigits, Nat.zero_mul, Nat.zero_add]

theorem paddedDigits_injective {width m n : Nat} (h : paddedDigits width m = paddedDigits width n) :
    m = n := by
  rw [← valueOf_paddedDigits width m, h, valueOf_paddedDigits]

theorem isAsciiDigit_of_mem_paddedDigits {width n : Nat} {c : Char} (h : c ∈ paddedDigits width n) :
    isAsciiDigit c = true := by
  rcases List.mem_append.mp h with hZero | hDigit
  · rw [List.eq_of_mem_replicate hZero]
    decide
  · exact isAsciiDigit_of_mem_natDigits hDigit

theorem notMem_paddedDigits {c : Char} (h : isAsciiDigit c = false) (width n : Nat) :
    c ∉ paddedDigits width n :=
  fun hMem => ne_of_isAsciiDigit (isAsciiDigit_of_mem_paddedDigits hMem) h rfl

/-- A number has as many digits as it takes powers of ten. -/
theorem lt_pow_length_natDigits (n : Nat) : n < 10 ^ (natDigits n).length := by
  induction n using Nat.strongRecOn with
  | ind n ih =>
      unfold natDigits
      split
      next hSmall => simpa using hSmall
      next hLarge =>
        have hFront := ih (n / 10) (by omega)
        rw [List.length_append, List.length_singleton, Nat.pow_succ]
        omega

theorem pow_length_natDigits_le {n : Nat} (h : 0 < n) : 10 ^ ((natDigits n).length - 1) ≤ n := by
  induction n using Nat.strongRecOn with
  | ind n ih =>
      unfold natDigits
      split
      next hSmall => exact h
      next hLarge =>
        have hFront := ih (n / 10) (by omega) (by omega)
        have hSome := List.length_pos_iff.mpr (natDigits_ne_nil (n / 10))
        rw [List.length_append, List.length_singleton, Nat.add_sub_cancel]
        obtain ⟨length, hLength⟩ := Nat.exists_eq_add_one_of_ne_zero (Nat.ne_of_gt hSome)
        rw [hLength, Nat.add_sub_cancel] at hFront
        rw [hLength, Nat.pow_succ]
        omega

theorem length_natDigits_le {n : Nat} (width : Nat) (hWidth : 0 < width) (h : n < 10 ^ width) :
    (natDigits n).length ≤ width := by
  rcases Nat.eq_zero_or_pos n with rfl | hPos
  · exact Nat.le_trans (Nat.le_of_eq (by rw [natDigits]; rfl)) hWidth
  · have hLess := Nat.lt_of_le_of_lt (pow_length_natDigits_le hPos) h
    have hExponents := (Nat.pow_lt_pow_iff_right (by decide)).mp hLess
    omega

theorem length_paddedDigits {n : Nat} (width : Nat) (hWidth : 0 < width) (h : n < 10 ^ width) :
    (paddedDigits width n).length = width := by
  have hFits := length_natDigits_le width hWidth h
  rw [paddedDigits, List.length_append, List.length_replicate]
  omega

/-- A number of enough digits is not padded. -/
theorem paddedDigits_of_le {n : Nat} (width : Nat) (h : 10 ^ width ≤ n) :
    paddedDigits (width + 1) n = natDigits n := by
  have hLess := Nat.lt_of_le_of_lt h (lt_pow_length_natDigits n)
  have hExponents := (Nat.pow_lt_pow_iff_right (by decide)).mp hLess
  rw [paddedDigits, Nat.sub_eq_zero_of_le hExponents, List.replicate_zero, List.nil_append]

theorem hexValue?_digitChar {value : Nat} (h : value < 16) :
    hexValue? (digitChar value) = some value := by
  have hAll : ∀ value < 16, hexValue? (digitChar value) = some value := by decide
  exact hAll value h

theorem intDigits_injective {m n : Int} (h : intDigits m = intDigits n) : m = n := by
  have hMinus : ∀ k : Nat, '-' ∉ natDigits k := notMem_natDigits (by decide)
  unfold intDigits at h
  split at h <;> split at h
  next hm hn =>
    have := natDigits_injective (List.cons.inj h).2
    omega
  next => exact absurd (h ▸ List.mem_cons_self) (hMinus _)
  next => exact absurd (h ▸ List.mem_cons_self) (hMinus _)
  next hm hn =>
    have := natDigits_injective h
    omega

theorem colon_notMem_intDigits (n : Int) : ':' ∉ intDigits n := by
  have hNat : ':' ∉ natDigits n.natAbs := notMem_natDigits (by decide) _
  unfold intDigits
  split
  · rw [List.mem_cons, not_or]
    exact ⟨by decide, hNat⟩
  · exact hNat

/-- What stands before and after the first separator is determined by the whole. -/
theorem eq_of_append_separator {separator : Char} {front front' rest rest' : List Char}
    (hFront : separator ∉ front) (hFront' : separator ∉ front')
    (h : front ++ separator :: rest = front' ++ separator :: rest') :
    front = front' ∧ rest = rest' := by
  induction front generalizing front' with
  | nil =>
      cases front' with
      | nil => exact ⟨rfl, (List.cons.inj h).2⟩
      | cons c front' =>
          obtain rfl : separator = c := (List.cons.inj h).1
          exact absurd List.mem_cons_self hFront'
  | cons c front ih =>
      cases front' with
      | nil =>
          obtain rfl : c = separator := (List.cons.inj h).1
          exact absurd List.mem_cons_self hFront
      | cons c' front' =>
          obtain ⟨rfl, hRest⟩ := List.cons.inj h
          rw [List.mem_cons, not_or] at hFront hFront'
          obtain ⟨rfl, hSame⟩ := ih hFront.2 hFront'.2 hRest
          exact ⟨rfl, hSame⟩

/-- A number before a colon can be told from what follows. -/
theorem intText_colon {m n : Int} {rest rest' : String}
    (h : intText m ++ ":" ++ rest = intText n ++ ":" ++ rest') : m = n := by
  have hChars := congrArg String.toList h
  simp only [String.toList_append, intText, String.toList_ofList, List.append_assoc] at hChars
  exact intDigits_injective
    (eq_of_append_separator (colon_notMem_intDigits m) (colon_notMem_intDigits n) hChars).1

end Triage.Text
