import Mathlib
import Triage.Number.Binary64

/-!
# Bits and signs of numbers

A number of the format is its magnitude with its sign (`ofBits_withSign`), and a finite one has a
magnitude below that of infinity (`magnitudeBits_lt`).

The whole of Mathlib is imported for the facts on the bits of floats, which none of its parts has.
-/

namespace Triage.Binary64

/-- The bits of a number without its sign. -/
def magnitudeBits (value : Float) : UInt64 := value.toBits &&& 0x7FFFFFFFFFFFFFFF

theorem toNat_magnitudeBits (value : Float) :
    (magnitudeBits value).toNat = value.toBits.toNat % 2 ^ 63 := by
  rw [magnitudeBits, UInt64.toNat_and]
  exact Nat.and_two_pow_sub_one_eq_mod _ 63

/-- A number is its magnitude with its sign. -/
theorem withSign_magnitudeBits (value : Float) :
    withSign (decide (Nat.pow 2 63 ≤ value.toBits.toNat)) (magnitudeBits value) = value.toBits := by
  have hRange := value.toBits.toNat_lt
  have hMagnitude := toNat_magnitudeBits value
  rw [← UInt64.toNat_inj, withSign, Nat.pow_eq]
  split
  next hNegative =>
    rw [decide_eq_true_eq] at hNegative
    have hSign := Nat.two_pow_add_eq_or_of_lt (i := 63) (b := value.toBits.toNat % 2 ^ 63)
      (Nat.mod_lt _ (by decide)) 1
    rw [UInt64.toNat_or, hMagnitude, Nat.or_comm]
    refine Eq.trans (b := 2 ^ 63 * 1 + value.toBits.toNat % 2 ^ 63) hSign.symm ?_
    omega
  next hPositive =>
    rw [decide_eq_true_eq] at hPositive
    rw [hMagnitude]
    omega

theorem ofBits_withSign (value : Float) :
    Float.ofBits (withSign (decide (Nat.pow 2 63 ≤ value.toBits.toNat)) (magnitudeBits value)) =
      value := by
  rw [withSign_magnitudeBits, Float.ofBits_toBits]

open Float.Model in
/-- The exponent of a finite number is not the greatest one. -/
theorem magnitudeBits_lt {value : Float} (h : value.isFinite = true) :
    magnitudeBits value < infinityBits := by
  have hExponent : @UnpackedFloat.unpackExponent Format.binary64
      value.toModel.toBits.toBitVec ≠ -1#11 := by
    intro hOnes
    rw [Float.isFinite, Float.Model.isFinite, Float.Model.unpack, UnpackedFloat.unpack] at h
    dsimp only at h
    rw [if_pos hOnes] at h
    split at h <;> cases h
  have hField : value.toBits.toNat / 2 ^ 52 % 2 ^ 11 ≠ 2047 := by
    rwa [UnpackedFloat.unpackExponent_def, ne_eq, ← BitVec.toNat_inj, BitVec.extractLsb'_toNat,
      Nat.shiftRight_eq_div_pow] at hExponent
  have hMagnitude := toNat_magnitudeBits value
  have hInfinity : infinityBits.toNat = 2047 * 2 ^ 52 := rfl
  rw [UInt64.lt_iff_toNat_lt, hMagnitude, hInfinity]
  omega

theorem isInf_of_isFinite {value : Float} (h : value.isFinite = true) : value.isInf = false := by
  rw [Float.isFinite, Float.Model.isFinite] at h
  rw [Float.isInf, Float.Model.isInf]
  cases hParts : value.toModel.unpack <;> rw [hParts] at h <;> first | rfl | cases h

end Triage.Binary64
