import Mathlib.Algebra.Order.Floor.Semifield
import Mathlib.Data.Nat.Cast.Order.Field
import Triage.Proofs.Number.Bits
import Triage.Proofs.Number.Rounding
import Triage.Proofs.Text.Numerals

/-!
# Shortest decimals read back

A decimal is rounded as its value, although decimals far outside the range of the format are moved to
its edges (`nearest?_decimalFraction`).  The search for the shortest decimal of a finite value finds
one that reads back (`nearestTo?_shortest`).  So a decimal of the same sign and value as the shortest
one is shown as the shortest one (`canonical_eq_shortest`).
-/

namespace Triage.Decimal

/-- The value of a decimal without its sign. -/
def magnitude (d : Decimal) : ℚ := d.digits * 10 ^ d.exponent

theorem trimZeros_spec (fuel digits : Nat) (exponent : Int) :
    ((trimZeros fuel digits exponent).1 : ℚ) * 10 ^ (trimZeros fuel digits exponent).2 =
      digits * 10 ^ exponent := by
  induction fuel generalizing digits exponent with
  | zero => rfl
  | succ fuel ih =>
      rw [trimZeros]
      split
      next hZero =>
        have hTen : ((digits / 10 : ℕ) : ℚ) * 10 = digits := by
          exact_mod_cast Nat.div_mul_cancel (Nat.dvd_of_mod_eq_zero hZero)
        rw [ih, zpow_add_one₀ (by norm_num), ← mul_assoc, mul_right_comm, hTen]
      next => rfl

theorem magnitude_normal (d : Decimal) : d.normal.magnitude = d.magnitude := by
  rw [normal]
  split
  next hZero => simp [magnitude, hZero]
  next => exact trimZeros_spec _ _ _

theorem negative_normal (d : Decimal) : d.normal.negative = d.negative := by
  rw [normal]
  split <;> rfl

end Triage.Decimal

namespace Triage.Binary64

/-! ## Decimals as fractions -/

theorem lt_of_length_natDigits (n : Nat) (power : Int) :
    (n : ℚ) * 10 ^ power < 10 ^ ((Text.natDigits n).length + power) := by
  rw [zpow_add₀ (by norm_num), zpow_natCast]
  gcongr
  exact_mod_cast Text.lt_pow_length_natDigits n

theorem le_of_length_natDigits {n : Nat} (h : 0 < n) (power : Int) :
    (10 : ℚ) ^ ((Text.natDigits n).length + power - 1) ≤ n * 10 ^ power := by
  have hSome := List.length_pos_iff.mpr (Text.natDigits_ne_nil n)
  have hSplit : ((Text.natDigits n).length : Int) + power - 1 =
      ((Text.natDigits n).length - 1 : ℕ) + power := by omega
  rw [hSplit, zpow_add₀ (by norm_num), zpow_natCast]
  gcongr
  exact_mod_cast Text.pow_length_natDigits_le h

/-- Decimals are moved to the edges only far outside the range of the format. -/
theorem two_pow_le_ten_pow {k power : Nat} (hk : k ≤ 1080) (hPower : 400 ≤ power) :
    (2 : ℚ) ^ k ≤ 10 ^ power := by
  calc (2 : ℚ) ^ k ≤ 2 ^ (20 * 54) := pow_le_pow_right₀ (by norm_num) hk
    _ = (2 ^ 20) ^ 54 := pow_mul _ _ _
    _ ≤ (10 ^ 7) ^ 54 := by gcongr; norm_num
    _ = 10 ^ (7 * 54) := (pow_mul _ _ _).symm
    _ ≤ 10 ^ power := pow_le_pow_right₀ (by norm_num) (Nat.le_trans (by norm_num) hPower)

theorem nearest?_ten_pow {power : Nat} (h : 400 ≤ power) :
    nearest? (Nat.pow 10 power) 1 = none := by
  have hLarge := two_pow_le_ten_pow (k := 1024) (by norm_num) h
  rw [nearest?_eq _ Nat.one_pos, Nat.cast_one, div_one, Nat.pow_eq, Nat.cast_pow, Nat.cast_ofNat,
    nearestTo?_of_large hLarge]

/-- A decimal is rounded as its value. -/
theorem nearest?_decimalFraction (d : Decimal) :
    nearest? (decimalFraction d).1 (decimalFraction d).2 = nearestTo? d.magnitude := by
  rw [decimalFraction]
  by_cases hZero : d.digits = 0
  · rw [if_pos (by simp [hZero]), nearest?_eq _ Nat.one_pos]
    simp [Decimal.magnitude, hZero]
  have hPos : 0 < d.digits := Nat.pos_of_ne_zero hZero
  have hMagnitude : 0 < d.magnitude := by
    rw [Decimal.magnitude]
    positivity
  have hMost := lt_of_length_natDigits d.digits d.exponent
  have hLeast := le_of_length_natDigits hPos d.exponent
  split_ifs with hTiny hHuge hWhole
  · have hSmall : d.magnitude < 2 ^ (-1075 : Int) := by
      have hSize : ((Text.natDigits d.digits).length : Int) + d.exponent ≤ -400 := by
        simp [hZero] at hTiny
        omega
      calc d.magnitude < 10 ^ (((Text.natDigits d.digits).length : Int) + d.exponent) := hMost
        _ ≤ (10 : ℚ) ^ (-400 : Int) := by gcongr; norm_num
        _ = (10 ^ 400)⁻¹ := zpow_neg_coe_of_pos _ (by norm_num)
        _ ≤ (2 ^ 1075)⁻¹ := inv_anti₀ (by positivity)
          (two_pow_le_ten_pow (by norm_num) (Nat.le_refl 400))
        _ = 2 ^ (-1075 : Int) := (zpow_neg_coe_of_pos _ (by norm_num)).symm
    rw [nearestTo?_of_small hMagnitude hSmall, nearest?, if_pos rfl]
  · have hLarge : (2 : ℚ) ^ 1024 ≤ d.magnitude := by
      have hSize : (10 : ℚ) ^ (400 : Int) ≤
          10 ^ (((Text.natDigits d.digits).length : Int) + d.exponent - 1) :=
        zpow_le_zpow_right₀ (by norm_num) (by omega)
      rw [zpow_ofNat] at hSize
      have hEdge := two_pow_le_ten_pow (k := 1024) (by norm_num) (Nat.le_refl 400)
      exact (hEdge.trans hSize).trans hLeast
    rw [nearestTo?_of_large hLarge]
    obtain ⟨edge, hEdge⟩ : ∃ edge : ℕ, edge = 400 := ⟨_, rfl⟩
    rw [← hEdge]
    exact nearest?_ten_pow hEdge.ge
  · rw [nearest?_eq _ Nat.one_pos, Decimal.magnitude]
    lift d.exponent to ℕ using hWhole with k
    simp
  · have hDen : 0 < Nat.pow 10 (-d.exponent).toNat := Nat.pow_pos (by decide)
    rw [nearest?_eq d.digits hDen, Decimal.magnitude]
    obtain ⟨k, hk⟩ : ∃ k : ℕ, d.exponent = -k := ⟨d.exponent.natAbs, by omega⟩
    rw [hk]
    simp [div_eq_mul_inv]

/-! ## The search for the shortest decimal -/

/-- Points of a grid of powers of ten are rounded as their values. -/
theorem nearest?_gridPoint (point : Nat) (power : Int) :
    (if 0 ≤ power then nearest? (point * Nat.pow 10 power.toNat) 1
      else nearest? point (Nat.pow 10 (-power).toNat)) = nearestTo? (point * 10 ^ power) := by
  split
  next hWhole =>
    rw [nearest?_eq _ Nat.one_pos]
    lift power to ℕ using hWhole
    simp
  next hPart =>
    have hDen : 0 < Nat.pow 10 (-power).toNat := Nat.pow_pos (by decide)
    rw [nearest?_eq point hDen]
    obtain ⟨k, rfl⟩ : ∃ k : ℕ, power = -k := ⟨power.natAbs, by omega⟩
    simp [div_eq_mul_inv]

/-- The lower neighbour on a grid is not above the value, and less than one step below it. -/
theorem gridNeighbours_spec (num : Nat) {den : Nat} (hDen : 0 < den) (power : Int) :
    ((gridNeighbours num den power).1 : ℚ) * 10 ^ power ≤ num / den ∧
      (num : ℚ) / den < ((gridNeighbours num den power).1 + 1) * 10 ^ power := by
  have hStep : (0 : ℚ) < 10 ^ power := by positivity
  have hFloor : (gridNeighbours num den power).1 = ⌊(num : ℚ) / den / 10 ^ power⌋₊ := by
    rw [gridNeighbours]
    dsimp only
    split
    next hWhole =>
      lift power to ℕ using hWhole
      rw [← Nat.floor_div_eq_div (K := ℚ)]
      simp [div_div]
    next hPart =>
      obtain ⟨k, rfl⟩ : ∃ k : ℕ, power = -k := ⟨power.natAbs, by omega⟩
      rw [← Nat.floor_div_eq_div (K := ℚ)]
      simp [div_mul_eq_mul_div]
  have hLow := Nat.floor_le (a := (num : ℚ) / den / 10 ^ power) (by positivity)
  have hHigh := Nat.lt_floor_add_one ((num : ℚ) / den / 10 ^ power)
  rw [← hFloor] at hLow hHigh
  exact ⟨(le_div_iff₀ hStep).mp hLow, (div_lt_iff₀ hStep).mp hHigh⟩

/-- The search ends with a decimal that reads back, if the last grid has one. -/
theorem nearestTo?_shortestFrom {bits : UInt64} {num den fuel : Nat} {power : Int}
    (h : nearestTo? ((gridNeighbours num den (power - fuel)).1 * 10 ^ (power - fuel)) = some bits) :
    nearestTo? ((shortestFrom bits num den fuel power).1 *
      10 ^ (shortestFrom bits num den fuel power).2) = some bits := by
  induction fuel generalizing power with
  | zero => simpa [shortestFrom] using h
  | succ fuel ih =>
      rw [shortestFrom]
      simp only [nearest?_gridPoint]
      split
      next hLow hHigh =>
        rw [beq_iff_eq] at hLow hHigh
        split
        · exact hLow
        · exact hHigh
      next hLow _ => exact beq_iff_eq.mp hLow
      next _ hHigh => exact beq_iff_eq.mp hHigh
      next =>
        refine ih ?_
        rwa [sub_sub, add_comm (1 : ℤ), ← Nat.cast_succ]

/-- Nineteen digits are enough for a decimal to read back. -/
theorem nearestTo?_search {bits : UInt64} {num den : Nat} {top : Int} (hFinite : bits < infinityBits)
    (hDen : 0 < den) (hPos : 0 < valueOf bits) (hValue : (num : ℚ) / den = valueOf bits)
    (hTop : (10 : ℚ) ^ (top - 1) ≤ num / den) :
    nearestTo? ((shortestFrom bits num den 20 top).1 * 10 ^ (shortestFrom bits num den 20 top).2) =
      some bits := by
  obtain ⟨hBelow, hAbove⟩ := gridNeighbours_spec num hDen (top - (20 : ℕ))
  -- A step of the last grid is less than the 2⁶⁰th part of the value, so its lower neighbour is so
  -- close that it is rounded to the value.
  have hStep : (10 : ℚ) ^ (top - (20 : ℕ)) ≤ valueOf bits * (1 / 2 ^ 60) := by
    calc (10 : ℚ) ^ (top - (20 : ℕ)) = 10 ^ (top - 1) * 10 ^ (-19 : Int) := by
          rw [← zpow_add₀ (by norm_num)]
          congr 1
          omega
      _ ≤ valueOf bits * (1 / 2 ^ 60) :=
          mul_le_mul (hTop.trans_eq hValue) (by norm_num) (by positivity) hPos.le
  rw [hValue] at hBelow hAbove
  have hNear : valueOf bits * (1 - 1 / 2 ^ 60) ≤
      (gridNeighbours num den (top - (20 : ℕ))).1 * 10 ^ (top - (20 : ℕ)) := by
    rw [add_mul, one_mul] at hAbove
    rw [mul_sub, mul_one, sub_le_iff_le_add]
    exact hAbove.le.trans (add_le_add_right hStep _)
  exact nearestTo?_shortestFrom (nearestTo?_below hFinite hPos hBelow hNear)

/-- The power of ten below which the search starts is not above the value. -/
theorem ten_pow_top_le {num den : Nat} (hNum : 0 < num) (hDen : 0 < den) :
    (10 : ℚ) ^ ((if den ≤ num then ((Text.natDigits (num / den)).length : Int)
      else 1 - ((Text.natDigits (den / num)).length : Int)) - 1) ≤ num / den := by
  have hDenPos : (0 : ℚ) < den := Nat.cast_pos.mpr hDen
  split
  next hLarge =>
    have hLeast := le_of_length_natDigits (Nat.div_pos hLarge hDen) 0
    rw [add_zero, zpow_zero, mul_one] at hLeast
    exact hLeast.trans Nat.cast_div_le
  next hSmall =>
    have hMost := Text.lt_pow_length_natDigits (den / num)
    have hWhole : den < 10 ^ (Text.natDigits (den / num)).length * num :=
      (Nat.div_lt_iff_lt_mul hNum).mp hMost
    rw [sub_sub_cancel_left, zpow_neg, zpow_natCast, le_div_iff₀ hDenPos,
      inv_mul_le_iff₀ (by positivity)]
    exact_mod_cast hWhole.le

theorem dyadic_eq (m : Nat) (e : Int) :
    ((dyadic m e).1 : ℚ) / (dyadic m e).2 = m * 2 ^ e := by
  rw [dyadic]
  split
  next hWhole =>
    lift e to ℕ using hWhole
    simp
  next hPart =>
    obtain ⟨k, rfl⟩ : ∃ k : ℕ, e = -k := ⟨e.natAbs, by omega⟩
    simp [div_eq_mul_inv]

theorem dyadic_pos {m : Nat} (hPos : 0 < m) (e : Int) :
    0 < (dyadic m e).1 ∧ 0 < (dyadic m e).2 := by
  rw [dyadic]
  split
  · exact ⟨Nat.mul_pos hPos (Nat.pow_pos (by decide)), Nat.one_pos⟩
  · exact ⟨hPos, Nat.pow_pos (by decide)⟩

/-- Only the magnitude zero has no digits. -/
theorem exactMagnitude_pos {bits : UInt64} (hFinite : bits < infinityBits) (hBits : bits ≠ 0) :
    0 < (exactMagnitude bits).1 := by
  obtain ⟨hPack, -, -, hNormal⟩ := exactMagnitude_spec hFinite
  by_contra hNone
  have hZero := Nat.eq_zero_of_not_pos hNone
  have hLeast : (exactMagnitude bits).2 = -1074 := by omega
  rw [hZero, hLeast] at hPack
  have hPacked : pack? 0 (-1074) = some 0 := by decide
  exact hBits (Option.some.inj (hPack.symm.trans hPacked))

/-- The shortest decimal of a finite value is rounded to it. -/
theorem nearestTo?_shortest {value : Float} (hFinite : value.isFinite = true) :
    nearestTo? (shortest value).magnitude = some (magnitudeBits value) := by
  have hBits := magnitudeBits_lt hFinite
  rw [shortest]
  change nearestTo? (Decimal.magnitude (if magnitudeBits value = 0 then _ else _)) = _
  split
  next hZero => rw [hZero, Decimal.magnitude, Nat.cast_zero, zero_mul, nearestTo?_zero]
  next hSome =>
    have hDigits := exactMagnitude_pos hBits hSome
    obtain ⟨hNum, hDen⟩ := dyadic_pos hDigits (exactMagnitude (magnitudeBits value)).2
    have hPos : 0 < valueOf (magnitudeBits value) := by
      rw [valueOf]
      positivity
    dsimp only
    rw [Decimal.magnitude_normal]
    exact nearestTo?_search hBits hDen hPos (dyadic_eq _ _) (ten_pow_top_le hNum hDen)

theorem negative_shortest (value : Float) :
    (shortest value).negative = decide (Nat.pow 2 63 ≤ value.toBits.toNat) := by
  rw [shortest]
  dsimp only
  split
  · rfl
  · exact Decimal.negative_normal _

/-- A decimal of the sign and the value of the shortest one is kept as the same number. -/
theorem ofDecimal_eq {value : Float} (hFinite : value.isFinite = true) {d : Decimal}
    (hSign : d.negative = (shortest value).negative)
    (hMagnitude : d.magnitude = (shortest value).magnitude) : ofDecimal d = value := by
  rw [ofDecimal]
  dsimp only
  rw [nearest?_decimalFraction, hMagnitude, nearestTo?_shortest hFinite, Option.getD_some, hSign,
    negative_shortest, ofBits_withSign]

/-- A decimal of the sign and the value of the shortest one is shown as the shortest one. -/
theorem canonical_eq_shortest {value : Float} (hFinite : value.isFinite = true) {d : Decimal}
    (hSign : d.negative = (shortest value).negative)
    (hMagnitude : d.magnitude = (shortest value).magnitude) : canonical d = shortest value := by
  rw [canonical, ofDecimal_eq hFinite hSign hMagnitude]
  rw [isInf_of_isFinite hFinite, if_neg (by decide)]

end Triage.Binary64
