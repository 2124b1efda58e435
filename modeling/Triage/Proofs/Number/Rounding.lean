import Mathlib.Algebra.Order.Field.Power
import Mathlib.Data.Int.Log
import Mathlib.Data.Rat.Floor
import Mathlib.Tactic.FieldSimp
import Mathlib.Tactic.Linarith
import Mathlib.Tactic.NormNum
import Mathlib.Tactic.Positivity
import Mathlib.Tactic.Ring
import Triage.Number.Binary64

/-!
# Rounding to binary64

What `nearest?` gives for a fraction depends on the rational number alone (`nearest?_eq`).  A number
just below a finite value is rounded to it (`nearestTo?_below`), where the distance may be a small
part of the value.  Nothing is nearest beyond the range of the format (`nearestTo?_of_large`), and
zero is nearest to the smallest numbers (`nearestTo?_of_small`).
-/

namespace Triage.Binary64

/-! ## Rounding to whole numbers -/

theorem roundQuotient_mul_left {k : Nat} (hk : 0 < k) (num den : Nat) :
    roundQuotient (k * num) (k * den) = roundQuotient num den := by
  have hLess (a b : Nat) : k * a < k * b ↔ a < b := Nat.mul_lt_mul_left hk
  rw [roundQuotient, roundQuotient, Nat.mul_div_mul_left _ _ hk, Nat.mul_mod_mul_left,
    Nat.mul_left_comm]
  simp only [hLess, gt_iff_lt]

/-- Equal quotients are rounded alike. -/
theorem roundQuotient_congr {num den num' den' : Nat} (hDen : 0 < den) (hDen' : 0 < den')
    (h : num * den' = num' * den) : roundQuotient num den = roundQuotient num' den' := by
  rw [← roundQuotient_mul_left hDen' num den, ← roundQuotient_mul_left hDen num' den',
    Nat.mul_comm den' num, h, Nat.mul_comm num', Nat.mul_comm den' den]

/-- The whole number less than a half away is the nearest one. -/
theorem roundQuotient_eq {num den k : Nat} (hDen : 0 < den) (hLow : (k : ℚ) - 1 / 2 < num / den)
    (hHigh : (num : ℚ) / den < k + 1 / 2) : roundQuotient num den = k := by
  have hPos : (0 : ℚ) < den := Nat.cast_pos.mpr hDen
  have hBelow : 2 * (k * den) < 2 * num + den := by
    rw [lt_div_iff₀ hPos] at hLow
    have hCast : (2 * (k * den) : ℚ) < 2 * num + den := by linarith
    exact_mod_cast hCast
  have hAbove : 2 * num < 2 * (k * den) + den := by
    rw [div_lt_iff₀ hPos] at hHigh
    have hCast : (2 * num : ℚ) < 2 * (k * den) + den := by linarith
    exact_mod_cast hCast
  have hSplit := Nat.div_add_mod num den
  have hRest := Nat.mod_lt num hDen
  rw [roundQuotient]
  generalize num / den = q at hSplit ⊢
  generalize num % den = r at hSplit hRest ⊢
  rw [Nat.mul_comm] at hSplit
  have hLeast : q ≤ k := by
    by_contra hLess
    have hStep := Nat.mul_le_mul_right den (Nat.succ_le_of_lt (Nat.lt_of_not_le hLess))
    rw [Nat.succ_mul] at hStep
    omega
  have hMost : k ≤ q + 1 := by
    by_contra hMore
    have hStep := Nat.mul_le_mul_right den (Nat.succ_le_of_lt (Nat.lt_of_not_le hMore))
    rw [Nat.succ_mul, Nat.succ_mul] at hStep
    omega
  rcases Nat.eq_or_lt_of_le hLeast with rfl | hMore
  · rw [if_pos (by omega)]
  · obtain rfl : k = q + 1 := by omega
    rw [Nat.succ_mul q] at hBelow hAbove
    rw [if_neg (by omega), if_pos (by omega)]

/-! ## The scale of a value -/

theorem log_lt_iff {x : ℚ} (h : 0 < x) {k : Int} : Int.log 2 x < k ↔ x < 2 ^ k := by
  exact_mod_cast (Int.lt_zpow_iff_log_lt (by norm_num) h).symm

theorem le_log_iff {x : ℚ} (h : 0 < x) {k : Int} : k ≤ Int.log 2 x ↔ 2 ^ k ≤ x := by
  exact_mod_cast (Int.zpow_le_iff_le_log (by norm_num) h).symm

theorem scaled_pos (num : Nat) {den : Nat} (hDen : 0 < den) (scale : Int) :
    0 < (scaled num den scale).2 := by
  rw [scaled]
  split
  · exact Nat.mul_pos hDen (Nat.pow_pos (by decide))
  · exact hDen

theorem scaled_eq (num den : Nat) (scale : Int) :
    ((scaled num den scale).1 : ℚ) / (scaled num den scale).2 = (num : ℚ) / den / 2 ^ scale := by
  rw [scaled]
  split
  next hUp =>
    lift scale to ℕ using hUp
    simp [div_div]
  next hDown =>
    obtain ⟨k, rfl⟩ : ∃ k : ℕ, scale = -k := ⟨scale.natAbs, by omega⟩
    simp only [neg_neg, Int.toNat_natCast, zpow_neg, zpow_natCast]
    rw [Nat.cast_mul]
    simp
    ring

/-- A scale is fine enough for a value below the power of two that goes with it. -/
theorem scaled_div_lt {num den : Nat} (hDen : 0 < den) (hNum : 0 < num) (scale : Int) :
    (scaled num den scale).1 / (scaled num den scale).2 < Nat.pow 2 53 ↔
      Int.log 2 ((num : ℚ) / den) < scale + 53 := by
  have hPos : (0 : ℚ) < (scaled num den scale).2 := Nat.cast_pos.mpr (scaled_pos num hDen scale)
  have hValue : (0 : ℚ) < (num : ℚ) / den := by positivity
  have hPower : (2 : ℚ) ^ (scale + 53) = 2 ^ 53 * 2 ^ scale := by
    rw [zpow_add₀ (by norm_num), mul_comm]
    norm_num
  rw [Nat.div_lt_iff_lt_mul (scaled_pos num hDen scale),
    log_lt_iff hValue, hPower,
    ← div_lt_iff₀ (by positivity : (0 : ℚ) < 2 ^ scale), ← scaled_eq, div_lt_iff₀ hPos]
  norm_cast

/-- The scale at which a value has 53 binary digits, or the least scale there is. -/
def scaleOf (x : ℚ) : Int := max (Int.log 2 x - 52) (-1074)

/-- A whole number of units of a scale, in bits; a carry goes to the next scale. -/
def pack? (q : Nat) (scale : Int) : Option UInt64 :=
  let (q, scale) := if q = Nat.pow 2 53 then (Nat.pow 2 52, scale + 1) else (q, scale)
  if 971 < scale then none
  else if q < Nat.pow 2 52 then some (UInt64.ofNat q)
  else some (UInt64.ofNat ((scale + 1075).toNat * Nat.pow 2 52 + (q - Nat.pow 2 52)))

theorem log_div_le {num den : Nat} (hNum : 0 < num) (hDen : 0 < den) :
    Int.log 2 ((num : ℚ) / den) ≤ (num.log2 : Int) - den.log2 ∧
      (num.log2 : Int) - den.log2 ≤ Int.log 2 ((num : ℚ) / den) + 1 := by
  have hValue : (0 : ℚ) < (num : ℚ) / den := by positivity
  have hDenPos : (0 : ℚ) < den := Nat.cast_pos.mpr hDen
  have hNumLow : (2 : ℚ) ^ (num.log2 : Int) ≤ num := by
    exact_mod_cast Nat.log2_self_le (Nat.ne_of_gt hNum)
  have hNumHigh : (num : ℚ) < 2 ^ ((num.log2 : Int) + 1) := by
    exact_mod_cast Nat.lt_log2_self (n := num)
  have hDenLow : (2 : ℚ) ^ (den.log2 : Int) ≤ den := by
    exact_mod_cast Nat.log2_self_le (Nat.ne_of_gt hDen)
  have hDenHigh : (den : ℚ) < 2 ^ ((den.log2 : Int) + 1) := by
    exact_mod_cast Nat.lt_log2_self (n := den)
  constructor
  · rw [← Int.lt_add_one_iff, log_lt_iff hValue, div_lt_iff₀ hDenPos]
    calc (num : ℚ) < 2 ^ ((num.log2 : Int) + 1) := hNumHigh
      _ = 2 ^ ((num.log2 : Int) - den.log2 + 1) * 2 ^ (den.log2 : Int) := by
        rw [← zpow_add₀ (by norm_num)]
        congr 1
        omega
      _ ≤ 2 ^ ((num.log2 : Int) - den.log2 + 1) * den := by gcongr
  · rw [← sub_le_iff_le_add, le_log_iff hValue, le_div_iff₀ hDenPos]
    calc (2 : ℚ) ^ ((num.log2 : Int) - den.log2 - 1) * den
        ≤ 2 ^ ((num.log2 : Int) - den.log2 - 1) * 2 ^ ((den.log2 : Int) + 1) := by gcongr
      _ = 2 ^ (num.log2 : Int) := by
        rw [← zpow_add₀ (by norm_num)]
        congr 1
        omega
      _ ≤ num := hNumLow

/-- The scale is found from the numbers of binary digits. -/
theorem nearest?_eq_pack? {num den : Nat} (hNum : 0 < num) (hDen : 0 < den) :
    nearest? num den =
      pack? (roundQuotient (scaled num den (scaleOf (num / den))).1
        (scaled num den (scaleOf (num / den))).2) (scaleOf (num / den)) := by
  obtain ⟨hMost, hLeast⟩ := log_div_le hNum hDen
  rw [nearest?, if_neg (Nat.ne_of_gt hNum)]
  simp only [scaled_div_lt hDen hNum, decide_eq_true_eq]
  have hScale : (if Int.log 2 ((num : ℚ) / den) < (num.log2 : Int) - den.log2 - 52 - 1 + 53 then
        (num.log2 : Int) - den.log2 - 52 - 1
      else if Int.log 2 ((num : ℚ) / den) < (num.log2 : Int) - den.log2 - 52 + 53 then
        (num.log2 : Int) - den.log2 - 52
      else (num.log2 : Int) - den.log2 - 52 + 1) = Int.log 2 ((num : ℚ) / den) - 52 := by
    split_ifs <;> omega
  rw [hScale]
  rfl

/-- The magnitude bits of the value nearest to a nonnegative rational number. -/
def nearestTo? (x : ℚ) : Option UInt64 := nearest? x.num.toNat x.den

theorem toNat_num_div_den {x : ℚ} (h : 0 ≤ x) : ((x.num.toNat : ℕ) : ℚ) / x.den = x := by
  rw [← Int.cast_natCast, Int.toNat_of_nonneg (Rat.num_nonneg.mpr h), Rat.num_div_den]

theorem toNat_num_pos {x : ℚ} (h : 0 < x) : 0 < x.num.toNat := by
  have := Rat.num_pos.mpr h
  omega

/-- What is nearest to a fraction depends on its value alone. -/
theorem nearest?_eq (num : Nat) {den : Nat} (hDen : 0 < den) :
    nearest? num den = nearestTo? (num / den) := by
  obtain ⟨x, hx⟩ : ∃ x : ℚ, x = num / den := ⟨_, rfl⟩
  rw [← hx, nearestTo?]
  rcases Nat.eq_zero_or_pos num with rfl | hNum
  · obtain rfl : x = 0 := by simpa using hx
    rw [nearest?, nearest?, if_pos rfl, if_pos (by decide)]
  · have hPos : 0 < x := by
      rw [hx]
      positivity
    have hSame := (toNat_num_div_den hPos.le).trans hx
    rw [nearest?_eq_pack? hNum hDen, nearest?_eq_pack? (toNat_num_pos hPos) x.den_pos, hSame]
    congr 1
    have hScaled := (scaled_eq x.num.toNat x.den (scaleOf (num / den))).trans
      ((congrArg (· / 2 ^ scaleOf ((num : ℚ) / den)) hSame).trans
        (scaled_eq num den (scaleOf (num / den))).symm)
    have hLeft := scaled_pos x.num.toNat x.den_pos (scaleOf (num / den))
    have hRight := scaled_pos num hDen (scaleOf (num / den))
    refine roundQuotient_congr hRight hLeft ?_
    rw [div_eq_div_iff (by positivity) (by positivity)] at hScaled
    exact_mod_cast hScaled.symm

/-- A positive number is rounded to a whole number of units of its scale. -/
theorem nearestTo?_of_pos {x : ℚ} (hPos : 0 < x) :
    ∃ num den : Nat, 0 < den ∧ (num : ℚ) / den = x / 2 ^ scaleOf x ∧
      nearestTo? x = pack? (roundQuotient num den) (scaleOf x) := by
  have hSame := toNat_num_div_den hPos.le
  have hScaled := scaled_eq x.num.toNat x.den (scaleOf x)
  rw [hSame] at hScaled
  refine ⟨_, _, scaled_pos _ x.den_pos _, hScaled, ?_⟩
  rw [nearestTo?, nearest?_eq_pack? (toNat_num_pos hPos) x.den_pos, hSame]

/-- The number of units is the one that is less than a half away. -/
theorem nearestTo?_eq_pack? {x : ℚ} (hPos : 0 < x) {k : Nat}
    (hLow : (k : ℚ) - 1 / 2 < x / 2 ^ scaleOf x) (hHigh : x / 2 ^ scaleOf x < k + 1 / 2) :
    nearestTo? x = pack? k (scaleOf x) := by
  obtain ⟨num, den, hDen, hQuotient, hNearest⟩ := nearestTo?_of_pos hPos
  rw [hNearest, roundQuotient_eq hDen (hQuotient ▸ hLow) (hQuotient ▸ hHigh)]

/-! ## Numbers below a value -/

/-- The value of magnitude bits. -/
def valueOf (bits : UInt64) : ℚ := (exactMagnitude bits).1 * 2 ^ (exactMagnitude bits).2

/-- The parts of a finite magnitude: a whole number of units of a scale, which has 53 binary digits
unless the scale is the least one. -/
theorem exactMagnitude_spec {bits : UInt64} (h : bits < infinityBits) :
    pack? (exactMagnitude bits).1 (exactMagnitude bits).2 = some bits ∧
      (exactMagnitude bits).1 < 2 ^ 53 ∧ -1074 ≤ (exactMagnitude bits).2 ∧
      (2 ^ 52 ≤ (exactMagnitude bits).1 ∨ (exactMagnitude bits).2 = -1074) := by
  have hBits : bits.toNat < 2047 * 2 ^ 52 := UInt64.lt_iff_toNat_lt.mp h
  have hMagnitude : bits.toNat % Nat.pow 2 63 = bits.toNat :=
    Nat.mod_eq_of_lt (Nat.lt_trans hBits (by decide))
  have hSplit := Nat.div_add_mod bits.toNat (Nat.pow 2 52)
  have hRest : bits.toNat % Nat.pow 2 52 < Nat.pow 2 52 := Nat.mod_lt _ (by decide)
  have hField : bits.toNat / Nat.pow 2 52 < 2047 := Nat.div_lt_of_lt_mul (by omega)
  rw [exactMagnitude, hMagnitude]
  generalize bits.toNat / Nat.pow 2 52 = field at hSplit hField ⊢
  generalize bits.toNat % Nat.pow 2 52 = low at hSplit hRest ⊢
  rw [Nat.pow_eq] at hSplit hRest ⊢
  split
  next hZero =>
    subst hZero
    have hLow : UInt64.ofNat low = bits := by
      rw [← Nat.zero_add low, ← Nat.mul_zero (2 ^ 52), hSplit, UInt64.ofNat_toNat]
    refine ⟨?_, by omega, Int.le_refl _, .inr rfl⟩
    rw [pack?, Nat.pow_eq, Nat.pow_eq, if_neg (by omega)]
    dsimp only
    rw [if_neg (by decide), if_pos hRest, hLow]
  next hNormal =>
    refine ⟨?_, by dsimp only; omega, by dsimp only; omega, .inl (Nat.le_add_right _ _)⟩
    have hScale : ((field : Int) - 1075 + 1075).toNat = field := by omega
    have hWhole : field * 2 ^ 52 + (2 ^ 52 + low - 2 ^ 52) = bits.toNat := by
      rw [Nat.add_sub_cancel_left, Nat.mul_comm, hSplit]
    rw [pack?, Nat.pow_eq, Nat.pow_eq, if_neg (by omega)]
    dsimp only
    rw [if_neg (by omega), if_neg (by omega), hScale, hWhole, UInt64.ofNat_toNat]

/-- A carry is packed like the same value at the next scale. -/
theorem pack?_carry (scale : Int) : pack? (2 ^ 53) scale = pack? (2 ^ 52) (scale + 1) := by
  simp only [pack?, Nat.pow_eq]
  norm_num

/-- A number below a finite value, by no more than a small part of it, is rounded to it. -/
theorem nearestTo?_below {bits : UInt64} (hFinite : bits < infinityBits) (hBits : 0 < valueOf bits)
    {x : ℚ} (hBelow : x ≤ valueOf bits) (hNear : valueOf bits * (1 - 1 / 2 ^ 60) ≤ x) :
    nearestTo? x = some bits := by
  obtain ⟨hPack, hDigits, hLeast, hNormal⟩ := exactMagnitude_spec hFinite
  rw [valueOf] at hBits hBelow hNear
  generalize (exactMagnitude bits).1 = m at hPack hDigits hNormal hBits hBelow hNear
  generalize (exactMagnitude bits).2 = e at hPack hLeast hNormal hBits hBelow hNear
  have hUnit : (0 : ℚ) < 2 ^ e := by positivity
  have hWhole : (m : ℚ) < 2 ^ 53 := by exact_mod_cast hDigits
  have hPos : 0 < x := lt_of_lt_of_le (mul_pos hBits (by norm_num)) hNear
  have hMost : scaleOf x ≤ e := by
    have hLog : Int.log 2 x < e + 53 := by
      rw [log_lt_iff hPos, zpow_add₀ (by norm_num), mul_comm]
      exact hBelow.trans_lt (by gcongr; exact_mod_cast hDigits)
    rw [scaleOf]
    omega
  rcases hMost.eq_or_lt with hSame | hFiner
  · rw [nearestTo?_eq_pack? hPos (k := m) ?_ ?_, hSame, hPack]
    · rw [hSame, lt_div_iff₀ hUnit]
      nlinarith
    · rw [hSame, div_lt_iff₀ hUnit]
      nlinarith
  -- Only below a power of two are there finer units, and the number is rounded up to it.
  · have hLog : Int.log 2 x < e + 52 := by
      rw [scaleOf] at hFiner
      omega
    have hLess : x < 2 ^ 52 * 2 ^ e := by
      rwa [log_lt_iff hPos, zpow_add₀ (by norm_num), mul_comm] at hLog
    have hPower : m = 2 ^ 52 := by
      have hLow : 2 ^ 52 ≤ m := by
        rw [scaleOf] at hFiner
        omega
      have hHigh : (m : ℚ) < 2 ^ 52 + 1 := by
        have hScaled : (m : ℚ) * (1 - 1 / 2 ^ 60) * 2 ^ e < 2 ^ 52 * 2 ^ e := by linarith
        have := lt_of_mul_lt_mul_right hScaled hUnit.le
        linarith
      have hNat : m < 2 ^ 52 + 1 := by exact_mod_cast hHigh
      omega
    subst hPower
    have hHalf : (2 : ℚ) ^ (e - 1) = 2 ^ e / 2 := by
      rw [zpow_sub_one₀ (by norm_num), div_eq_mul_inv]
    have hScale : scaleOf x = e - 1 := by
      have hAtLeast : e + 51 ≤ Int.log 2 x := by
        rw [le_log_iff hPos, zpow_add₀ (by norm_num)]
        push_cast at hNear
        norm_num at hNear ⊢
        linarith
      rw [scaleOf] at hFiner ⊢
      omega
    rw [nearestTo?_eq_pack? hPos (k := 2 ^ 53) ?_ ?_, hScale, pack?_carry, sub_add_cancel, hPack]
    · rw [hScale, hHalf, lt_div_iff₀ (by positivity)]
      push_cast at hNear ⊢
      norm_num at hNear ⊢
      linarith
    · rw [hScale, hHalf, div_lt_iff₀ (by positivity)]
      push_cast
      norm_num at hLess ⊢
      linarith

/-! ## The range of the format -/

theorem pack?_eq_none {scale : Int} (h : 971 < scale) (q : Nat) : pack? q scale = none := by
  by_cases hCarry : q = Nat.pow 2 53
  · rw [pack?, if_pos hCarry]
    exact if_pos (by omega)
  · rw [pack?, if_neg hCarry]
    exact if_pos h

/-- Nothing is nearest beyond the range. -/
theorem nearestTo?_of_large {x : ℚ} (h : 2 ^ 1024 ≤ x) : nearestTo? x = none := by
  have hPos : 0 < x := lt_of_lt_of_le (by norm_num) h
  have hLog : 1024 ≤ Int.log 2 x := (le_log_iff hPos).mpr h
  obtain ⟨num, den, -, -, hNearest⟩ := nearestTo?_of_pos hPos
  rw [hNearest, pack?_eq_none]
  rw [scaleOf]
  omega

/-- Zero is nearest to what is less than half the least value. -/
theorem nearestTo?_of_small {x : ℚ} (hPos : 0 < x) (h : x < 2 ^ (-1075 : Int)) :
    nearestTo? x = some 0 := by
  have hLog : Int.log 2 x < -1075 := (log_lt_iff hPos).mpr h
  have hScale : scaleOf x = -1074 := by
    rw [scaleOf]
    omega
  have hHalf : x / 2 ^ scaleOf x < ((0 : ℕ) : ℚ) + 1 / 2 := by
    rw [hScale, div_lt_iff₀ (by positivity), Nat.cast_zero, zero_add, one_div,
      ← zpow_neg_one, ← zpow_add₀ (by norm_num)]
    exact h
  have hLow : ((0 : ℕ) : ℚ) - 1 / 2 < x / 2 ^ scaleOf x :=
    lt_of_lt_of_le (by norm_num) (by positivity : (0 : ℚ) ≤ x / 2 ^ scaleOf x)
  rw [nearestTo?_eq_pack? hPos hLow hHalf, hScale]
  decide

theorem nearestTo?_zero : nearestTo? 0 = some 0 := by
  rw [nearestTo?, nearest?, if_pos (by decide)]

end Triage.Binary64
