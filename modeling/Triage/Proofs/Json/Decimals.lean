import Triage.Proofs.Json.Written
import Triage.Proofs.Number.Shortest

/-!
# Decimal numbers are written with their value

Where the point stands, how many zeros stand beside it and whether there is an exponent depends on
the size of a decimal number; its value is the same in every layout (`writeDecimal_eq`).  So the
shortest decimal of a finite binary64 number is spelled as it is written, and a value with such
numbers is writable (`FiniteNumbers.writable`).
-/

namespace Triage.Json

open Text (natDigits valueOf)

/-- A text with a fraction or an exponent spells a nonnegative number, exactly. -/
def SpellsMagnitude (x : ℚ) (text : List Char) : Prop :=
  ∃ (whole places fraction exponent : List Char) (power : Int),
    WholeDigits whole ∧ SpellsFraction places fraction ∧ SpellsExponent power exponent ∧
      fraction ++ exponent ≠ [] ∧ text = whole ++ (fraction ++ exponent) ∧
      (valueOf (whole ++ places) : ℚ) * 10 ^ (power - places.length) = x

section Layouts

variable {d : Decimal}

theorem wholeDigits_zero : WholeDigits ['0'] := by
  refine ⟨⟨by simp, fun c hc => ?_⟩, fun _ => rfl⟩
  rw [List.mem_singleton.mp hc]
  decide

/-- Digits that do not start with zero, and any digits after them. -/
theorem wholeDigits_append {front more : List Char} (hFront : Digits front)
    (hHead : front.head? ≠ some '0') (hMore : more = [] ∨ Digits more) :
    WholeDigits (front ++ more) := by
  refine ⟨hFront.append hMore, fun hZero => absurd ?_ hHead⟩
  rwa [List.head?_append_of_ne_nil _ hFront.1] at hZero

theorem digits_natDigits (n : Nat) : Digits (natDigits n) := (wholeDigits_natDigits n).1

theorem head_natDigits {n : Nat} (h : n ≠ 0) : (natDigits n).head? ≠ some '0' :=
  fun hHead => h (Text.eq_zero_of_head_natDigits hHead)

theorem digits_zeros (count : Nat) :
    List.replicate count '0' = [] ∨ Digits (List.replicate count '0') := by
  cases count with
  | zero => exact .inl rfl
  | succ count =>
      refine .inr ⟨by simp, fun c hc => ?_⟩
      rw [List.eq_of_mem_replicate hc]
      decide

theorem spellsMagnitude_zero (h : d.digits = 0) : SpellsMagnitude d.magnitude ['0', '.', '0'] := by
  refine ⟨['0'], ['0'], ['.', '0'], [], 0, wholeDigits_zero, .places wholeDigits_zero.1, .none,
    by simp, rfl, ?_⟩
  simp [Decimal.magnitude, h, valueOf]

/-- A whole number of tens: its zeros stand before the point. -/
theorem spellsMagnitude_whole (h : d.digits ≠ 0) (hExponent : 0 ≤ d.exponent) :
    SpellsMagnitude d.magnitude
      (natDigits d.digits ++ List.replicate d.exponent.toNat '0' ++ ['.', '0']) := by
  refine ⟨_, ['0'], ['.', '0'], [], 0,
    wholeDigits_append (digits_natDigits _) (head_natDigits h) (digits_zeros _),
    .places wholeDigits_zero.1, .none, by simp, rfl, ?_⟩
  have hZero : valueOf ['0'] = 0 := rfl
  lift d.exponent to ℕ using hExponent with k hk
  rw [Text.valueOf_append, Text.valueOf_append, Text.valueOf_natDigits, Text.valueOf_zeros,
    List.length_replicate, Int.toNat_natCast, hZero, Decimal.magnitude, ← hk]
  simp

/-- A point among the digits. -/
theorem spellsMagnitude_point (h : d.digits ≠ 0) {point : Nat} (hPoint : 0 < point)
    (hExponent : d.exponent < 0)
    (hPlace : (point : Int) = (natDigits d.digits).length + d.exponent) :
    SpellsMagnitude d.magnitude
      ((natDigits d.digits).take point ++ '.' :: (natDigits d.digits).drop point) := by
  have hDigits := digits_natDigits d.digits
  have hInside : point < (natDigits d.digits).length := by omega
  have hWhole : WholeDigits ((natDigits d.digits).take point) := by
    refine ⟨⟨?_, fun c hc => hDigits.2 c (List.mem_of_mem_take hc)⟩, fun hZero => ?_⟩
    · rw [ne_eq, List.take_eq_nil_iff, not_or]
      exact ⟨Nat.ne_of_gt hPoint, hDigits.1⟩
    · rw [List.head?_take, if_neg (Nat.ne_of_gt hPoint)] at hZero
      exact absurd hZero (head_natDigits h)
  have hPlaces : Digits ((natDigits d.digits).drop point) := by
    refine ⟨?_, fun c hc => hDigits.2 c (List.mem_of_mem_drop hc)⟩
    rw [ne_eq, List.drop_eq_nil_iff]
    omega
  refine ⟨_, _, _, [], 0, hWhole, .places hPlaces, .none, by simp, by rw [List.append_nil], ?_⟩
  have hPower : (0 : Int) - ((natDigits d.digits).drop point).length = d.exponent := by
    rw [List.length_drop]
    omega
  rw [List.take_append_drop, Text.valueOf_natDigits, hPower, Decimal.magnitude]

/-- Zeros between the point and the digits. -/
theorem spellsMagnitude_fraction {zeros : Nat}
    (hPlace : -(zeros : Int) = (natDigits d.digits).length + d.exponent) :
    SpellsMagnitude d.magnitude
      ('0' :: '.' :: List.replicate zeros '0' ++ natDigits d.digits) := by
  have hPlaces : Digits (List.replicate zeros '0' ++ natDigits d.digits) := by
    rcases digits_zeros zeros with hNone | hZeros
    · rw [hNone]
      exact digits_natDigits _
    · exact hZeros.append (.inr (digits_natDigits _))
  refine ⟨['0'], _, _, [], 0, wholeDigits_zero, .places hPlaces, .none, by simp, by simp, ?_⟩
  have hPower : (0 : Int) - (List.replicate zeros '0' ++ natDigits d.digits).length =
      d.exponent := by
    rw [List.length_append, List.length_replicate]
    omega
  have hZero : valueOf ['0'] = 0 := rfl
  rw [hPower, Text.valueOf_append, Text.valueOf_append, Text.valueOf_natDigits, Text.valueOf_zeros,
    hZero, Decimal.magnitude]
  simp

theorem spellsExponent_written (power : Int) : SpellsExponent power
    ('e' :: (if power < 0 then '-' else '+') :: Text.paddedDigits 2 power.natAbs) := by
  have hDigits : Digits (Text.paddedDigits 2 power.natAbs) := by
    refine ⟨?_, fun c hc => Text.isAsciiDigit_of_mem_paddedDigits hc⟩
    rw [Text.paddedDigits]
    simp [Text.natDigits_ne_nil]
  have hValue := Text.valueOf_paddedDigits 2 power.natAbs
  split
  next hNegative =>
    have hSpells := SpellsExponent.minus (.inl rfl) hDigits
    rwa [hValue, show -((power.natAbs : ℕ) : Int) = power by omega] at hSpells
  next hPositive =>
    have hSpells := SpellsExponent.plus (.inl rfl) hDigits
    rwa [hValue, show ((power.natAbs : ℕ) : Int) = power by omega] at hSpells

/-- A point after the first digit, if there are more, and an exponent. -/
theorem spellsMagnitude_scientific {power : Int}
    (hPower : power = (natDigits d.digits).length + d.exponent - 1) :
    SpellsMagnitude d.magnitude
      ((match natDigits d.digits with
        | [] => []
        | [c] => [c]
        | c :: rest => c :: '.' :: rest) ++
        'e' :: (if power < 0 then '-' else '+') :: Text.paddedDigits 2 power.natAbs) := by
  have hDigits := digits_natDigits d.digits
  have hValue := Text.valueOf_natDigits d.digits
  have hExponent := spellsExponent_written power
  generalize natDigits d.digits = digits at hDigits hValue hPower ⊢
  have hFirst {c : Char} {rest : List Char} (hCons : digits = c :: rest) : WholeDigits [c] := by
    refine ⟨⟨by simp, fun e he => hDigits.2 e ?_⟩, fun _ => rfl⟩
    rw [hCons, List.mem_singleton.mp he]
    exact List.mem_cons_self
  match digits, hPower with
  | [], _ => exact absurd rfl hDigits.1
  | [c], hPower =>
      refine ⟨[c], [], [], _, power, hFirst rfl, .none, hExponent, by simp, rfl, ?_⟩
      rw [List.append_nil, hValue, Decimal.magnitude, hPower]
      simp
  | c :: second :: rest, hPower =>
      have hPlaces : Digits (second :: rest) :=
        ⟨by simp, fun e he => hDigits.2 e (List.mem_cons_of_mem _ he)⟩
      refine ⟨[c], second :: rest, _, _, power, hFirst rfl, .places hPlaces, hExponent, by simp,
        rfl, ?_⟩
      have hScale : power - ((second :: rest).length : Int) = d.exponent := by
        rw [hPower, List.length_cons, List.length_cons]
        omega
      rw [List.singleton_append, hValue, hScale, Decimal.magnitude]

end Layouts

/-- A decimal number is written as a sign and its magnitude. -/
theorem writeDecimal_eq (d : Decimal) :
    ∃ body, writeDecimal d = minus d.negative ++ body ∧ SpellsMagnitude d.magnitude body := by
  refine ⟨_, rfl, ?_⟩
  split_ifs with hZero hPositional hWhole hPoint
  · exact spellsMagnitude_zero hZero
  · exact spellsMagnitude_whole hZero hWhole
  · exact spellsMagnitude_point hZero (by omega) (by omega) (by omega)
  · exact spellsMagnitude_fraction (by omega)
  · exact spellsMagnitude_scientific rfl

/-- The decimal numbers that stand for finite binary64 numbers. -/
def FiniteDecimal (d : Decimal) : Prop :=
  ∃ value : Float, value.isFinite = true ∧ d = Binary64.shortest value

/-- The number that a decimal stands for is spelled as it is written. -/
theorem FiniteDecimal.spells {d : Decimal} (h : FiniteDecimal d) :
    SpellsNumber (.decimal d) (writeDecimal d) := by
  obtain ⟨value, hFinite, rfl⟩ := h
  obtain ⟨_, hText, whole, places, fraction, exponent, power, hWhole, hFraction, hExponent, hDecimal,
    rfl, hValue⟩ := writeDecimal_eq (Binary64.shortest value)
  rw [hText]
  have hSpells := SpellsNumber.decimal (Binary64.shortest value).negative hWhole hFraction hExponent
    hDecimal
  have hCanonical : Binary64.canonical ⟨(Binary64.shortest value).negative,
      valueOf (whole ++ places), power - (places.length : Int)⟩ = Binary64.shortest value :=
    Binary64.canonical_eq_shortest hFinite rfl hValue
  rwa [hCanonical] at hSpells

/-- The values whose decimal numbers all stand for finite binary64 numbers. -/
inductive FiniteNumbers : Json → Prop
  | null : FiniteNumbers .null
  | bool (value : Bool) : FiniteNumbers (.bool value)
  | int (value : Int) : FiniteNumbers (.int value)
  | decimal {value : Decimal} (h : FiniteDecimal value) : FiniteNumbers (.decimal value)
  | str (value : String) : FiniteNumbers (.str value)
  | arr {js : List Json} (h : ∀ j ∈ js, FiniteNumbers j) : FiniteNumbers (.arr js)
  | obj {ms : List (String × Json)} (h : ∀ m ∈ ms, FiniteNumbers m.2) : FiniteNumbers (.obj ms)

theorem FiniteNumbers.writable {j : Json} (h : FiniteNumbers j) : Writable j := by
  induction h with
  | null => exact .null
  | bool value => exact .bool value
  | int value => exact .int value
  | decimal h => exact .decimal h.spells
  | str value => exact .str value
  | arr _ ih => exact .arr ih
  | obj _ ih => exact .obj ih

theorem FiniteNumbers.get? {j value : Json} {key : String} (h : FiniteNumbers j)
    (hGet : j.get? key = some value) : FiniteNumbers value := by
  cases h with
  | obj hMembers =>
      rw [Json.get?, Option.map_eq_some_iff] at hGet
      obtain ⟨m, hFind, rfl⟩ := hGet
      exact hMembers m (List.mem_reverse.mp (List.mem_of_find?_eq_some hFind))
  | _ => cases hGet

end Triage.Json
