import Mathlib.Tactic.Common
import Triage.Text.Base64

/-!
# Base64 is read back

What `Base64.encode` has written, `Base64.decode?` reads as the same bytes (`decode?_encode`).  The
symbols stand for the values below 64, one each, and the padding mark is not among them; so a group
of the encoding is never taken for a padded one, and nothing but padding never follows a group.
-/

namespace Triage.Text.Base64

/-- Every value below 64 has its own symbol. -/
theorem value?_symbol {value : Nat} (h : value < 64) : value? (symbol value) = some value := by
  have hAll : ∀ value < 64, value? (symbol value) = some value := by decide
  exact hAll value h

/-- No symbol is the padding mark. -/
theorem symbol_ne_mark {value : Nat} (h : value < 64) : symbol value ≠ '=' := by
  have hAll : ∀ value < 64, symbol value ≠ '=' := by decide
  exact hAll value h

theorem byte_eq {n : Nat} {b : UInt8} (h : n % 256 = b.toNat) : UInt8.ofNat n = b := by
  rw [← UInt8.toNat_inj, UInt8.toNat_ofNat']
  exact h

/-- The bytes of a group, from the values of its symbols. -/
theorem triple_group (a b c : UInt8) :
    let n := (a.toNat * 256 + b.toNat) * 256 + c.toNat
    triple (n / 262144) (n / 4096 % 64) (n / 64 % 64) (n % 64) = [a, b, c] := by
  intro n
  have ha := a.toNat_lt
  have hb := b.toNat_lt
  have hc := c.toNat_lt
  have hJoin : ((n / 262144 * 64 + n / 4096 % 64) * 64 + n / 64 % 64) * 64 + n % 64 = n := by omega
  simp only [triple, hJoin]
  rw [byte_eq (b := a) (by omega), byte_eq (b := b) (by omega), byte_eq (b := c) (by omega)]

/-- A group of four symbols, and what follows it. -/
theorem decodeChars?_group {p q r s : Nat} (hp : p < 64) (hq : q < 64) (hr : r < 64) (hs : s < 64)
    (rest : List Char) :
    decodeChars? (symbol p :: symbol q :: symbol r :: symbol s :: rest) =
      if rest.all (· = '=') then some (triple p q r s)
      else (decodeChars? rest).map (triple p q r s ++ ·) := by
  rw [decodeChars?]
  · simp only [value?_symbol, hp, hq, hr, hs, Option.bind_eq_bind, Option.bind_some, Option.pure_def]
    split
    · rfl
    · cases decodeChars? rest <;> rfl
  · exact fun hMark => absurd hMark (symbol_ne_mark hr)
  · exact fun hMark => absurd hMark (symbol_ne_mark hs)

/-- What is written for some bytes begins with a symbol, so it is no padding. -/
theorem encodeBytes_all {bytes : List UInt8} (h : bytes ≠ []) :
    (encodeBytes bytes).all (· = '=') = false := by
  have hFirst : ∀ {value : Nat} {rest : List Char}, value < 64 →
      (symbol value :: rest).all (· = '=') = false := by
    intro value rest hValue
    simp [symbol_ne_mark hValue]
  match bytes with
  | [] => exact absurd rfl h
  | [a] =>
      have ha := a.toNat_lt
      exact hFirst (by omega)
  | [a, b] =>
      have ha := a.toNat_lt
      have hb := b.toNat_lt
      exact hFirst (by omega)
  | a :: b :: c :: rest =>
      have ha := a.toNat_lt
      have hb := b.toNat_lt
      have hc := c.toNat_lt
      exact hFirst (by omega)

theorem decodeChars?_encodeBytes (bytes : List UInt8) :
    decodeChars? (encodeBytes bytes) = some bytes := by
  induction bytes using encodeBytes.induct with
  | case1 => rfl
  | case2 a =>
      have ha := a.toNat_lt
      have hByte : UInt8.ofNat
          ((((a.toNat * 16 / 64 * 64 + a.toNat * 16 % 64) * 64 + 0) * 64 + 0) / 65536) = a :=
        byte_eq (by omega)
      simp only [encodeBytes, decodeChars?]
      rw [value?_symbol (by omega), value?_symbol (by omega)]
      simp only [Option.bind_eq_bind, Option.bind_some, Option.pure_def, triple, hByte, List.take]
  | case3 a b =>
      have ha := a.toNat_lt
      have hb := b.toNat_lt
      let n := (a.toNat * 256 + b.toNat) * 4
      have hJoin : ((n / 4096 * 64 + n / 64 % 64) * 64 + n % 64) * 64 + 0 = n * 64 := by omega
      have hFirst : UInt8.ofNat (n * 64 / 65536) = a := byte_eq (by omega)
      have hSecond : UInt8.ofNat (n * 64 / 256) = b := byte_eq (by omega)
      have hNext : symbol (n % 64) ≠ '=' := symbol_ne_mark (by omega)
      simp only [encodeBytes]
      rw [decodeChars?]
      · rw [value?_symbol (by omega), value?_symbol (by omega), value?_symbol (by omega)]
        simp only [Option.bind_eq_bind, Option.bind_some, Option.pure_def, triple]
        rw [hJoin, hFirst, hSecond]
        rfl
      · exact hNext
  | case4 a b c rest ih =>
      have ha := a.toNat_lt
      have hb := b.toNat_lt
      have hc := c.toNat_lt
      have hTriple := triple_group a b c
      simp only [encodeBytes]
      rw [decodeChars?_group (by omega) (by omega) (by omega) (by omega), hTriple, ih]
      by_cases hRest : rest = []
      · subst hRest
        rfl
      · rw [encodeBytes_all hRest]
        rfl

/-- The bytes of what has been written. -/
theorem decode?_encode (bytes : List UInt8) : decode? (encode bytes) = some bytes := by
  rw [decode?, encode, String.toList_ofList]
  exact decodeChars?_encodeBytes bytes

end Triage.Text.Base64
