import Mathlib.Tactic.Common
import Triage.Digest.Sha256

/-!
# Blocks and their lengths

Bytes are cut into blocks from the front: the first block, and then the blocks of what is left
(`blocks_eq`).  When the bytes fill their blocks, all of these are full (`blocks_full`).
The digest of any bytes is 32 bytes long (`length_sha256`), because what is carried from block to
block always has eight words.
-/

namespace Triage

theorem Text.length_bytesBE (width n : Nat) : (Text.bytesBE width n).length = width := by
  induction width generalizing n with
  | zero => rfl
  | succ width ih => rw [Text.bytesBE, List.length_append, ih, List.length_singleton]

/-- A list of lists of one length. -/
theorem length_flatMap_of_eq {f : α → List β} {xs : List α} {k : Nat}
    (h : ∀ x ∈ xs, (f x).length = k) : (xs.flatMap f).length = k * xs.length := by
  induction xs with
  | nil => rfl
  | cons x xs ih =>
      rw [List.forall_mem_cons] at h
      rw [List.flatMap_cons, List.length_append, h.1, ih h.2, List.length_cons, Nat.mul_succ,
        Nat.add_comm]

namespace Digest

/-- It does not matter how large the supply is, as long as it lasts for all bytes. -/
theorem pieces_fuel {size : Nat} (hSize : 0 < size) {xs : List α} {fuel other : Nat}
    (hFuel : xs.length ≤ fuel) (hOther : xs.length ≤ other) :
    pieces size fuel xs = pieces size other xs := by
  induction fuel generalizing xs other with
  | zero =>
      obtain rfl := List.eq_nil_of_length_eq_zero (Nat.le_zero.mp hFuel)
      cases other <;> rfl
  | succ fuel ih =>
      cases xs with
      | nil => cases other <;> rfl
      | cons x xs =>
          have hRest : ((x :: xs).drop size).length ≤ xs.length := by
            rw [List.length_drop, List.length_cons]
            omega
          rw [List.length_cons] at hFuel hOther
          obtain ⟨other, rfl⟩ : ∃ n, other = n + 1 := ⟨other - 1, by omega⟩
          simp only [pieces]
          exact congrArg (List.cons _) (ih (by omega) (by omega))

/-- The first block, and the blocks of what is left. -/
theorem blocks_eq {size : Nat} (hSize : 0 < size) {xs : List UInt8} (h : xs ≠ []) :
    blocks size xs = xs.take size :: blocks size (xs.drop size) := by
  cases xs with
  | nil => exact absurd rfl h
  | cons x xs =>
      have hRest : ((x :: xs).drop size).length ≤ xs.length := by
        rw [List.length_drop, List.length_cons]
        omega
      simp only [blocks, List.length_cons, pieces]
      rw [pieces_fuel hSize hRest (Nat.le_refl _)]

/-- A full block, or a last one, is cut off again. -/
theorem blocks_append {size : Nat} (hSize : 0 < size) {first rest : List UInt8} (hNe : first ≠ [])
    (h : first.length = size ∨ first.length ≤ size ∧ rest = []) :
    blocks size (first ++ rest) = first :: blocks size rest := by
  have hBoth : (first ++ rest).take size = first ∧ (first ++ rest).drop size = rest := by
    rcases h with hFull | ⟨hShort, rfl⟩
    · subst hFull
      exact ⟨List.take_left, List.drop_left⟩
    · rw [List.append_nil]
      exact ⟨List.take_of_length_le hShort, List.drop_of_length_le hShort⟩
  rw [blocks_eq hSize (List.append_ne_nil_of_left_ne_nil hNe rest), hBoth.1, hBoth.2]

/-- Where the bytes fill `count` blocks, they are cut into `count` full blocks. -/
theorem blocks_full {size count : Nat} (hSize : 0 < size) {xs : List UInt8}
    (h : xs.length = size * count) :
    (blocks size xs).length = count ∧ ∀ block ∈ blocks size xs, block.length = size := by
  induction count generalizing xs with
  | zero =>
      obtain rfl := List.eq_nil_of_length_eq_zero h
      exact ⟨rfl, fun block hBlock => by cases hBlock⟩
  | succ count ih =>
      rw [Nat.mul_succ] at h
      have hNe : xs ≠ [] := List.ne_nil_of_length_pos (by omega)
      have hFirst : (xs.take size).length = size := by
        rw [List.length_take]
        omega
      have hRest : (xs.drop size).length = size * count := by
        rw [List.length_drop]
        omega
      obtain ⟨hCount, hFull⟩ := ih hRest
      rw [blocks_eq hSize hNe, List.length_cons, hCount, List.forall_mem_cons]
      exact ⟨rfl, hFirst, hFull⟩

/-- Eight words are carried from block to block. -/
theorem size_sha256Block (s : Array UInt32) (block : List UInt8) : (sha256Block s block).size = 8 := by
  simp [sha256Block]

theorem length_sha256 (bytes : List UInt8) : (sha256 bytes).length = 32 := by
  have hWords : ∀ (cut : List (List UInt8)) (s : Array UInt32), s.size = 8 →
      (cut.foldl sha256Block s).size = 8 := by
    intro cut
    induction cut with
    | nil => exact fun s hs => hs
    | cons block cut ih => exact fun s _ => ih _ (size_sha256Block s block)
  rw [sha256, length_flatMap_of_eq (k := 4) fun w _ => Text.length_bytesBE 4 w.toNat,
    Array.length_toList, hWords _ _ rfl]

end Digest
end Triage
