import Triage.Cipher.Aes256
import Triage.Proofs.Digest.Blocks

/-!
# The block cipher gives whole blocks

Under the round keys of a 32-byte key, whatever is enciphered comes out as sixteen bytes
(`length_encipher`).  The key schedule has sixty words of four bytes, which fill the fifteen round
keys, and the last round adds one of them to the shifted rows of a block.
-/

namespace Triage.Cipher

theorem length_xorBytes (a b : List UInt8) : (xorBytes a b).length = min a.length b.length :=
  List.length_zipWith

/-- Adding the same bytes twice changes nothing. -/
theorem xorBytes_twice {a b : List UInt8} (h : a.length ≤ b.length) :
    xorBytes (xorBytes a b) b = a := by
  induction a generalizing b with
  | nil => simp [xorBytes]
  | cons x a ih =>
      cases b with
      | nil => simp at h
      | cons y b =>
          rw [List.length_cons, List.length_cons] at h
          have hRest := ih (b := b) (by omega)
          simp only [xorBytes, List.zipWith_cons_cons] at hRest ⊢
          rw [hRest, UInt8.xor_assoc, UInt8.xor_self, UInt8.xor_zero]

/-- Words of four bytes, at least eight of them. -/
structure KeyWords (words : List (List UInt8)) : Prop where
  enough : 8 ≤ words.length
  four : ∀ word ∈ words, word.length = 4

theorem KeyWords.next {words : List (List UInt8)} (h : KeyWords words) (i : Nat)
    (constant : UInt8) : (nextKeyWord words i constant).length = 4 := by
  obtain ⟨hEnough, hFour⟩ := h
  have hPrevious : (words.headD []).length = 4 := by
    cases words with
    | nil => simp at hEnough
    | cons word words => exact hFour word List.mem_cons_self
  have hEighth : (words.getD 7 []).length = 4 := by
    have hEighth : words.getD 7 [] = words[7] := by
      rw [List.getD_eq_getElem?_getD, List.getElem?_eq_getElem (by omega), Option.getD_some]
    rw [hEighth]
    exact hFour _ (List.getElem_mem _)
  -- Whichever way the previous word is mixed, it keeps its four bytes.
  have hMixed : ∀ mixed : List UInt8, mixed.length = 4 →
      (xorBytes mixed (words.getD 7 [])).length = 4 := by
    intro mixed hLength
    rw [length_xorBytes, hLength, hEighth, Nat.min_self]
  unfold nextKeyWord
  refine hMixed _ ?_
  generalize words.headD [] = previous at hPrevious
  split
  · have hTurned : ((previous.drop 1 ++ previous.take 1).map substitute).length = 4 := by
      rw [List.length_map, List.length_append, List.length_drop, List.length_take]
      omega
    split
    next b rest hTurn =>
      rw [hTurn] at hTurned
      exact hTurned
    next hTurn =>
      rw [hTurn] at hTurned
      exact hTurned
  split
  · rw [List.length_map, hPrevious]
  · exact hPrevious

theorem KeyWords.extend {words : List (List UInt8)} (h : KeyWords words) (count i : Nat)
    (constant : UInt8) : KeyWords (extendKey count i constant words) ∧
      (extendKey count i constant words).length = count + words.length := by
  induction count generalizing words i constant with
  | zero => exact ⟨h, (Nat.zero_add _).symm⟩
  | succ count ih =>
      have hNext : KeyWords (nextKeyWord words i constant :: words) := by
        refine ⟨Nat.le_succ_of_le h.enough, ?_⟩
        rw [List.forall_mem_cons]
        exact ⟨h.next i constant, h.four⟩
      obtain ⟨hWords, hLength⟩ := ih hNext (i + 1) (if i % 8 = 0 then timesX constant else constant)
      rw [List.length_cons] at hLength
      rw [extendKey]
      exact ⟨hWords, by omega⟩

/-- Fifteen round keys of sixteen bytes. -/
structure RoundKeys (keys : List (List UInt8)) : Prop where
  fifteen : keys.length = 15
  sixteen : ∀ key ∈ keys, key.length = 16

theorem roundKeys_full {key : List UInt8} (h : key.length = 32) : RoundKeys (roundKeys key) := by
  have hEight : key.length = 4 * 8 := h
  obtain ⟨hCount, hFour⟩ := Digest.blocks_full (by decide) hEight
  have hFirst : KeyWords (Digest.blocks 4 key).reverse := by
    refine ⟨?_, fun word hWord => hFour word (List.mem_reverse.mp hWord)⟩
    rw [List.length_reverse]
    omega
  obtain ⟨hWords, hLength⟩ := hFirst.extend 52 8 1
  rw [List.length_reverse, hCount] at hLength
  have hBytes : (extendKey 52 8 1 (Digest.blocks 4 key).reverse).reverse.flatten.length = 16 * 15 := by
    rw [← List.flatMap_id, length_flatMap_of_eq (k := 4)]
    · rw [List.length_reverse, hLength]
    · intro word hWord
      exact hWords.four word (List.mem_reverse.mp hWord)
  obtain ⟨hFifteen, hSixteen⟩ := Digest.blocks_full (by decide) hBytes
  exact ⟨hFifteen, hSixteen⟩

theorem length_shiftRows (block : List UInt8) : (shiftRows block).length = 16 := by
  simp [shiftRows]

/-- The rounds leave sixteen bytes, because the last one does. -/
theorem length_rounds {keys : List (List UInt8)} (hKeys : ∀ key ∈ keys, key.length = 16)
    (hNe : keys ≠ []) (block : List UInt8) : (rounds keys block).length = 16 := by
  induction keys generalizing block with
  | nil => exact absurd rfl hNe
  | cons key rest ih =>
      rw [List.forall_mem_cons] at hKeys
      cases rest with
      | nil => rw [rounds, length_xorBytes, length_shiftRows, hKeys.1, Nat.min_self]
      | cons next rest => exact ih hKeys.2 (by simp) _

/-- Whatever is enciphered comes out as a whole block. -/
theorem RoundKeys.length_encipher {keys : List (List UInt8)} (h : RoundKeys keys)
    (block : List UInt8) : (encipher keys block).length = 16 := by
  obtain ⟨hFifteen, hSixteen⟩ := h
  match keys with
  | first :: rest =>
      rw [List.forall_mem_cons] at hSixteen
      have hNe : rest ≠ [] := by
        intro hNil
        rw [hNil] at hFifteen
        simp at hFifteen
      exact length_rounds hSixteen.2 hNe _

end Triage.Cipher
