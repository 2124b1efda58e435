import Mathlib.Data.List.Basic
import Triage.Text.Numeral
import Triage.Text.Utf8

/-!
# UTF-8 is read back

The bytes of a text are those of its characters, one after the other (`utf8_eq`), and determine the
text (`utf8_injective`).  The strict reader takes the bytes of one character at a time
(`utf8Piece_encode`), so it reads the text back (`decodeUtf8?_utf8`).
-/

namespace Triage

theorem toList_loop (bytes : ByteArray) (i : Nat) (before : List UInt8) :
    ByteArray.toList.loop bytes i before = before.reverse ++ bytes.data.toList.drop i := by
  induction hLeft : bytes.size - i generalizing i before with
  | zero =>
      have hEnd : bytes.data.toList.length ≤ i := by
        rw [Array.length_toList, ByteArray.size_data]
        omega
      rw [ByteArray.toList.loop, if_neg (by omega), List.drop_eq_nil_of_le hEnd, List.append_nil]
  | succ left ih =>
      have hMore : i < bytes.data.toList.length := by
        rw [Array.length_toList, ByteArray.size_data]
        omega
      have hNext : bytes.get! i = bytes.data.toList[i] := getElem!_pos bytes.data i hMore
      rw [ByteArray.toList.loop, if_pos (by omega), ih _ _ (by omega),
        List.drop_eq_getElem_cons hMore, List.reverse_cons, List.append_assoc,
        List.singleton_append, hNext]

theorem toList_eq_data (bytes : ByteArray) : bytes.toList = bytes.data.toList :=
  toList_loop bytes 0 []

namespace Text

/-- A text is determined by its bytes. -/
theorem utf8_injective {a b : String} (h : utf8 a = utf8 b) : a = b := by
  rw [utf8, utf8, toList_eq_data, toList_eq_data] at h
  exact String.toByteArray_inj.mp (ByteArray.ext (Array.toList_inj.mp h))

/-- The bytes of a text are those of its characters. -/
theorem utf8_eq (text : String) : utf8 text = text.toList.flatMap String.utf8EncodeChar := by
  have hBytes : text.toUTF8 = (text.toList.flatMap String.utf8EncodeChar).toByteArray := by
    have hText : (String.ofList text.toList).toByteArray = text.toList.utf8Encode :=
      String.toByteArray_ofList
    rw [String.ofList_toList] at hText
    exact hText
  rw [utf8, toList_eq_data, hBytes, List.toList_data_toByteArray]

/-- The number of a character is that of a scalar value. -/
theorem toNat_scalar (c : Char) :
    c.val.toNat < 0xD800 ∨ 0xDFFF < c.val.toNat ∧ c.val.toNat < 0x110000 :=
  c.valid

theorem toNat_ofNat {n : Nat} (h : n < 256) : (UInt8.ofNat n).toNat = n :=
  UInt8.toNat_ofNat_of_lt' h

theorem within (low n high : Nat) (hLow : low ≤ n) (hHigh : n ≤ high) :
    (decide (low ≤ n) && decide (n ≤ high)) = true := by
  rw [decide_eq_true hLow, decide_eq_true hHigh]
  rfl

/-- The reader takes the bytes of a character as one piece, whatever follows them. -/
theorem utf8Piece_encode (c : Char) : ∃ first tail, String.utf8EncodeChar c = first :: tail ∧
    ∀ rest, utf8Piece first (tail ++ rest) = (some c.val.toNat, tail.length + 1) := by
  have hScalar := toNat_scalar c
  generalize hCode : c.val.toNat = v at hScalar
  -- Every byte after the first one carries six bits.
  have hBits : ∀ n, (UInt8.ofNat (n % 64 + 128)).toNat = n % 64 + 128 := fun n =>
    toNat_ofNat (by omega)
  simp only [String.utf8EncodeChar, hCode]
  split
  · refine ⟨_, _, rfl, fun rest => ?_⟩
    have hLead : (UInt8.ofNat v).toNat = v := toNat_ofNat (by omega)
    simp only [utf8Piece, hLead]
    rw [if_pos (by omega)]
    rfl
  split
  · refine ⟨_, _, rfl, fun rest => ?_⟩
    have hLead : (UInt8.ofNat (v / 64 % 32 + 192)).toNat = v / 64 % 32 + 192 := toNat_ofNat (by omega)
    have hJoin : (v / 64 % 32 + 192 - 192) * 64 + (v % 64 + 128) % 64 = v := by omega
    simp only [utf8Piece, hLead, hBits, List.cons_append, List.nil_append]
    rw [if_neg (by omega), if_neg (by omega), if_pos (by omega),
      if_pos (within _ _ _ (by omega) (by omega)), hJoin]
    rfl
  split
  · refine ⟨_, _, rfl, fun rest => ?_⟩
    have hLead : (UInt8.ofNat (v / 4096 % 16 + 224)).toNat = v / 4096 % 16 + 224 :=
      toNat_ofNat (by omega)
    have hJoin : ((v / 4096 % 16 + 224 - 224) * 64 + (v / 64 % 64 + 128) % 64) * 64
        + (v % 64 + 128) % 64 = v := by omega
    -- Overlong forms and surrogates are kept out by bounds on the second byte.
    have hSecond := within (if v / 4096 % 16 + 224 = 224 then 160 else 128) (v / 64 % 64 + 128)
      (if v / 4096 % 16 + 224 = 237 then 159 else 191) (by split <;> omega) (by split <;> omega)
    have hThird := within 128 (v % 64 + 128) 191 (by omega) (by omega)
    simp only [utf8Piece, hLead, hBits, List.cons_append, List.nil_append]
    rw [if_neg (by omega), if_neg (by omega), if_neg (by omega), if_pos (by omega), hSecond, hThird,
      hJoin]
    rfl
  · refine ⟨_, _, rfl, fun rest => ?_⟩
    have hLead : (UInt8.ofNat (v / 262144 % 8 + 240)).toNat = v / 262144 % 8 + 240 :=
      toNat_ofNat (by omega)
    have hJoin : (((v / 262144 % 8 + 240 - 240) * 64 + (v / 4096 % 64 + 128) % 64) * 64
        + (v / 64 % 64 + 128) % 64) * 64 + (v % 64 + 128) % 64 = v := by omega
    have hSecond := within (if v / 262144 % 8 + 240 = 240 then 144 else 128) (v / 4096 % 64 + 128)
      (if v / 262144 % 8 + 240 = 244 then 143 else 191) (by split <;> omega) (by split <;> omega)
    have hThird := within 128 (v / 64 % 64 + 128) 191 (by omega) (by omega)
    have hFourth := within 128 (v % 64 + 128) 191 (by omega) (by omega)
    simp only [utf8Piece, hLead, hBits, List.cons_append, List.nil_append]
    rw [if_neg (by omega), if_neg (by omega), if_neg (by omega), if_neg (by omega), if_pos (by omega),
      hSecond, hThird, hFourth, hJoin]
    rfl

/-- The pieces of a text are its characters. -/
theorem utf8Pieces_encode (text : List Char) {fuel : Nat}
    (hFuel : (text.flatMap String.utf8EncodeChar).length ≤ fuel) :
    utf8Pieces fuel (text.flatMap String.utf8EncodeChar) = text.map some := by
  induction text generalizing fuel with
  | nil => cases fuel <;> rfl
  | cons c text ih =>
      obtain ⟨first, tail, hEncoded, hPiece⟩ := utf8Piece_encode c
      rw [List.flatMap_cons, hEncoded] at hFuel ⊢
      rw [List.cons_append, List.length_cons, List.length_append] at hFuel
      obtain ⟨fuel, rfl⟩ : ∃ n, fuel = n + 1 := ⟨fuel - 1, by omega⟩
      have hChar : Char.ofNat c.val.toNat = c := Char.ofNat_toNat c
      rw [List.cons_append, utf8Pieces, hPiece]
      simp only [Nat.add_sub_cancel, List.drop_left, Option.map_some, List.map_cons]
      rw [ih (by omega), hChar]

/-- The strict reader reads the bytes of a text as this text. -/
theorem decodeUtf8?_utf8 (text : String) : decodeUtf8? (utf8 text) = some text := by
  have hAll : ∀ chars : List Char, (chars.map some).mapM id = some chars := by
    intro chars
    induction chars with
    | nil => rfl
    | cons c chars ih => simp [List.mapM_cons, ih]
  rw [decodeUtf8?, utf8_eq, utf8Pieces_encode _ (Nat.le_refl _), hAll, Option.map_some,
    String.ofList_toList]

end Text
end Triage
