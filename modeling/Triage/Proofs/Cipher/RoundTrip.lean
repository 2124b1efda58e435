import Triage.Cipher.SecretCipher
import Triage.Proofs.Cipher.Blocks
import Triage.Proofs.Text.Base64
import Triage.Proofs.Text.Utf8

/-!
# Sealed secrets can be opened

Sealing under a 32-byte key and a nonce of twelve bytes is undone by opening
(`SecretCipher.openSecret_sealSecret`), and nothing but nonce, sealed bytes and tag is stored
(`SecretCipher.seal_roundTrip`).  Counter mode combines the text with a key stream that depends on
key and nonce alone, so doing it twice gives the text back (`stream_twice`); the tag is computed
again from the same sealed bytes; and Base64 and UTF-8 are read back as they were written.
-/

namespace Triage.Cipher

namespace Galois

variable {keys : List (List UInt8)}

/-- Counter mode from any counter on keeps the length, and done again from the same counter it gives
the text back. -/
theorem counterMode_twice (hKeys : RoundKeys keys) (nonce : List UInt8) (counter : Nat)
    (text : List UInt8) :
    let out := counterMode keys nonce counter (Digest.blocks 16 text)
    out.length = text.length ∧ counterMode keys nonce counter (Digest.blocks 16 out) = text := by
  induction hLength : text.length using Nat.strongRecOn generalizing text counter with
  | ind n ih =>
      by_cases hNe : text = []
      · subst hNe
        exact ⟨hLength, rfl⟩
      have hPos : 0 < text.length := List.length_pos_of_ne_nil hNe
      have hDropped : (text.drop 16).length = text.length - 16 := List.length_drop
      have hTaken : (text.take 16).length = min 16 text.length := List.length_take
      obtain ⟨hRestLength, hRest⟩ :=
        ih (text.drop 16).length (by omega) (counter + 1) (text.drop 16) rfl
      have hStream := hKeys.length_encipher (counterBlock nonce counter)
      have hSize : 0 < 16 := by decide
      rw [Digest.blocks_eq hSize hNe, counterMode]
      generalize counterMode keys nonce (counter + 1) (Digest.blocks 16 (text.drop 16)) = rest
        at hRestLength hRest ⊢
      have hFirst := length_xorBytes (text.take 16) (encipher keys (counterBlock nonce counter))
      have hBack : xorBytes (xorBytes (text.take 16) (encipher keys (counterBlock nonce counter)))
          (encipher keys (counterBlock nonce counter)) = text.take 16 := xorBytes_twice (by omega)
      generalize xorBytes (text.take 16) _ = first at hFirst hBack ⊢
      intro out
      have hFirstNe : first ≠ [] := List.ne_nil_of_length_pos (by omega)
      -- Only the last block can be short, and then there is no rest.
      have hFull : first.length = 16 ∨ first.length ≤ 16 ∧ rest = [] := by
        by_cases hShort : text.length ≤ 16
        · exact .inr ⟨by omega, List.eq_nil_of_length_eq_zero (by omega)⟩
        · exact .inl (by omega)
      constructor
      · rw [List.length_append]
        omega
      · rw [Digest.blocks_append (by decide) hFirstNe hFull, counterMode, hBack, hRest,
          List.take_append_drop]

theorem stream_twice (hKeys : RoundKeys keys) (nonce text : List UInt8) :
    stream keys nonce (stream keys nonce text) = text :=
  (counterMode_twice hKeys nonce 2 text).2

theorem length_stream (hKeys : RoundKeys keys) (nonce text : List UInt8) :
    (stream keys nonce text).length = text.length :=
  (counterMode_twice hKeys nonce 2 text).1

theorem length_tag (hKeys : RoundKeys keys) (nonce sealed : List UInt8) :
    (tag keys nonce sealed).length = tagSize := by
  rw [tag, length_xorBytes, Text.length_bytesBE, hKeys.length_encipher]
  rfl

variable {key : List UInt8}

theorem length_encrypt (hKey : key.length = 32) (nonce text : List UInt8) :
    (encrypt key nonce text).length = text.length + tagSize := by
  have hKeys := roundKeys_full hKey
  rw [encrypt, List.length_append, length_stream hKeys, length_tag hKeys]

/-- What has been sealed is authentic, and opens to the text. -/
theorem decrypt?_encrypt (hKey : key.length = 32) (nonce text : List UInt8) :
    decrypt? key nonce (encrypt key nonce text) = some text := by
  have hKeys := roundKeys_full hKey
  have hLength := length_encrypt hKey nonce text
  have hSealed := length_stream hKeys nonce text
  have hBody : (encrypt key nonce text).take text.length = stream (roundKeys key) nonce text := by
    rw [encrypt, ← hSealed]
    exact List.take_left
  have hMark : (encrypt key nonce text).drop text.length =
      tag (roundKeys key) nonce (stream (roundKeys key) nonce text) := by
    rw [encrypt, ← hSealed]
    exact List.drop_left
  have hRest : text.length + tagSize - tagSize = text.length := Nat.add_sub_cancel _ _
  simp only [decrypt?, hLength, hRest, hBody, hMark]
  rw [if_neg (by omega), if_pos trivial, stream_twice hKeys]

end Galois

namespace SecretCipher

/-- The key of a cipher for some material has 32 bytes. -/
theorem length_key {material : String} {cipher : SecretCipher}
    (h : ofMaterial? material = some cipher) : cipher.key.length = 32 := by
  unfold ofMaterial? at h
  split at h
  · cases h
  · obtain rfl := Option.some.inj h
    exact Digest.length_sha256 _

variable {cipher : SecretCipher} {nonce : List UInt8}

/-- The bytes of a stored secret: the nonce, and what has been sealed under it. -/
theorem decode?_sealSecret {secret : String} (hSecret : secret ≠ "") :
    Text.Base64.decode? (cipher.sealSecret nonce secret) =
      some (nonce ++ Galois.encrypt cipher.key nonce (Text.utf8 secret)) := by
  have hEmpty : secret.isEmpty = false := by simpa using hSecret
  rw [sealSecret, hEmpty]
  exact Text.Base64.decode?_encode _

/-- Only the empty secret is stored as the empty text. -/
theorem sealSecret_eq_empty (hKey : cipher.key.length = 32) {secret : String} :
    cipher.sealSecret nonce secret = "" ↔ secret = "" := by
  constructor
  · intro hStored
    by_contra hSecret
    have hBytes : Text.Base64.decode? (cipher.sealSecret nonce secret) = some _ :=
      decode?_sealSecret hSecret
    rw [hStored] at hBytes
    have hNil := Option.some.inj hBytes
    have hLength := Galois.length_encrypt hKey nonce (Text.utf8 secret)
    rw [(List.append_eq_nil_iff.mp hNil.symm).2] at hLength
    simp [Galois.tagSize] at hLength
  · rintro rfl
    rfl

/-- Opening what has been sealed gives the secret back. -/
theorem openSecret_sealSecret (hKey : cipher.key.length = 32) (hNonce : nonce.length = nonceSize)
    (secret : String) : cipher.openSecret (cipher.sealSecret nonce secret) = .ok secret := by
  by_cases hSecret : secret = ""
  · subst hSecret
    rfl
  have hStored : (cipher.sealSecret nonce secret).isEmpty = false := by
    simpa using (sealSecret_eq_empty hKey).not.mpr hSecret
  have hLength := Galois.length_encrypt hKey nonce (Text.utf8 secret)
  have hLong : ¬(nonce ++ Galois.encrypt cipher.key nonce (Text.utf8 secret)).length ≤ nonceSize := by
    rw [List.length_append, hNonce, hLength, Galois.tagSize]
    omega
  rw [openSecret, hStored, decode?_sealSecret hSecret]
  simp only [Bool.false_eq_true, if_false]
  rw [if_neg hLong, ← hNonce, List.take_left, List.drop_left, Galois.decrypt?_encrypt hKey]
  simp only [Text.decodeUtf8?_utf8]

/-- Any material makes a cipher under its digest, which opens what it has sealed under any nonce.
Besides the empty secret, what is stored is Base64 of the nonce and the sealed bytes, which are
sixteen more than those of the secret. -/
theorem seal_roundTrip {material : String} (hMaterial : material ≠ "")
    (hNonce : nonce.length = nonceSize) (secret : String) :
    ∃ cipher, ofMaterial? material = some cipher ∧
      cipher.key = Digest.sha256 (Text.utf8 material) ∧
      cipher.openSecret (cipher.sealSecret nonce secret) = .ok secret ∧
      (secret ≠ "" →
        let sealed := Galois.encrypt cipher.key nonce (Text.utf8 secret)
        sealed.length = (Text.utf8 secret).length + 16 ∧
          Text.Base64.decode? (cipher.sealSecret nonce secret) = some (nonce ++ sealed)) := by
  have hCipher : ofMaterial? material = some ⟨Digest.sha256 (Text.utf8 material)⟩ :=
    if_neg (by simpa using hMaterial)
  have hKey := length_key hCipher
  refine ⟨_, hCipher, rfl, openSecret_sealSecret hKey hNonce secret, fun hSecret => ⟨?_, ?_⟩⟩
  · exact Galois.length_encrypt hKey nonce (Text.utf8 secret)
  · exact decode?_sealSecret hSecret

theorem seal_roundTrip_short : "k" ≠ "" ∧ (List.replicate 12 (7 : UInt8)).length = nonceSize ∧
    ∃ cipher, ofMaterial? "k" = some cipher ∧
      cipher.openSecret (cipher.sealSecret (List.replicate 12 7) "né") = .ok "né" ∧
      ∃ sealed : List UInt8, sealed.length = 19 ∧
        Text.Base64.decode? (cipher.sealSecret (List.replicate 12 7) "né") =
          some (List.replicate 12 7 ++ sealed) := by
  have hMaterial : "k" ≠ "" := by decide
  have hNonce : (List.replicate 12 (7 : UInt8)).length = nonceSize := by decide
  obtain ⟨cipher, hCipher, -, hOpens, hBytes⟩ := seal_roundTrip hMaterial hNonce "né"
  obtain ⟨hLength, hDecoded⟩ := hBytes (by decide)
  exact ⟨hMaterial, hNonce, cipher, hCipher, hOpens, _, hLength.trans (by decide +kernel),
    hDecoded⟩

end SecretCipher
end Triage.Cipher
