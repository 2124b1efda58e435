import Triage.Cipher.Galois
import Triage.Digest.Sha256
import Triage.Text.Base64
import Triage.Text.Utf8

/-!
# Secrets at rest

Secrets are stored sealed: AES-256 in Galois/counter mode under the SHA-256 digest of the key
material, and then Base64 over nonce, sealed bytes and tag.  The empty secret is stored as the empty
text.
-/

namespace Triage.Cipher

/-- Why a stored secret cannot be read. -/
inductive SecretFault where
  | notBase64
  | tooShort
  | unauthentic
  | notText
deriving DecidableEq, Repr

/-- A cipher for secrets. -/
structure SecretCipher where
  key : List UInt8
deriving DecidableEq, Repr

namespace SecretCipher

/-- Bytes in a nonce. -/
def nonceSize : Nat := 12

/-- The cipher of a key material; there is none without material. -/
def ofMaterial? (material : String) : Option SecretCipher :=
  if material.isEmpty then none else some ⟨Digest.sha256 (Text.utf8 material)⟩

/-- The stored form of a secret under a nonce. -/
def sealSecret (cipher : SecretCipher) (nonce : List UInt8) (secret : String) : String :=
  if secret.isEmpty then ""
  else Text.Base64.encode (nonce ++ Galois.encrypt cipher.key nonce (Text.utf8 secret))

/-- The secret of a stored form. -/
def openSecret (cipher : SecretCipher) (stored : String) : Except SecretFault String :=
  if stored.isEmpty then .ok ""
  else
    match Text.Base64.decode? stored with
    | none => .error .notBase64
    | some raw =>
      if raw.length ≤ nonceSize then .error .tooShort
      else
        match Galois.decrypt? cipher.key (raw.take nonceSize) (raw.drop nonceSize) with
        | none => .error .unauthentic
        | some bytes =>
          match Text.decodeUtf8? bytes with
          | none => .error .notText
          | some secret => .ok secret

end SecretCipher
end Triage.Cipher
