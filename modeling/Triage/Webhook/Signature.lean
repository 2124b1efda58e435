import Triage.Digest.Sha256
import Triage.Text.Search
import Triage.Text.Numeral

/-!
# Webhook signatures

The signature of a request body is the HMAC-SHA256 of its bytes under the secret, in lower-case
hexadecimal.  Receivers may send it back in either case and with a fixed text in front.
-/

namespace Triage.Webhook

/-- The text that a receiver may put in front of a signature. -/
def defaultMark : String := "sha256="

/-- The signature of a body. -/
def sign (body : List UInt8) (secret : String) : String :=
  Text.hexOfBytes (Digest.hmacSha256 (Text.utf8 secret) body)

/-- The SHA-256 digest of a body, for audits. -/
def bodyDigest (body : List UInt8) : String := Text.hexOfBytes (Digest.sha256 body)

/-- A signature without the mark in front of it. -/
def dropMark (mark : String) (signature : List Char) : List Char :=
  if mark.toList.isPrefixOf signature then signature.drop mark.length else signature

/-- Whether a signature is the right one for a body.  A missing secret or signature is never right.
There is no answer for a signature that is not ASCII even in lower case. -/
def verify? (body : List UInt8) (secret signature : String) (mark : String) : Option Bool :=
  if secret.isEmpty || signature.isEmpty then some false
  else
    let given := (dropMark mark signature.toList).map Text.lowerForAscii
    if given.all fun c => c.toNat < 128 then some (decide (given = (sign body secret).toList))
    else none

end Triage.Webhook
