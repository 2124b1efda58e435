import Triage.Failure
import Triage.Text.Search

/-!
# Posting over HTTP

The posts that a deployment makes and how they can end.  An address must name HTTP or HTTPS as its
scheme, in any case; otherwise nothing is sent.
-/

namespace Triage.Webhook

/-- A post with a JSON body, and its signature if it is signed. -/
structure Post where
  url : String
  body : String
  signature : Option String
deriving DecidableEq, Repr

/-- What came back. -/
structure Response where
  status : Int
  body : List UInt8
deriving DecidableEq, Repr

/-- How a post ends: with a response, with a broken transport, or with a failure of something else.
-/
inductive PostOutcome where
  | response (response : Response)
  | broken (text : String)
  | failed (failure : Failure)

/-- What a host answers when nothing else is arranged. -/
def PostOutcome.fine : PostOutcome := .response ⟨200, Text.utf8 "ok"⟩

/-- Whether a response reports success. -/
def Response.isSuccess (r : Response) : Bool := decide (200 ≤ r.status) && decide (r.status < 300)

/-- Whether a character can stand in a scheme after its first letter. -/
def inScheme (c : Char) : Bool := Text.isAsciiAlnum c || c = '+' || c = '.' || c = '-'

/-- The scheme of an address and what follows it, from the colon on. -/
def splitScheme? (url : List Char) : Option (List Char × List Char) :=
  match url with
  | [] => none
  | c :: _ =>
    let scheme := url.takeWhile inScheme
    let rest := url.drop scheme.length
    if Text.isAsciiLetter c && rest.head? = some ':' then some (scheme, rest) else none

/-- An address with its scheme in lower case; or why it cannot be posted to. -/
def postableUrl (url : String) : Except String String :=
  match splitScheme? url.toList with
  | none => .error "Request URL is missing an 'http://' or 'https://' protocol."
  | some (scheme, rest) =>
    let scheme := scheme.map Text.foldAscii
    if scheme = "http".toList || scheme = "https".toList then .ok (String.ofList (scheme ++ rest))
    else .error ("Request URL has an unsupported protocol '" ++ String.ofList scheme ++ "://'.")

end Triage.Webhook
