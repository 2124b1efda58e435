import Triage.Message.Volatile

/-!
# Normal form of error messages

One round replaces every volatile piece of a message by its placeholder and collapses blanks.  A
round can leave new volatile pieces behind, so rounds repeat until the text no longer changes, at
most `maxRounds` times.
-/

namespace Triage.Message

/-- How many rounds are run before giving up on a fixed point. -/
def maxRounds : Nat := 16

/-- Each run of blanks becomes a single space. -/
def collapseBlanks : List Char → List Char
  | [] => []
  | c :: rest =>
    if Text.isBlank c then
      match rest with
      | d :: _ => if Text.isBlank d then collapseBlanks rest else ' ' :: collapseBlanks rest
      | [] => [' ']
    else c :: collapseBlanks rest

/-- One round: all rules in order, then blanks. -/
def normalizeRound (message : List Char) : List Char :=
  let replaced := rules.foldl
    (fun text rule => rule.pattern.replaceAll rule.placeholder.toList text) message
  Text.strip (collapseBlanks replaced)

/-- Repeats rounds while they change the text, at most `fuel` times. -/
def settle : Nat → List Char → List Char
  | 0, text => text
  | fuel + 1, text =>
    let again := normalizeRound text
    if again = text then text else settle fuel again

/-- The normal form of a message. -/
def normalize (message : String) : String :=
  if message.isEmpty then ""
  else String.ofList (settle (maxRounds - 1) (normalizeRound message.toList))

end Triage.Message
