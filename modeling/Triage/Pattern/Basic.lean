import Triage.Text.Classes

/-!
# Text patterns

A small pattern language with ordered choice and greedy repetition.  `Pattern.ends` lists every spot
at which a match that starts at a given spot can stop, the most preferred one first; a pattern's
match is the head of that list.  `Pattern.replaceAll` replaces the leftmost matches from left to
right, without overlap.
-/

namespace Triage

/-- A place in a text: the character just before it, if any, and the characters after it. -/
structure Spot where
  before : Option Char
  rest : List Char
deriving DecidableEq

/-- Patterns.  Repetition is greedy, and the first branch of a choice is preferred. -/
inductive Pattern where
  /-- The empty text. -/
  | empty
  /-- A place with a word character on exactly one side. -/
  | wordEdge
  /-- Between `least` and `most` characters of a class. -/
  | run (accepts : Char → Bool) (least : Nat) (most : Option Nat)
  /-- One pattern, then another. -/
  | next (first second : Pattern)
  /-- The first pattern, or else the second. -/
  | orElse (first second : Pattern)
  /-- Any number of repetitions, each of them nonempty. -/
  | many (body : Pattern)

namespace Spot

/-- Whether a word character stands on exactly one side. -/
def atWordEdge (s : Spot) : Bool :=
  (match s.before with | some c => Text.isWord c | none => false) !=
  (match s.rest with | c :: _ => Text.isWord c | [] => false)

/-- The spots reached by consuming between `least` and `most` characters of a class, the farthest
one first, followed by those in `found`. -/
def runEnds (accepts : Char → Bool) :
    Nat → Option Nat → Option Char → List Char → List Spot → List Spot
  | least, most, before, rest, found =>
    let found := if least = 0 then ⟨before, rest⟩ :: found else found
    match rest with
    | [] => found
    | c :: tail =>
      match most with
      | some 0 => found
      | some (k + 1) =>
        if accepts c then runEnds accepts (least - 1) (some k) (some c) tail found else found
      | none => if accepts c then runEnds accepts (least - 1) none (some c) tail found else found

end Spot

namespace Pattern

/-- The spots reached by repeating a step that makes progress, at most `fuel` times; more
repetitions come first. -/
def repeatEnds (step : Spot → List Spot) : Nat → Spot → List Spot
  | 0, s => [s]
  | fuel + 1, s =>
    ((step s).filter fun t => t.rest.length < s.rest.length).flatMap (repeatEnds step fuel) ++ [s]

/-- Every spot at which a match can stop, the most preferred one first. -/
def ends : Pattern → Spot → List Spot
  | .empty, s => [s]
  | .wordEdge, s => if s.atWordEdge then [s] else []
  | .run accepts least most, s => Spot.runEnds accepts least most s.before s.rest []
  | .next first second, s => (ends first s).flatMap (ends second)
  | .orElse first second, s => ends first s ++ ends second s
  | .many body, s => repeatEnds (ends body) s.rest.length s

/-- Where the pattern's match at a spot stops. -/
def stop? (p : Pattern) (s : Spot) : Option Spot := (p.ends s).head?

/-- Replaces every match by a fixed text, from left to right.  A match must consume something. -/
def replaceFrom (p : Pattern) (replacement : List Char) (s : Spot) : List Char :=
  match _h : s.rest with
  | [] => []
  | c :: tail =>
    match p.stop? s with
    | some t =>
      if t.rest.length < s.rest.length then replacement ++ replaceFrom p replacement t
      else c :: replaceFrom p replacement ⟨some c, tail⟩
    | none => c :: replaceFrom p replacement ⟨some c, tail⟩
termination_by s.rest.length
decreasing_by all_goals simp_all

/-- Replaces every match in a text. -/
def replaceAll (p : Pattern) (replacement text : List Char) : List Char :=
  p.replaceFrom replacement ⟨none, text⟩

/-- One character of a class. -/
def one (accepts : Char → Bool) : Pattern := .run accepts 1 (some 1)

/-- Exactly `n` characters of a class. -/
def exactly (n : Nat) (accepts : Char → Bool) : Pattern := .run accepts n (some n)

/-- At least `n` characters of a class. -/
def atLeast (n : Nat) (accepts : Char → Bool) : Pattern := .run accepts n none

/-- A fixed character. -/
def char (c : Char) : Pattern := one (· = c)

/-- Patterns one after the other. -/
def inOrder (parts : List Pattern) : Pattern := parts.foldr .next .empty

/-- A fixed text. -/
def text (s : String) : Pattern := inOrder (s.toList.map char)

/-- A pattern that may be absent. -/
def optional (p : Pattern) : Pattern := .orElse p .empty

/-- A pattern `n` times over. -/
def times (n : Nat) (p : Pattern) : Pattern := inOrder (List.replicate n p)

/-- One repetition or more. -/
def onceOrMore (p : Pattern) : Pattern := .next p (.many p)

end Pattern
end Triage
