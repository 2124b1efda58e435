import Triage.Text.Numeral

/-!
# Correlation identifiers

Log records that belong together carry one correlation identifier.  A scope binds an identifier and
gives back the previous one at its end; a scope without an identifier of its own gets a fresh one.
-/

namespace Triage.Log

/-- The identifier that is bound, and how many have been generated. -/
structure Correlation where
  current : Option String
  generated : Nat
deriving DecidableEq, Repr

namespace Correlation

/-- Nothing bound, nothing generated. -/
def initial : Correlation := ⟨none, 0⟩

/-- An identifier of 32 hexadecimal digits. -/
def identifier (n : Nat) : String := String.ofList (Text.hexDigits 32 n)

/-- Binds a fresh identifier. -/
def enterFresh (c : Correlation) : String × Correlation :=
  let id := identifier (c.generated + 1)
  (id, ⟨some id, c.generated + 1⟩)

/-- Binds an identifier, or a fresh one in place of none or an empty one. -/
def enter (c : Correlation) (id : Option String) : String × Correlation :=
  match id with
  | some text => if text.isEmpty then c.enterFresh else (text, { c with current := some text })
  | none => c.enterFresh

/-- Binds an identifier in place of the current one. -/
def bind (c : Correlation) (id : String) : Correlation := { c with current := some id }

/-- Ends a scope that was entered when `before` was bound. -/
def leave (c : Correlation) (before : Option String) : Correlation := { c with current := before }

end Correlation
end Triage.Log
