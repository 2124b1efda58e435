import Triage.Number.Binary64

/-!
# Readable sizes

A number of bytes in the largest unit that keeps it below 1024, with two decimal places.  The number
is taken in binary64 precision first, so very long numbers are rounded, and numbers beyond its range
have no size.
-/

namespace Triage

/-- Takes units of 1024 off a size until it is below 1024 or the units are used up. -/
def sizeInUnits (num den : Nat) : List String → String
  | [] => Binary64.twoPlaces num den
  | [unit] => Binary64.twoPlaces num den ++ " " ++ unit
  | unit :: larger =>
    if num < 1024 * den then Binary64.twoPlaces num den ++ " " ++ unit
    else sizeInUnits num (den * 1024) larger

/-- The size of a number of bytes. -/
def readableSize? (bytes : Int) : Option String :=
  if bytes < 1024 then some (Text.intText bytes ++ " B")
  else
    (Binary64.nearest? bytes.toNat 1).map fun bits =>
      let (m, e) := Binary64.exactMagnitude bits
      let (num, den) := Binary64.dyadic m e
      sizeInUnits num (den * 1024) ["KiB", "MiB", "GiB", "TiB"]

end Triage
