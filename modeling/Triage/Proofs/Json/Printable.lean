import Triage.Proofs.Json.Decimals

/-!
# A written line is printable

In the line style every character of a written value is a printable ASCII character
(`printable_write`), whatever characters its strings have.  So a written value never breaks a line.
-/

namespace Triage.Json

/-- All characters of a text are printable ASCII characters. -/
def Printable (text : List Char) : Prop := ∀ c ∈ text, 32 ≤ c.toNat ∧ c.toNat < 127

instance (text : List Char) : Decidable (Printable text) :=
  List.decidableBAll (fun c : Char => 32 ≤ c.toNat ∧ c.toNat < 127) text

section Pieces

variable {text more : List Char} {c : Char}

theorem Printable.nil : Printable [] := fun _ h => by cases h

theorem Printable.cons (hc : 32 ≤ c.toNat ∧ c.toNat < 127) (h : Printable text) :
    Printable (c :: text) := List.forall_mem_cons.mpr ⟨hc, h⟩

theorem Printable.append (h : Printable text) (hMore : Printable more) : Printable (text ++ more) :=
  fun c hc => (List.mem_append.mp hc).elim (h c) (hMore c)

theorem Digits.printable (h : Digits text) : Printable text := fun c hc => by
  have hDigit := h.2 c hc
  rw [Text.isAsciiDigit, Bool.and_eq_true, decide_eq_true_eq, decide_eq_true_eq] at hDigit
  have hLeast : 48 ≤ c.toNat := hDigit.1
  have hMost : c.toNat ≤ 57 := hDigit.2
  omega

theorem SpellsFraction.printable (h : SpellsFraction text more) : Printable more := by
  cases h with
  | none => exact .nil
  | places hDigits => exact hDigits.printable.cons (by decide)

theorem SpellsExponent.printable {power : Int} (h : SpellsExponent power text) :
    Printable text := by
  have hLetters : ∀ letter : Char, letter = 'e' ∨ letter = 'E' →
      32 ≤ letter.toNat ∧ letter.toNat < 127 := by
    rintro _ (rfl | rfl) <;> decide
  cases h with
  | none => exact .nil
  | plain hLetter hDigits => exact hDigits.printable.cons (hLetters _ hLetter)
  | plus hLetter hDigits | minus hLetter hDigits =>
      exact (hDigits.printable.cons (by decide)).cons (hLetters _ hLetter)

theorem printable_minus (negative : Bool) : Printable (minus negative) := by
  cases negative
  · exact .nil
  · exact Printable.nil.cons (by decide)

theorem printable_intDigits (n : Int) : Printable (Text.intDigits n) := by
  have hDigits := (digits_natDigits n.natAbs).printable
  rw [Text.intDigits]
  split
  · exact hDigits.cons (by decide)
  · exact hDigits

theorem printable_writeDecimal (d : Decimal) : Printable (writeDecimal d) := by
  obtain ⟨_, hText, whole, places, fraction, exponent, power, hWhole, hFraction, hExponent, -, rfl,
    -⟩ := writeDecimal_eq d
  rw [hText]
  exact (printable_minus _).append
    (hWhole.1.printable.append (hFraction.printable.append hExponent.printable))

theorem printable_hexDigits (width n : Nat) : Printable (Text.hexDigits width n) := by
  have hDigit : ∀ value < 16, 32 ≤ (Text.digitChar value).toNat ∧
      (Text.digitChar value).toNat < 127 := by decide
  induction width generalizing n with
  | zero => exact .nil
  | succ width ih =>
      exact (ih (n / 16)).append (Printable.nil.cons (hDigit _ (Nat.mod_lt _ (by decide))))

theorem printable_unitEscape (unit : Nat) : Printable (unitEscape unit) :=
  ((printable_hexDigits 4 unit).cons (by decide)).cons (by decide)

theorem printable_charEscape (c : Char) : Printable (charEscape c) := by
  rw [charEscape]
  split
  · exact printable_unitEscape _
  · exact (printable_unitEscape _).append (printable_unitEscape _)

/-- Characters outside printable ASCII are escaped. -/
theorem printable_writeChar (c : Char) : Printable (writeChar .line c) := by
  have hShort {letter : Char} (h : 32 ≤ letter.toNat ∧ letter.toNat < 127) :
      Printable ['\\', letter] := (Printable.nil.cons h).cons (by decide)
  unfold writeChar
  split_ifs with _ _ _ _ _ _ _ hControl hAscii
  iterate 7 exact hShort (by decide)
  · exact printable_charEscape c
  · exact Printable.nil.cons ⟨Nat.le_of_not_lt hControl, hAscii⟩
  · exact printable_charEscape c

theorem printable_writeString (s : String) : Printable (writeString .line s) := by
  have hChars : Printable (s.toList.flatMap (writeChar .line)) := fun c hc => by
    obtain ⟨d, -, hd⟩ := List.mem_flatMap.mp hc
    exact printable_writeChar d c hd
  exact (hChars.append (Printable.nil.cons (by decide))).cons (by decide)

theorem printable_comma : Printable (comma .line) := by decide

theorem printable_colon : Printable (colon .line) := by decide

end Pieces

mutual

/-- A value is written in printable characters. -/
theorem printable_write : ∀ j : Json, Printable (j.write .line)
  | .null => by rw [write]; decide
  | .bool true => by rw [write]; decide
  | .bool false => by rw [write]; decide
  | .int n => by rw [write]; exact printable_intDigits n
  | .decimal d => by rw [write]; exact printable_writeDecimal d
  | .str s => by rw [write]; exact printable_writeString s
  | .arr items => by
      rw [write]
      exact ((printable_writeItems items).append (Printable.nil.cons (by decide))).cons (by decide)
  | .obj members => by
      rw [write]
      exact ((printable_writeMembers members).append (Printable.nil.cons (by decide))).cons
        (by decide)

theorem printable_writeItems : ∀ items : List Json, Printable (writeItems .line items)
  | [] => .nil
  | [item] => by rw [writeItems]; exact printable_write item
  | item :: next :: rest => by
      rw [writeItems]
      · exact ((printable_write item).append printable_comma).append
          (printable_writeItems (next :: rest))
      · simp

theorem printable_writeMembers :
    ∀ members : List (String × Json), Printable (writeMembers .line members)
  | [] => .nil
  | [(key, value)] => by
      rw [writeMembers]
      exact ((printable_writeString key).append printable_colon).append (printable_write value)
  | (key, value) :: next :: rest => by
      rw [writeMembers]
      · exact ((((printable_writeString key).append printable_colon).append
          (printable_write value)).append printable_comma).append
          (printable_writeMembers (next :: rest))
      · simp

end

example : (Json.str "\n\u00e9\x7f").render .line = "\"\\n\\u00e9\\u007f\"" := by
  rw [← String.toList_inj]
  cbv

end Triage.Json
