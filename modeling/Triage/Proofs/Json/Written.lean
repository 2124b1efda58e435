import Triage.Json.Writer
import Triage.Proofs.Json.Reading

/-!
# What is written is JSON

In both styles a value is written as a text that spells it (`spellsText_render`), so it is read back
as the value (`parse?_render`) and no two values are written alike (`render_injective`).  Only decimal
numbers need a look at their digits: that a decimal is spelled as it is written is asked for
(`Writable`).
-/

namespace Triage.Json

variable {style : Style}

theorem wholeDigits_natDigits (n : Nat) : WholeDigits (Text.natDigits n) := by
  refine ⟨⟨Text.natDigits_ne_nil n, fun c hc => Text.isAsciiDigit_of_mem_natDigits hc⟩, ?_⟩
  intro hHead
  obtain rfl := Text.eq_zero_of_head_natDigits hHead
  simp [Text.natDigits]

/-- A whole number is spelled by its numeral. -/
theorem spells_intDigits (n : Int) : SpellsNumber (.int n) (Text.intDigits n) := by
  have hSpells := SpellsNumber.whole (decide (n < 0)) (wholeDigits_natDigits n.natAbs)
  rw [Text.valueOf_natDigits] at hSpells
  by_cases hNegative : n < 0
  · have hValue : signed true n.natAbs = n := by
      rw [signed, if_pos rfl]
      omega
    simpa [Text.intDigits, minus, hNegative, hValue] using hSpells
  · have hValue : signed false n.natAbs = n := by
      rw [signed, if_neg (by decide)]
      omega
    simpa [Text.intDigits, minus, hNegative, hValue] using hSpells

theorem spells_hexDigits {unit : Nat} (h : unit < 0x10000) :
    SpellsUnit unit (Text.hexDigits 4 unit) := by
  have hDigit (n : Nat) : Text.hexValue? (Text.digitChar (n % 16)) = some (n % 16) :=
    Text.hexValue?_digitChar (Nat.mod_lt _ (by decide))
  have hSpells := SpellsUnit.digits (hDigit (unit / 16 / 16 / 16)) (hDigit (unit / 16 / 16))
    (hDigit (unit / 16)) (hDigit unit)
  -- The digits are taken from the right, and the reader adds them up from the left.
  have hUnit : ((unit / 16 / 16 / 16 % 16 * 16 + unit / 16 / 16 % 16) * 16 + unit / 16 % 16) * 16 +
      unit % 16 = unit := by omega
  rwa [hUnit] at hSpells

/-- Any character is spelled by its escape. -/
theorem spells_charEscape (c : Char) : SpellsChar c (charEscape c) := by
  unfold charEscape
  split
  next hSmall => exact .unit (spells_hexDigits hSmall)
  next hLarge =>
    have hMost : c.toNat < 0x110000 := by
      rcases c.valid with hLow | hHigh
      · exact Nat.lt_trans hLow (by decide)
      · exact hHigh.2
    exact .pair (by omega) (by omega) (by omega) (spells_hexDigits (by omega))
      (spells_hexDigits (by omega))

/-- A character is spelled as it is written, in either style. -/
theorem spells_writeChar (style : Style) (c : Char) : SpellsChar c (writeChar style c) := by
  have hPlain (hPrintable : ¬c.toNat < 32) (hQuote : c ≠ '"') (hBackslash : c ≠ '\\') :
      SpellsChar c [c] := .plain (by omega) hQuote hBackslash
  unfold writeChar
  split_ifs with hQuote hBackslash hNewline hReturn hTab hBack hFeed hControl hAscii
  · subst hQuote
    exact .short (by decide)
  · subst hBackslash
    exact .short (by decide)
  · subst hNewline
    exact .short (by decide)
  · subst hReturn
    exact .short (by decide)
  · subst hTab
    exact .short (by decide)
  · subst hBack
    exact .short (by decide)
  · subst hFeed
    exact .short (by decide)
  · exact spells_charEscape c
  · cases style <;> exact hPlain hControl hQuote hBackslash
  · cases style with
    | compact => exact hPlain hControl hQuote hBackslash
    | line => exact spells_charEscape c

theorem spells_chars (style : Style) (cs : List Char) :
    SpellsChars cs (cs.flatMap (writeChar style)) := by
  induction cs with
  | nil => exact .nil
  | cons c cs ih => exact .cons (spells_writeChar style c) ih

/-- The separators of both styles are a character and blanks. -/
theorem comma_eq (style : Style) : ∃ blanks, Blanks blanks ∧ comma style = ',' :: blanks := by
  cases style with
  | compact => exact ⟨[], Blanks.nil, rfl⟩
  | line => exact ⟨[' '], by simp [Blanks], rfl⟩

theorem colon_eq (style : Style) : ∃ blanks, Blanks blanks ∧ colon style = ':' :: blanks := by
  cases style with
  | compact => exact ⟨[], Blanks.nil, rfl⟩
  | line => exact ⟨[' '], by simp [Blanks], rfl⟩

/-- A member is spelled as it is written. -/
theorem spells_member (style : Style) (key : String) {j : Json} {text : List Char}
    (h : Spells (.value j) text) :
    Spells (.member (key, j)) (writeString style key ++ colon style ++ text) := by
  obtain ⟨blanks, hBlanks, hColon⟩ := colon_eq style
  have hMember := Spells.member Blanks.nil (spells_chars style key.toList) Blanks.nil
    (h.bare.indent hBlanks (by simp))
  simpa [writeString, hColon] using hMember

/-- The items of an array are spelled as they are written, if each of them is. -/
theorem spells_writeItems {js : List Json} (h : ∀ j ∈ js, Spells (.value j) (j.write style))
    (hNe : js ≠ []) : Spells (.items js) (writeItems style js) := by
  induction js with
  | nil => exact absurd rfl hNe
  | cons j js ih =>
      have hFirst := (h j List.mem_cons_self).bare
      cases js with
      | nil => exact .lastItem hFirst
      | cons next js =>
          obtain ⟨blanks, hBlanks, hComma⟩ := comma_eq style
          have hRest := (ih (fun k hk => h k (List.mem_cons_of_mem _ hk)) (by simp)).indent hBlanks
            (by simp)
          have hItems := Spells.moreItems hFirst hRest
          simpa [writeItems, hComma] using hItems

/-- The members of an object are spelled as they are written, if each of their values is. -/
theorem spells_writeMembers {ms : List (String × Json)}
    (h : ∀ m ∈ ms, Spells (.value m.2) (m.2.write style)) (hNe : ms ≠ []) :
    Spells (.members ms) (writeMembers style ms) := by
  induction ms with
  | nil => exact absurd rfl hNe
  | cons m ms ih =>
      obtain ⟨key, j⟩ := m
      have hFirst := spells_member style key (h (key, j) List.mem_cons_self)
      cases ms with
      | nil => exact .lastMember hFirst
      | cons next ms =>
          obtain ⟨blanks, hBlanks, hComma⟩ := comma_eq style
          have hRest := (ih (fun k hk => h k (List.mem_cons_of_mem _ hk)) (by simp)).indent hBlanks
            (by simp)
          have hMembers := Spells.moreMembers hFirst hRest
          simpa [writeMembers, hComma] using hMembers

/-- The values that are spelled as they are written: all whose decimal numbers are. -/
inductive Writable : Json → Prop
  | null : Writable .null
  | bool (value : Bool) : Writable (.bool value)
  | int (value : Int) : Writable (.int value)
  | decimal {value : Decimal} (h : SpellsNumber (.decimal value) (writeDecimal value)) :
      Writable (.decimal value)
  | str (value : String) : Writable (.str value)
  | arr {js : List Json} (h : ∀ j ∈ js, Writable j) : Writable (.arr js)
  | obj {ms : List (String × Json)} (h : ∀ m ∈ ms, Writable m.2) : Writable (.obj ms)

/-- A value is spelled as it is written, in either style. -/
theorem spells_write (style : Style) {j : Json} (h : Writable j) :
    Spells (.value j) (j.write style) := by
  induction h with
  | null => exact .null
  | bool value =>
      cases value with
      | true => exact .yes
      | false => exact .no
  | int value => exact .number (spells_intDigits value)
  | decimal h => exact .number h
  | str value => exact .string (spells_chars style value.toList)
  | @arr js h ih =>
      by_cases hNil : js = []
      · subst hNil
        exact .emptyArray Blanks.nil
      · exact .array (spells_writeItems ih hNil)
  | @obj ms h ih =>
      by_cases hNil : ms = []
      · subst hNil
        exact .emptyObject Blanks.nil
      · exact .object (spells_writeMembers ih hNil)

/-- A value as text spells the value. -/
theorem spellsText_render (style : Style) {j : Json} (h : Writable j) :
    SpellsText j (j.render style) := by
  rw [SpellsText, render, String.toList_ofList]
  exact (spells_write style h).bare

/-- What is written is read back. -/
theorem parse?_render (style : Style) {j : Json} (h : Writable j) : parse? (j.render style) = some j :=
  (spellsText_render style h).parse?_eq

/-- No two values are written alike. -/
theorem render_injective {style : Style} {j k : Json} (hj : Writable j) (hk : Writable k)
    (h : j.render style = k.render style) : j = k := by
  have hSame := parse?_render style hj
  rw [h, parse?_render style hk] at hSame
  exact (Option.some.inj hSame).symm

end Triage.Json
