import Triage.Json.Value
import Triage.Proofs.Text.Numerals

/-!
# The grammar of JSON

Which texts spell a JSON value, as RFC 8259 has it for Unicode text, apart from how they are read.
Blanks may stand around every token, a character of a string may stand for itself or be escaped in
several ways, and a number may have a fraction and an exponent; one that has stands for the nearest
binary64 number.
-/

namespace Triage.Json

open Text (isAsciiDigit valueOf)

/-- Blanks, of which there may be any number between tokens. -/
def Blanks (text : List Char) : Prop := ∀ c ∈ text, c = ' ' ∨ c = '\t' ∨ c = '\n' ∨ c = '\r'

/-- The letters of the short escapes, and the characters they stand for. -/
def shortEscapes : List (Char × Char) :=
  [('"', '"'), ('\\', '\\'), ('/', '/'), ('b', '\x08'), ('f', '\x0c'), ('n', '\n'), ('r', '\r'),
    ('t', '\t')]

/-- Four hexadecimal digits spell a 16-bit unit. -/
inductive SpellsUnit : Nat → List Char → Prop
  | digits {a b c d : Char} {p q r s : Nat} (ha : Text.hexValue? a = some p)
      (hb : Text.hexValue? b = some q) (hc : Text.hexValue? c = some r)
      (hd : Text.hexValue? d = some s) :
      SpellsUnit (((p * 16 + q) * 16 + r) * 16 + s) [a, b, c, d]

/-- The ways to spell a character inside a string.  Above 16 bits, the escape is a surrogate pair. -/
inductive SpellsChar : Char → List Char → Prop
  | plain {c : Char} (hPrintable : 32 ≤ c.toNat) (hQuote : c ≠ '"') (hBackslash : c ≠ '\\') :
      SpellsChar c [c]
  | short {letter c : Char} (h : (letter, c) ∈ shortEscapes) : SpellsChar c ['\\', letter]
  | unit {c : Char} {digits : List Char} (h : SpellsUnit c.toNat digits) :
      SpellsChar c ('\\' :: 'u' :: digits)
  | pair {c : Char} {high low : Nat} {front back : List Char}
      (hHigh : 0xD800 ≤ high ∧ high < 0xDC00) (hLow : 0xDC00 ≤ low ∧ low < 0xE000)
      (hChar : c.toNat = 0x10000 + (high - 0xD800) * 1024 + (low - 0xDC00))
      (hFront : SpellsUnit high front) (hBack : SpellsUnit low back) :
      SpellsChar c ('\\' :: 'u' :: front ++ '\\' :: 'u' :: back)

/-- The characters of a string, between its quotes. -/
inductive SpellsChars : List Char → List Char → Prop
  | nil : SpellsChars [] []
  | cons {c : Char} {cs text rest : List Char} (hFirst : SpellsChar c text)
      (hRest : SpellsChars cs rest) : SpellsChars (c :: cs) (text ++ rest)

/-- Decimal digits, at least one. -/
def Digits (text : List Char) : Prop := text ≠ [] ∧ ∀ c ∈ text, isAsciiDigit c = true

/-- The digits before a decimal point: zero stands alone. -/
def WholeDigits (text : List Char) : Prop := Digits text ∧ (text.head? = some '0' → text.length = 1)

/-- A minus sign or nothing. -/
def minus (negative : Bool) : List Char := if negative then ['-'] else []

/-- A number with its sign. -/
def signed (negative : Bool) (magnitude : Nat) : Int :=
  if negative then -(magnitude : Int) else magnitude

/-- The decimal places of a number, if it has any. -/
inductive SpellsFraction : List Char → List Char → Prop
  | none : SpellsFraction [] []
  | places {digits : List Char} (h : Digits digits) : SpellsFraction digits ('.' :: digits)

/-- The exponent of a number, if it has one. -/
inductive SpellsExponent : Int → List Char → Prop
  | none : SpellsExponent 0 []
  | plain {letter : Char} {digits : List Char} (hLetter : letter = 'e' ∨ letter = 'E')
      (hDigits : Digits digits) : SpellsExponent (valueOf digits) (letter :: digits)
  | plus {letter : Char} {digits : List Char} (hLetter : letter = 'e' ∨ letter = 'E')
      (hDigits : Digits digits) : SpellsExponent (valueOf digits) (letter :: '+' :: digits)
  | minus {letter : Char} {digits : List Char} (hLetter : letter = 'e' ∨ letter = 'E')
      (hDigits : Digits digits) : SpellsExponent (-(valueOf digits : Int)) (letter :: '-' :: digits)

/-- A number is a whole one, or a decimal one, which stands for the nearest binary64 number. -/
inductive SpellsNumber : Json → List Char → Prop
  | whole {digits : List Char} (negative : Bool) (hWhole : WholeDigits digits) :
      SpellsNumber (.int (signed negative (valueOf digits))) (minus negative ++ digits)
  | decimal {whole places fraction exponent : List Char} {power : Int} (negative : Bool)
      (hWhole : WholeDigits whole) (hFraction : SpellsFraction places fraction)
      (hExponent : SpellsExponent power exponent) (hDecimal : fraction ++ exponent ≠ []) :
      SpellsNumber
        (.decimal (Binary64.canonical
          ⟨negative, valueOf (whole ++ places), power - (places.length : Int)⟩))
        (minus negative ++ (whole ++ (fraction ++ exponent)))

/-- A value, a value with its surroundings, or what stands between the brackets of an array or an
object that is not empty. -/
inductive Piece where
  | value (j : Json)
  | item (j : Json)
  | items (js : List Json)
  | member (m : String × Json)
  | members (ms : List (String × Json))

/-- What a text spells.  Blanks may only stand around a value where it is an item. -/
inductive Spells : Piece → List Char → Prop
  | null : Spells (.value .null) ['n', 'u', 'l', 'l']
  | yes : Spells (.value (.bool true)) ['t', 'r', 'u', 'e']
  | no : Spells (.value (.bool false)) ['f', 'a', 'l', 's', 'e']
  | number {j : Json} {text : List Char} (h : SpellsNumber j text) : Spells (.value j) text
  | string {s : String} {text : List Char} (h : SpellsChars s.toList text) :
      Spells (.value (.str s)) ('"' :: (text ++ ['"']))
  | emptyArray {blanks : List Char} (h : Blanks blanks) :
      Spells (.value (.arr [])) ('[' :: (blanks ++ [']']))
  | array {js : List Json} {text : List Char} (h : Spells (.items js) text) :
      Spells (.value (.arr js)) ('[' :: (text ++ [']']))
  | emptyObject {blanks : List Char} (h : Blanks blanks) :
      Spells (.value (.obj [])) ('{' :: (blanks ++ ['}']))
  | object {ms : List (String × Json)} {text : List Char} (h : Spells (.members ms) text) :
      Spells (.value (.obj ms)) ('{' :: (text ++ ['}']))
  | item {j : Json} {before text after : List Char} (hBefore : Blanks before)
      (h : Spells (.value j) text) (hAfter : Blanks after) :
      Spells (.item j) (before ++ (text ++ after))
  | lastItem {j : Json} {text : List Char} (h : Spells (.item j) text) : Spells (.items [j]) text
  | moreItems {j : Json} {js : List Json} {text more : List Char} (h : Spells (.item j) text)
      (hMore : Spells (.items js) more) : Spells (.items (j :: js)) (text ++ ',' :: more)
  | member {key : String} {j : Json} {before name between text : List Char}
      (hBefore : Blanks before) (hName : SpellsChars key.toList name) (hBetween : Blanks between)
      (h : Spells (.item j) text) :
      Spells (.member (key, j)) (before ++ ('"' :: (name ++ '"' :: (between ++ ':' :: text))))
  | lastMember {m : String × Json} {text : List Char} (h : Spells (.member m) text) :
      Spells (.members [m]) text
  | moreMembers {m : String × Json} {ms : List (String × Json)} {text more : List Char}
      (h : Spells (.member m) text) (hMore : Spells (.members ms) more) :
      Spells (.members (m :: ms)) (text ++ ',' :: more)

/-- A text spells a value when it is that value and nothing else, apart from blanks. -/
def SpellsText (j : Json) (text : String) : Prop := Spells (.item j) text.toList

section Tokens

variable {c : Char} {digits places fraction exponent text rest : List Char} {power : Int}

/-- A character that can open a value. -/
def Opens (c : Char) : Prop :=
  c ∈ ['n', 't', 'f', '"', '[', '{', '-'] ∨ isAsciiDigit c = true

/-- What follows a number does not go on with it. -/
def NumberEnds (rest : List Char) : Prop :=
  ∀ c, rest.head? = some c → isAsciiDigit c = false ∧ c ≠ '.' ∧ c ≠ 'e' ∧ c ≠ 'E'

theorem Opens.ne (h : Opens c) {d : Char} (hd : isAsciiDigit d = false)
    (hList : d ∉ ['n', 't', 'f', '"', '[', '{', '-']) : c ≠ d := by
  rcases h with hMem | hDigit
  · rintro rfl
    exact hList hMem
  · exact Text.ne_of_isAsciiDigit hDigit hd

/-- Digits start with a digit. -/
theorem Digits.exists_cons (h : Digits digits) :
    ∃ c more, digits = c :: more ∧ isAsciiDigit c = true := by
  obtain ⟨hNe, hAll⟩ := h
  cases digits with
  | nil => exact absurd rfl hNe
  | cons c more => exact ⟨c, more, rfl, hAll c List.mem_cons_self⟩

theorem Digits.append {more : List Char} (h : Digits digits) (hMore : more = [] ∨ Digits more) :
    Digits (digits ++ more) := by
  refine ⟨by simp [h.1], fun c hc => ?_⟩
  rcases List.mem_append.mp hc with hFirst | hSecond
  · exact h.2 c hFirst
  · rcases hMore with rfl | hDigits
    · cases hSecond
    · exact hDigits.2 c hSecond

theorem SpellsFraction.places_digits (h : SpellsFraction places fraction) :
    places = [] ∨ Digits places := by
  cases h with
  | none => exact .inl rfl
  | places hDigits => exact .inr hDigits

/-- No digit follows before the places. -/
theorem SpellsFraction.head (h : SpellsFraction places fraction)
    (hRest : ∀ c, rest.head? = some c → isAsciiDigit c = false) {c : Char}
    (hc : (fraction ++ rest).head? = some c) : isAsciiDigit c = false := by
  cases h with
  | none => exact hRest c hc
  | places hDigits =>
      obtain rfl := Option.some.inj hc
      decide

/-- No digit and no point follows before the exponent. -/
theorem SpellsExponent.head (h : SpellsExponent power exponent) (hRest : NumberEnds rest) {c : Char}
    (hc : (exponent ++ rest).head? = some c) : isAsciiDigit c = false ∧ c ≠ '.' := by
  cases h with
  | none => exact ⟨(hRest c hc).1, (hRest c hc).2.1⟩
  | plain hLetter _ | plus hLetter _ | minus hLetter _ =>
      obtain rfl := Option.some.inj hc
      rcases hLetter with rfl | rfl <;> decide

theorem SpellsChar.length_pos (h : SpellsChar c text) : 0 < text.length := by
  cases h <;> simp

theorem SpellsNumber.opens {j : Json} {text : List Char} (h : SpellsNumber j text) :
    ∃ c more, text = c :: more ∧ (c = '-' ∨ isAsciiDigit c = true) := by
  have hFront : ∀ negative {whole : List Char} (rest : List Char), Digits whole →
      ∃ c more, minus negative ++ (whole ++ rest) = c :: more ∧ (c = '-' ∨ isAsciiDigit c = true) := by
    intro negative whole rest hDigits
    obtain ⟨c, more, rfl, hc⟩ := hDigits.exists_cons
    cases negative
    · exact ⟨c, more ++ rest, rfl, .inr hc⟩
    · exact ⟨'-', c :: more ++ rest, rfl, .inl rfl⟩
  cases h with
  | whole negative hWhole =>
      have hText := hFront negative [] hWhole.1
      rwa [List.append_nil] at hText
  | decimal negative hWhole _ _ _ => exact hFront negative _ hWhole.1

end Tokens

section Pieces

variable {p : Piece} {j : Json} {text blanks : List Char}

theorem Blanks.nil : Blanks [] := fun _ h => by cases h

theorem Blanks.append {blanks more : List Char} (h : Blanks blanks) (hMore : Blanks more) :
    Blanks (blanks ++ more) := fun c hc => (List.mem_append.mp hc).elim (h c) (hMore c)

/-- A number ends at blanks, and at what may follow them. -/
theorem numberEnds_blanks {blanks : List Char} (h : Blanks blanks) {rest : List Char}
    (hRest : NumberEnds rest) : NumberEnds (blanks ++ rest) := by
  intro c hc
  cases blanks with
  | nil => exact hRest c hc
  | cons d blanks =>
      obtain rfl := Option.some.inj hc
      rcases h d List.mem_cons_self with rfl | rfl | rfl | rfl <;> decide

theorem numberEnds_cons {c : Char} (hc : c = ',' ∨ c = ']' ∨ c = '}') (rest : List Char) :
    NumberEnds (c :: rest) := by
  rintro d hd
  obtain rfl := Option.some.inj hd
  rcases hc with rfl | rfl | rfl <;> decide

theorem Spells.bare {j : Json} {text : List Char} (h : Spells (.value j) text) :
    Spells (.item j) text := by
  have hItem := Spells.item Blanks.nil h Blanks.nil
  rwa [List.append_nil] at hItem

/-- A piece, other than a bare value, may have more blanks before it. -/
theorem Spells.indent {p : Piece} {text blanks : List Char} (h : Spells p text)
    (hBlanks : Blanks blanks) (hPiece : ∀ j, p ≠ .value j) : Spells p (blanks ++ text) := by
  induction h with
  | item hBefore h hAfter =>
      rw [← List.append_assoc]
      exact .item (hBlanks.append hBefore) h hAfter
  | lastItem h ih => exact .lastItem (ih (by simp))
  | moreItems h hMore ih =>
      rw [← List.append_assoc]
      exact .moreItems (ih (by simp)) hMore
  | member hBefore hName hBetween h =>
      rw [← List.append_assoc]
      exact .member (hBlanks.append hBefore) hName hBetween h
  | lastMember h ih => exact .lastMember (ih (by simp))
  | moreMembers h hMore ih =>
      rw [← List.append_assoc]
      exact .moreMembers (ih (by simp)) hMore
  | _ => exact absurd rfl (hPiece _)

/-- After blanks, every piece starts with a character that opens a value. -/
theorem Spells.opens {p : Piece} {text : List Char} (h : Spells p text) :
    ∃ before c more, Blanks before ∧ text = before ++ c :: more ∧ Opens c := by
  induction h with
  | null | yes | no | string _ | emptyArray _ | array _ _ | emptyObject _ | object _ _ =>
      exact ⟨[], _, _, Blanks.nil, rfl, .inl (by decide)⟩
  | number h =>
      obtain ⟨c, more, rfl, hc⟩ := h.opens
      refine ⟨[], c, more, Blanks.nil, rfl, hc.imp_left ?_⟩
      rintro rfl
      decide
  | @item _ before _ after hBefore _ _ ih =>
      obtain ⟨inner, c, more, hInner, rfl, hc⟩ := ih
      exact ⟨before ++ inner, c, more ++ after, hBefore.append hInner, by simp, hc⟩
  | lastItem _ ih | lastMember _ ih => exact ih
  | @moreItems _ _ _ rest _ _ ih | @moreMembers _ _ _ rest _ _ ih =>
      obtain ⟨before, c, more, hBefore, rfl, hc⟩ := ih
      exact ⟨before, c, more ++ ',' :: rest, hBefore, by simp, hc⟩
  | @member _ _ before _ _ _ hBefore _ _ _ _ =>
      exact ⟨before, '"', _, hBefore, rfl, .inl (by decide)⟩

end Pieces

end Triage.Json
