import Mathlib.Data.List.Basic
import Triage.Search.Tag

/-!
# Reading tag texts

A tag can be read back from its text.  The reader takes characters up to the first equals sign that
no backslash stands before, and what it has taken is the key; everything behind that sign is the
value, which is not escaped (`readParts?`).  The texts that it reads as a tag are exactly the text
of that tag (`readParts?_eq_some_iff`, `read?_eq_some_iff`), so no two tags have the same text
(`text_inj`).  This is about the texts only: two texts can still have the same 64-bit hash.
-/

namespace Triage.Tag

/-- Reads a key and a value.  A backslash must stand before a backslash or an equals sign of the
key, and nowhere else. -/
def readParts? : List Char → Option (List Char × List Char)
  | [] => none
  | ['\\'] => none
  | '\\' :: c :: rest =>
    if c = '\\' || c = '=' then (readParts? rest).map fun (key, value) => (c :: key, value)
    else none
  | c :: rest =>
    if c = '=' then some ([], rest)
    else (readParts? rest).map fun (key, value) => (c :: key, value)

/-- Reads a tag. -/
def read? (text : String) : Option Tag :=
  (readParts? text.toList).map fun (key, value) => ⟨String.ofList key, String.ofList value⟩

/-- The characters of a tag text. -/
def writeParts (key value : List Char) : List Char := key.flatMap escapeChar ++ '=' :: value

theorem toList_text (t : Tag) : t.text.toList = writeParts t.key.toList t.value.toList := by
  simp [text, escapeKey, writeParts]

theorem writeParts_escaped {c : Char} (h : (c = '\\' || c = '=') = true) (key value : List Char) :
    writeParts (c :: key) value = '\\' :: c :: writeParts key value := by
  simp [writeParts, escapeChar, h]

theorem writeParts_plain {c : Char} (h : (c = '\\' || c = '=') = false) (key value : List Char) :
    writeParts (c :: key) value = c :: writeParts key value := by
  simp [writeParts, escapeChar, h]

theorem readParts?_plain {c : Char} (h : (c = '\\' || c = '=') = false) (rest : List Char) :
    readParts? (c :: rest) = (readParts? rest).map fun (key, value) => (c :: key, value) := by
  simp only [Bool.or_eq_false_iff, decide_eq_false_iff_not] at h
  rw [readParts?, if_neg h.2]
  · exact fun hSlash _ => h.1 hSlash
  · exact fun _ _ hSlash _ => h.1 hSlash

/-- What is written is read back. -/
theorem readParts?_writeParts (key value : List Char) :
    readParts? (writeParts key value) = some (key, value) := by
  induction key with
  | nil => simp [writeParts, readParts?]
  | cons c key ih =>
      cases h : (c = '\\' || c = '=') with
      | true => rw [writeParts_escaped h, readParts?, if_pos h, ih, Option.map_some]
      | false => rw [writeParts_plain h, readParts?_plain h, ih, Option.map_some]

/-- Nothing else is read. -/
theorem eq_writeParts_of_readParts? {text key value : List Char}
    (h : readParts? text = some (key, value)) : text = writeParts key value := by
  fun_induction readParts? text generalizing key value with
  | case1 => cases h
  | case2 => cases h
  | case3 c rest hSpecial ih =>
      obtain ⟨⟨key', value'⟩, hRest, hParts⟩ := Option.map_eq_some_iff.mp h
      cases hParts
      rw [ih hRest, writeParts_escaped hSpecial]
  | case4 => cases h
  | case5 rest =>
      cases h
      rfl
  | case6 c rest hEnd hSlash hEquals ih =>
      obtain ⟨⟨key', value'⟩, hRest, hParts⟩ := Option.map_eq_some_iff.mp h
      cases hParts
      have hBackslash : c ≠ '\\' := by
        intro hc
        cases rest with
        | nil => exact hEnd hc rfl
        | cons d rest => exact hSlash d rest hc rfl
      rw [ih hRest, writeParts_plain (by simp [hBackslash, hEquals])]

/-- A text is read as a key and a value exactly when it is what they are written as. -/
theorem readParts?_eq_some_iff {text key value : List Char} :
    readParts? text = some (key, value) ↔ text = writeParts key value := by
  constructor
  · exact eq_writeParts_of_readParts?
  · rintro rfl
    exact readParts?_writeParts key value

/-- A text is read as a tag exactly when it is the text of that tag. -/
theorem read?_eq_some_iff {text : String} {t : Tag} : read? text = some t ↔ text = t.text := by
  rw [← String.toList_inj, toList_text, ← readParts?_eq_some_iff, read?]
  constructor
  · intro h
    obtain ⟨⟨key, value⟩, hRead, rfl⟩ := Option.map_eq_some_iff.mp h
    simpa using hRead
  · intro h
    simp [h]

/-- Tags with the same text are the same. -/
theorem text_inj {key key' value value' : String} :
    (Tag.mk key value).text = (Tag.mk key' value').text ↔ key = key' ∧ value = value' := by
  constructor
  · intro h
    have hOwn : read? (Tag.mk key value).text = some ⟨key, value⟩ := read?_eq_some_iff.mpr rfl
    have hOther : read? (Tag.mk key value).text = some ⟨key', value'⟩ := read?_eq_some_iff.mpr h
    rw [hOwn] at hOther
    cases hOther
    exact ⟨rfl, rfl⟩
  · rintro ⟨rfl, rfl⟩
    rfl

example : (Tag.mk "a=b" "c").text = "a\\=b=c" ∧ (Tag.mk "a" "b=c").text = "a=b=c" := by decide

end Triage.Tag
