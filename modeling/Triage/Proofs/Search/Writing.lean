import Mathlib.Data.List.Forall2
import Triage.Search.Query

/-!
# Writing queries

A query can be written from its tokens: texts and values between quote characters that they do not
contain, keys as they are, tokens one space apart.  Reading a query that was written so gives back
its tokens (`tokenize_written`).  The scanner is followed word by word: a written word is closed, that
is, no quote is open behind it and no blank outside of quotes is in it (`Closed`), so the words of
the query are the written ones (`words_intercalate`), and each of them is read on its own
(`readWord?_written`).
-/

namespace Triage.Search

/-! ## How tokens are written -/

/-- One of the two quote characters does not occur in a text. -/
def Quotable (text : String) : Prop := ∃ quote, isQuote quote = true ∧ quote ∉ text.toList

/-- A text is written between two quote characters that it does not contain. -/
def Quoted (text : String) (written : List Char) : Prop :=
  ∃ quote, isQuote quote = true ∧ quote ∉ text.toList ∧ written = quote :: (text.toList ++ [quote])

/-- A key that needs no quotes: blanks, colons and quote characters do not occur in it. -/
structure PlainKey (key : String) : Prop where
  nonempty : key ≠ ""
  plain : ∀ c ∈ key.toList, Text.isBlank c = false ∧ c ≠ ':' ∧ isQuote c = false

namespace Token

/-- A token that can be written.  The key of a filter that is not negated must not start with the
mark of negation. -/
inductive Writable : Token → Prop where
  | text {value : String} (nonempty : value ≠ "") (quotable : Quotable value) :
      Writable (.text value)
  | filter {tag : Tag} {negated : Bool} (key : PlainKey tag.key)
      (unmarked : negated = false → tag.key.toList.head? ≠ some '!')
      (quotable : Quotable tag.value) : Writable (.filter tag negated)

/-- The mark in front of a negated filter. -/
def mark (negated : Bool) : List Char := if negated then ['!'] else []

/-- A way to write a token: texts and values stand between quotes, a filter is a key and a colon
before its value. -/
inductive Writes : Token → List Char → Prop where
  | text {value : String} {written : List Char} (quoted : Quoted value written) :
      Writes (.text value) written
  | filter {tag : Tag} {negated : Bool} {written : List Char} (quoted : Quoted tag.value written) :
      Writes (.filter tag negated) (mark negated ++ tag.key.toList ++ ':' :: written)

end Token

/-- A way to write a query: its tokens in order, one space apart. -/
def Writes (tokens : List Token) (query : String) : Prop :=
  ∃ written, List.Forall₂ Token.Writes tokens written ∧
    query = String.ofList ([' '].intercalate written)

theorem Quotable.exists_quoted {text : String} (h : Quotable text) :
    ∃ written, Quoted text written := by
  obtain ⟨quote, hQuote, hAbsent⟩ := h
  exact ⟨_, quote, hQuote, hAbsent, rfl⟩

theorem Token.Writable.exists_writes {token : Token} (h : token.Writable) :
    ∃ written, token.Writes written := by
  cases h with
  | text _ quotable => exact quotable.exists_quoted.imp fun _ hQuoted => .text hQuoted
  | filter _ _ quotable =>
      obtain ⟨written, hQuoted⟩ := quotable.exists_quoted
      exact ⟨_, .filter hQuoted⟩

/-- Tokens that can be written make a query. -/
theorem exists_writes {tokens : List Token} (h : ∀ token ∈ tokens, token.Writable) :
    ∃ query, Writes tokens query := by
  suffices hWords : ∃ written, List.Forall₂ Token.Writes tokens written by
    obtain ⟨written, hWritten⟩ := hWords
    exact ⟨_, written, hWritten, rfl⟩
  induction tokens with
  | nil => exact ⟨[], .nil⟩
  | cons token tokens ih =>
      obtain ⟨word, hWord⟩ := (h token List.mem_cons_self).exists_writes
      obtain ⟨written, hRest⟩ := ih fun other hOther => h other (List.mem_cons_of_mem _ hOther)
      exact ⟨word :: written, .cons hWord hRest⟩

/-! ## The scanner on written words -/

/-- Behind a closed piece the scanner goes on as it would without that piece. -/
def Closed (piece : List Char) : Prop :=
  ∀ rest, scanWords none (piece ++ rest) =
    (piece ++ (scanWords none rest).1, (scanWords none rest).2)

theorem Closed.nil : Closed [] := fun _ => rfl

theorem Closed.append {front back : List Char} (hFront : Closed front) (hBack : Closed back) :
    Closed (front ++ back) := by
  intro rest
  rw [List.append_assoc, hFront, hBack, List.append_assoc]

theorem Closed.cons {c : Char} {piece : List Char} (hBlank : Text.isBlank c = false)
    (hQuote : isQuote c = false) (h : Closed piece) : Closed (c :: piece) := by
  intro rest
  rw [List.cons_append, scanWords, h rest]
  simp [hBlank, hQuote]

theorem Closed.of_plain {piece : List Char}
    (h : ∀ c ∈ piece, Text.isBlank c = false ∧ isQuote c = false) : Closed piece := by
  induction piece with
  | nil => exact .nil
  | cons c piece ih =>
      obtain ⟨hBlank, hQuote⟩ := h c List.mem_cons_self
      exact .cons hBlank hQuote (ih fun d hd => h d (List.mem_cons_of_mem _ hd))

/-- Inside quotes everything up to the closing quote belongs to the word. -/
theorem scanWords_quoted {quote : Char} {text : List Char} (hAbsent : quote ∉ text)
    (rest : List Char) :
    scanWords (some quote) (text ++ quote :: rest) =
      (text ++ quote :: (scanWords none rest).1, (scanWords none rest).2) := by
  induction text with
  | nil => simp [scanWords]
  | cons c text ih =>
      rw [List.mem_cons, not_or] at hAbsent
      rw [List.cons_append, scanWords, if_neg (Ne.symm hAbsent.1), ih hAbsent.2]
      rfl

theorem Quoted.closed {text : String} {written : List Char} (h : Quoted text written) :
    Closed written := by
  obtain ⟨quote, hQuote, hAbsent, rfl⟩ := h
  intro rest
  rw [List.cons_append, List.append_assoc, List.singleton_append, scanWords, if_pos hQuote,
    scanWords_quoted hAbsent]
  simp

theorem Quoted.ne_nil {text : String} {written : List Char} (h : Quoted text written) :
    written ≠ [] := by
  obtain ⟨quote, -, -, rfl⟩ := h
  exact List.cons_ne_nil _ _

theorem Token.Writes.closed {token : Token} {written : List Char} (hToken : token.Writable)
    (h : token.Writes written) : Closed written := by
  cases h with
  | text quoted => exact quoted.closed
  | @filter tag negated _ quoted =>
      cases hToken with
      | filter key _ _ =>
          have hMark : Closed (mark negated) := by
            cases negated
            · exact .nil
            · exact .cons (by decide) (by decide) .nil
          have hKey : Closed tag.key.toList :=
            .of_plain fun c hc => ⟨(key.plain c hc).1, (key.plain c hc).2.2⟩
          exact (hMark.append hKey).append (.cons (by decide) (by decide) quoted.closed)

theorem Token.Writes.ne_nil {token : Token} {written : List Char} (h : token.Writes written) :
    written ≠ [] := by
  cases h with
  | text quoted => exact quoted.ne_nil
  | filter => simp

/-- The pieces between the blanks of a query, empty ones included. -/
def pieces (query : List Char) : List (List Char) :=
  (scanWords none query).1 :: (scanWords none query).2

theorem words_eq (query : List Char) : words query = (pieces query).filter fun w => !w.isEmpty := rfl

theorem pieces_closed {word : List Char} (h : Closed word) : pieces word = [word] := by
  have hEnd := h []
  rw [List.append_nil] at hEnd
  simp [pieces, hEnd, scanWords]

theorem isQuote_of_isBlank {c : Char} (h : Text.isBlank c = true) : isQuote c = false := by
  rw [Bool.eq_false_iff]
  intro hQuote
  simp only [isQuote, Bool.or_eq_true, decide_eq_true_eq] at hQuote
  rcases hQuote with rfl | rfl
  · exact absurd h (by decide)
  · exact absurd h (by decide)

/-- Outside of quotes a blank ends a piece, and behind it the scanner starts again. -/
theorem scanWords_blank {c : Char} (h : Text.isBlank c = true) (rest : List Char) :
    scanWords none (c :: rest) = ([], pieces rest) := by
  rw [scanWords]
  simp [isQuote_of_isBlank h, h, pieces]

theorem pieces_closed_space {word : List Char} (h : Closed word) (rest : List Char) :
    pieces (word ++ ' ' :: rest) = word :: pieces rest := by
  rw [pieces, h, scanWords_blank (by decide), List.append_nil]

/-- Closed words one space apart are the words of the query that they make. -/
theorem words_intercalate {written : List (List Char)} (hClosed : ∀ word ∈ written, Closed word)
    (hNonempty : ∀ word ∈ written, word ≠ []) : words ([' '].intercalate written) = written := by
  cases written with
  | nil => rfl
  | cons first others =>
      have hPieces : pieces ([' '].intercalate (first :: others)) = first :: others := by
        induction others generalizing first with
        | nil => simpa using pieces_closed (hClosed first List.mem_cons_self)
        | cons second others ih =>
            rw [List.intercalate_cons_cons, List.append_assoc, List.singleton_append,
              pieces_closed_space (hClosed first List.mem_cons_self),
              ih second (fun w hw => hClosed w (List.mem_cons_of_mem _ hw))
                fun w hw => hNonempty w (List.mem_cons_of_mem _ hw)]
      rw [words_eq, hPieces, List.filter_eq_self]
      intro word hWord
      simp [hNonempty word hWord]

/-! ## Reading a written word -/

theorem unquote_quoted {text : String} {written : List Char} (h : Quoted text written) :
    unquote written = text.toList := by
  obtain ⟨quote, hQuote, -, rfl⟩ := h
  cases hText : text.toList ++ [quote] with
  | nil => simp at hText
  | cons d rest =>
      rw [unquote, ← hText]
      simp [hQuote]

theorem head?_quoted {text : String} {written : List Char} (h : Quoted text written) :
    (written.head?.map isQuote).getD false = true := by
  obtain ⟨quote, hQuote, -, rfl⟩ := h
  exact hQuote

/-- A word is split at its first colon. -/
theorem splitAtColon_append {front : List Char} (hFront : ':' ∉ front) (value : List Char) :
    splitAtColon (front ++ ':' :: value) = some (front, value) := by
  induction front with
  | nil => simp [splitAtColon]
  | cons c front ih =>
      rw [List.mem_cons, not_or] at hFront
      rw [List.cons_append, splitAtColon, if_neg (Ne.symm hFront.1), ih hFront.2]
      rfl

theorem readNegation_mark {negated : Bool} {key : List Char}
    (hKey : negated = false → key.head? ≠ some '!') :
    readNegation (Token.mark negated ++ key) = (negated, key) := by
  cases negated with
  | true => rfl
  | false =>
      change readNegation key = (false, key)
      unfold readNegation
      split
      next rest => exact absurd rfl (hKey rfl)
      next => rfl

theorem readFilter?_quoted {text : String} {written : List Char} (h : Quoted text written) :
    readFilter? written = none := by
  rw [readFilter?, if_pos (head?_quoted h)]

/-- A word that starts with a mark or a key does not start with a quote. -/
theorem head?_mark_key {key : String} (hKey : PlainKey key) (negated : Bool) (rest : List Char) :
    ((Token.mark negated ++ key.toList ++ rest).head?.map isQuote).getD false = false := by
  cases negated with
  | true => rfl
  | false =>
      cases hChars : key.toList with
      | nil => exact absurd (String.toList_eq_nil_iff.mp hChars) hKey.nonempty
      | cons c chars => exact (hKey.plain c (hChars ▸ List.mem_cons_self)).2.2

/-- A written token is read back. -/
theorem readWord?_written {token : Token} {written : List Char} (hToken : token.Writable)
    (h : token.Writes written) : readWord? written = some token := by
  cases h with
  | @text value _ quoted =>
      cases hToken with
      | text nonempty _ =>
          have hText : (unquote written).isEmpty = false := by
            rw [unquote_quoted quoted, List.isEmpty_eq_false_iff]
            exact fun hNil => nonempty (String.toList_eq_nil_iff.mp hNil)
          rw [readWord?, readFilter?_quoted quoted]
          dsimp only
          rw [hText, unquote_quoted quoted, String.ofList_toList]
          rfl
  | @filter tag negated value quoted =>
      cases hToken with
      | filter key unmarked _ =>
          have hColon : ':' ∉ Token.mark negated ++ tag.key.toList := by
            rw [List.mem_append, not_or]
            refine ⟨by cases negated <;> decide, fun hMem => ?_⟩
            exact (key.plain ':' hMem).2.1 rfl
          have hKey : tag.key.toList.isEmpty = false := by
            rw [List.isEmpty_eq_false_iff]
            exact fun hNil => key.nonempty (String.toList_eq_nil_iff.mp hNil)
          rw [readWord?, readFilter?, head?_mark_key key]
          simp only [Bool.false_eq_true, if_false]
          rw [splitAtColon_append hColon]
          dsimp only
          rw [readNegation_mark unmarked]
          dsimp only
          rw [hKey, unquote_quoted quoted, String.ofList_toList, String.ofList_toList]
          rfl

/-- Written tokens are closed words, and reading them word by word gives them back. -/
theorem read_written {tokens : List Token} {written : List (List Char)}
    (h : List.Forall₂ (fun token word => token.Writable ∧ token.Writes word) tokens written) :
    (∀ word ∈ written, Closed word ∧ word ≠ []) ∧ written.filterMap readWord? = tokens := by
  induction h with
  | nil => exact ⟨by simp, rfl⟩
  | @cons token word tokens written hFirst _ ih =>
      obtain ⟨hWritable, hWrites⟩ := hFirst
      constructor
      · intro other hOther
        rcases List.mem_cons.mp hOther with rfl | hLater
        · exact ⟨hWrites.closed hWritable, hWrites.ne_nil⟩
        · exact ih.1 other hLater
      · rw [List.filterMap_cons, readWord?_written hWritable hWrites, ih.2]

/-- Tokens that can be written make a query, and every query that they make is read as exactly
those tokens. -/
theorem tokenize_written {tokens : List Token} (h : ∀ token ∈ tokens, token.Writable) :
    (∃ query, Writes tokens query) ∧ ∀ query, Writes tokens query → tokenize query = tokens := by
  refine ⟨exists_writes h, ?_⟩
  rintro _ ⟨written, hWritten, rfl⟩
  obtain ⟨hWords, hRead⟩ := read_written ((List.forall₂_and_left _ _).mpr ⟨h, hWritten⟩)
  rw [tokenize, String.toList_ofList,
    words_intercalate (fun w hw => (hWords w hw).1) fun w hw => (hWords w hw).2, hRead]

/-- A phrase with a quote character in it, and a negated filter with a mark in its key and with a
value that looks like a query. -/
theorem tokenize_phrase_and_filter :
    let tokens : List Token := [.text "disk \"full", .filter ⟨"!browser", "!os:'x'  y"⟩ true]
    (∀ token ∈ tokens, token.Writable) ∧
      tokenize "'disk \"full' !!browser:\"!os:'x'  y\"" = tokens := by
  intro tokens
  have hWritable : ∀ token ∈ tokens, token.Writable := by
    intro token hToken
    simp only [tokens, List.mem_cons, List.not_mem_nil, or_false] at hToken
    rcases hToken with rfl | rfl
    · exact .text (by decide) ⟨'\'', by decide, by decide⟩
    · have hKey : PlainKey "!browser" := ⟨by decide, by simp [Text.isBlank, isQuote]⟩
      exact .filter hKey (fun h => nomatch h) ⟨'"', by decide, by decide⟩
  refine ⟨hWritable, (tokenize_written hWritable).2 _ ?_⟩
  refine ⟨[_, _], .cons (.text ⟨'\'', by decide, by decide, rfl⟩)
    (.cons (.filter ⟨'"', by decide, by decide, rfl⟩) .nil), by decide⟩

end Triage.Search
