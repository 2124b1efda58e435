import Triage.Proofs.Search.Writing

/-!
# Joining queries

A query can be cut at a blank without a change to its tokens, if no quote is open there
(`tokenize_joined`).  What the scanner carries over the cut is only the quote that is open
(`quoteAfter`): at a blank outside of quotes it ends the word before it, even an empty one, and
begins the next one as it begins a query.
-/

namespace Triage.Search

/-- The quote that is open behind a text, when one is open before it or none is. -/
def quoteAfter : Option Char → List Char → Option Char
  | quote, [] => quote
  | some quote, c :: rest => quoteAfter (if c = quote then none else some quote) rest
  | none, c :: rest => quoteAfter (if isQuote c then some c else none) rest

/-- A cut at a blank, where no quote is open: the scanner starts again behind it. -/
theorem scanWords_cut {quote : Option Char} {front : List Char} {blank : Char}
    (hBlank : Text.isBlank blank = true) (hClosed : quoteAfter quote front = none)
    (rest : List Char) :
    scanWords quote (front ++ blank :: rest) =
      ((scanWords quote front).1, (scanWords quote front).2 ++ pieces rest) := by
  -- The induction is on the open quote as well: it is what the scanner takes along.
  fun_induction quoteAfter quote front with
  | case1 quote =>
      obtain rfl : quote = none := hClosed
      rw [List.nil_append, scanWords_blank hBlank]
      rfl
  | case2 quote c front ih => simp [scanWords, ih hClosed]
  | case3 c front ih =>
      cases hQuote : isQuote c with
      | true =>
          simp only [hQuote, if_true] at ih hClosed
          simp [scanWords, hQuote, ih hClosed]
      | false =>
          simp only [hQuote, Bool.false_eq_true, if_false] at ih hClosed
          simp only [List.cons_append, scanWords, hQuote, ih hClosed, Bool.false_eq_true, if_false]
          split <;> rfl

theorem pieces_cut {front : List Char} {blank : Char} (hBlank : Text.isBlank blank = true)
    (hClosed : quoteAfter none front = none) (rest : List Char) :
    pieces (front ++ blank :: rest) = pieces front ++ pieces rest := by
  simp only [pieces, scanWords_cut hBlank hClosed, List.cons_append]

/-- Empty pieces have no token, so tokens can be read off the pieces. -/
theorem tokenize_eq (query : String) :
    tokenize query = (pieces query.toList).filterMap readWord? := by
  rw [tokenize, words_eq, List.filterMap_filter]
  refine List.filterMap_congr fun word _ => ?_
  cases word with
  | nil => rfl
  | cons c word => rfl

/-- Behind a query that leaves no quote open, a blank and another query add the tokens of that query,
and its filters. -/
theorem tokenize_joined {front : String} {blank : Char}
    (hClosed : quoteAfter none front.toList = none) (hBlank : Text.isBlank blank = true)
    (rest : String) :
    tokenize (front ++ String.singleton blank ++ rest) = tokenize front ++ tokenize rest ∧
      (compile (front ++ String.singleton blank ++ rest)).filters =
        (compile front).filters ++ (compile rest).filters := by
  have hText : (front ++ String.singleton blank ++ rest).toList =
      front.toList ++ blank :: rest.toList := by
    simp
  have hTokens : tokenize (front ++ String.singleton blank ++ rest) =
      tokenize front ++ tokenize rest := by
    rw [tokenize_eq, hText, pieces_cut hBlank hClosed, List.filterMap_append, ← tokenize_eq,
      ← tokenize_eq]
  refine ⟨hTokens, ?_⟩
  simp only [compile, hTokens, List.filterMap_append]

/-- A tab behind quoted texts, one of them with a tab in it, and before a quote that is never
closed. -/
theorem tokenize_over_tab :
    let front := "disk 'is\tfull' os:\"a b\""
    quoteAfter none front.toList = none ∧
      tokenize (front ++ String.singleton '\t' ++ "!env:'prod x") =
        [.text "disk", .text "is\tfull", .filter ⟨"os", "a b"⟩ false,
          .filter ⟨"env", "prod x"⟩ true] := by
  have hClosed : quoteAfter none "disk 'is\tfull' os:\"a b\"".toList = none := by decide
  refine ⟨hClosed, ?_⟩
  rw [(tokenize_joined hClosed (by decide) "!env:'prod x").1]
  decide

/-- Inside quotes a blank does not end a word. -/
example : tokenize "'a b" = [.text "a b"] ∧ tokenize "'a" ++ tokenize "b" = [.text "a", .text "b"] := by
  decide

end Triage.Search
