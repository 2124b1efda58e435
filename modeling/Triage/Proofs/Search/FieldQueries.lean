import Mathlib.Data.List.Induction
import Triage.Proofs.Search.Joining
import Triage.Search.Fields

/-!
# Field queries and search queries

A query without quotes, whose words are one or more spaces apart and have at most one colon each,
means the same in both forms of query (`PlainQuery`).  Both readers then see the same parts
(`pieces_eq_splitOn`), and the reader of field queries takes in the tokens of the search query one
after the other (`readFields?_eq`).  So what it asks of a field is what the last filter with that key
asks, and its raw text is the last text (`field_query_agrees`).
-/

namespace Triage.Search

theorem splitOn_eq (separator : Char) (text : List Char) :
    Text.splitOn separator text = text.splitOn separator := by
  induction text with
  | nil => rfl
  | cons c rest ih =>
      rw [Text.splitOn, ih, List.splitOn, List.splitOn, List.splitOnP_cons_eq_if_modifyHead]
      by_cases hc : c = separator
      · simp [hc]
      · obtain ⟨piece, pieces, hPieces⟩ :=
          List.exists_cons_of_ne_nil (List.splitOnP_ne_nil (· == separator) rest)
        simp [hc, hPieces]

/-- A part that both readers take for the same: at most one colon, and before it a key that is more
than a mark of negation. -/
structure PlainPart (part : List Char) : Prop where
  colons : part.count ':' ≤ 1
  keyed : ¬[':'] <+: part
  named : ¬['!', ':'] <+: part

instance (part : List Char) : Decidable (PlainPart part) :=
  decidable_of_iff (part.count ':' ≤ 1 ∧ ¬[':'] <+: part ∧ ¬['!', ':'] <+: part)
    ⟨fun h => ⟨h.1, h.2.1, h.2.2⟩, fun h => ⟨h.colons, h.keyed, h.named⟩⟩

/-- A query without quotes and blanks other than spaces, in plain parts. -/
structure PlainQuery (query : String) : Prop where
  unquoted : ∀ c ∈ query.toList, isQuote c = false
  spaced : ∀ c ∈ query.toList, Text.isBlank c = true → c = ' '
  plain : ∀ part ∈ Text.splitOn ' ' query.toList, PlainPart part

/-- Without quotes, and with no blanks but spaces, the pieces are what stands between the spaces. -/
theorem pieces_eq_splitOn {query : List Char} (hUnquoted : ∀ c ∈ query, isQuote c = false)
    (hSpaced : ∀ c ∈ query, Text.isBlank c = true → c = ' ') :
    pieces query = Text.splitOn ' ' query := by
  induction query with
  | nil => rfl
  | cons c rest ih =>
      rw [List.forall_mem_cons] at hUnquoted hSpaced
      have hRest := ih hUnquoted.2 hSpaced.2
      rw [Text.splitOn, ← hRest]
      by_cases hc : c = ' '
      · have hBlank : Text.isBlank c = true := by rw [hc]; decide
        rw [if_pos hc, pieces, scanWords_blank hBlank]
      · have hBlank : Text.isBlank c = false := Bool.eq_false_iff.mpr fun h => hc (hSpaced.1 h)
        rw [if_neg hc]
        simp [pieces, scanWords, hUnquoted.1, hBlank]

/-! ## One part -/

/-- A plain part has no colon, or a key before its colon and a value after it. -/
theorem PlainPart.cases {part : List Char} (h : PlainPart part) :
    ':' ∉ part ∨ ∃ front value, part = front ++ ':' :: value ∧ ':' ∉ front ∧ ':' ∉ value ∧
      (readNegation front).2 ≠ [] := by
  by_cases hColon : ':' ∈ part
  · obtain ⟨front, value, rfl⟩ := List.mem_iff_append.mp hColon
    have hCount := h.colons
    rw [List.count_append, List.count_cons_self] at hCount
    refine .inr ⟨front, value, rfl, List.count_eq_zero.mp (by omega),
      List.count_eq_zero.mp (by omega), fun hNone => ?_⟩
    unfold readNegation at hNone
    split at hNone
    next key =>
      obtain rfl : key = [] := hNone
      exact h.named ⟨value, rfl⟩
    next =>
      obtain rfl : front = [] := hNone
      exact h.keyed ⟨value, rfl⟩
  · exact .inl hColon

theorem unquote_eq_self {text : List Char} (h : ∀ c ∈ text, isQuote c = false) :
    unquote text = text := by
  match text with
  | [] => rfl
  | [c] => simp [unquote, h c]
  | c :: d :: rest => simp [unquote, h c]

theorem splitAtColon_eq_none {word : List Char} (h : ':' ∉ word) : splitAtColon word = none := by
  induction word with
  | nil => rfl
  | cons c word ih =>
      rw [List.mem_cons, not_or] at h
      rw [splitAtColon, if_neg (Ne.symm h.1), ih h.2]
      rfl

theorem head?_unquoted {word : List Char} (h : ∀ c ∈ word, isQuote c = false) :
    (word.head?.map isQuote).getD false = false := by
  cases word with
  | nil => rfl
  | cons c word => exact h c List.mem_cons_self

/-- Takes a token into a field query. -/
def FieldQuery.take (q : FieldQuery) : Token → FieldQuery
  | .text value => { q with raw := value }
  | .filter tag negated => q.ask tag.key ⟨tag.value, negated⟩

/-- A part without quotes that is plain is taken in as the token that it is read as. -/
theorem FieldQuery.addPart_eq {part : List Char} (hPlain : PlainPart part)
    (hUnquoted : ∀ c ∈ part, isQuote c = false) (q : FieldQuery) :
    q.addPart part = some ((readWord? part).elim q q.take) := by
  rcases hPlain.cases with hColon | ⟨front, value, rfl, hFront, hValue, hKey⟩
  · have hFilter : readFilter? part = none := by
      rw [readFilter?, head?_unquoted hUnquoted, splitAtColon_eq_none hColon]
      rfl
    rw [addPart, splitOn_eq, List.splitOn_eq_singleton hColon, readWord?, hFilter]
    dsimp only
    rw [unquote_eq_self hUnquoted]
    split <;> rfl
  · have hText : unquote value = value :=
      unquote_eq_self fun c hc => hUnquoted c (by simp [hc])
    have hNonempty : (readNegation front).2.isEmpty = false := by simpa using hKey
    have hSplit : Text.splitOn ':' (front ++ ':' :: value) = [front, value] := by
      rw [splitOn_eq, List.splitOn_append_cons_self_of_not_mem hFront,
        List.splitOn_eq_singleton hValue]
    have hFilter : readFilter? (front ++ ':' :: value) =
        some (.filter ⟨String.ofList (readNegation front).2, String.ofList value⟩
          (readNegation front).1) := by
      rw [readFilter?, head?_unquoted hUnquoted, splitAtColon_append hFront]
      dsimp only
      rw [hNonempty, hText]
      rfl
    rw [addPart, hSplit, readWord?, hFilter]
    rfl

/-! ## All parts -/

theorem foldlM_addPart {parts : List (List Char)} (hPlain : ∀ part ∈ parts, PlainPart part)
    (hUnquoted : ∀ part ∈ parts, ∀ c ∈ part, isQuote c = false) (q : FieldQuery) :
    parts.foldlM FieldQuery.addPart q = some ((parts.filterMap readWord?).foldl .take q) := by
  induction parts generalizing q with
  | nil => rfl
  | cons part parts ih =>
      rw [List.forall_mem_cons] at hPlain hUnquoted
      rw [List.foldlM_cons, FieldQuery.addPart_eq hPlain.1 hUnquoted.1, List.filterMap_cons]
      rw [Option.bind_eq_bind, Option.bind_some, ih hPlain.2 hUnquoted.2]
      cases readWord? part <;> rfl

theorem subset_of_mem_splitOn {separator : Char} {text part : List Char}
    (h : part ∈ Text.splitOn separator text) : part ⊆ text := by
  fun_induction Text.splitOn separator text generalizing part with
  | case1 =>
      rw [List.mem_singleton.mp h]
      exact List.nil_subset _
  | case2 rest ih =>
      rcases List.mem_cons.mp h with rfl | hLater
      · exact List.nil_subset _
      · exact List.subset_cons_of_subset _ (ih hLater)
  | case3 c rest hc hNone ih =>
      rw [List.mem_singleton.mp h]
      exact List.cons_subset_cons c (List.nil_subset rest)
  | case4 c rest hc piece pieces hPieces ih =>
      rcases List.mem_cons.mp h with rfl | hLater
      · exact List.cons_subset_cons c (ih (hPieces ▸ List.mem_cons_self))
      · exact List.subset_cons_of_subset _ (ih (hPieces ▸ List.mem_cons_of_mem _ hLater))

/-- The reader of field queries takes in the tokens of the search query. -/
theorem readFields?_eq {query : String} (h : PlainQuery query) :
    readFields? query = some ((tokenize query).foldl .take .empty) := by
  have hPieces := pieces_eq_splitOn h.unquoted h.spaced
  rw [readFields?, foldlM_addPart h.plain, tokenize_eq, hPieces]
  exact fun part hPart c hc => h.unquoted c (subset_of_mem_splitOn hPart hc)

/-! ## What is asked in the end -/

theorem FieldQuery.get?_ask (q : FieldQuery) (key : String) (value : FieldValue) (other : String) :
    (q.ask key value).get? other = if key = other then some value else q.get? other := by
  unfold FieldQuery.get? FieldQuery.ask
  by_cases hKey : key = other
  · simp [hKey]
  · have hOthers : ∀ f : String × FieldValue, (f.1 ≠ key ∧ f.1 = other) ↔ f.1 = other := by
      refine fun f => and_iff_right_of_imp ?_
      rintro rfl
      exact Ne.symm hKey
    simp [hKey, hOthers, List.find?_filter]

/-- What is asked of a field is what the last filter with that key asks. -/
theorem get?_foldl_take (tokens : List Token) (key : String) :
    (tokens.foldl FieldQuery.take .empty).get? key =
      (((tokens.filterMap Token.filter?).filter fun f => f.tag.key = key).getLast?).map
        fun f => ⟨f.tag.value, f.negated⟩ := by
  induction tokens using List.reverseRecOn with
  | nil => rfl
  | append_singleton tokens token ih =>
      rw [List.foldl_append, List.filterMap_append, List.filter_append, List.getLast?_append]
      cases token with
      | text value => exact ih
      | filter tag negated =>
          rw [List.foldl_cons, List.foldl_nil, FieldQuery.take, FieldQuery.get?_ask]
          by_cases hKey : tag.key = key
          · simp [Token.filter?, hKey]
          · rw [if_neg hKey, ih]
            simp [Token.filter?, hKey]

/-- The raw text is the last text. -/
theorem raw_foldl_take (tokens : List Token) :
    (tokens.foldl FieldQuery.take .empty).raw =
      ((tokens.filterMap Token.text?).getLast?).getD "" := by
  induction tokens using List.reverseRecOn with
  | nil => rfl
  | append_singleton tokens token ih =>
      rw [List.foldl_append, List.filterMap_append, List.getLast?_append]
      cases token with
      | text value => rfl
      | filter tag negated => exact ih

theorem nodup_foldl_take (tokens : List Token) :
    ((tokens.foldl FieldQuery.take .empty).fields.map Prod.fst).Nodup := by
  induction tokens using List.reverseRecOn with
  | nil => exact .nil
  | append_singleton tokens token ih =>
      rw [List.foldl_append]
      cases token with
      | text value => exact ih
      | filter tag negated =>
          have hAbsent : tag.key ∉
              ((tokens.foldl FieldQuery.take .empty).fields.filter fun f => f.1 != tag.key).map
                Prod.fst := by
            simp
          exact List.nodup_cons.mpr ⟨hAbsent, ih.sublist (List.filter_sublist.map _)⟩

/-- A plain query is read as a field query.  Of each key it asks what the last filter of the search
query with that key asks, and of no other key anything; its raw text is the last text. -/
theorem field_query_agrees {query : String} (h : PlainQuery query) :
    ∃ q, readFields? query = some q ∧ (q.fields.map Prod.fst).Nodup ∧
      (∀ key, q.get? key =
        (((compile query).filters.filter fun f => f.tag.key = key).getLast?).map
          fun f => ⟨f.tag.value, f.negated⟩) ∧
      q.raw = ((tokenize query).filterMap Token.text?).getLast?.getD "" :=
  ⟨_, readFields?_eq h, nodup_foldl_take _, get?_foldl_take _, raw_foldl_take _⟩

/-- A key that is asked of again, first with a value and then negated, an empty value, and texts
between runs of spaces. -/
theorem level_asked_again :
    let query := " disk  level:error os: !level:full full "
    PlainQuery query ∧ ∃ q, readFields? query = some q ∧
      q.get? "level" = some ⟨"full", true⟩ ∧ q.get? "os" = some ⟨"", false⟩ ∧ q.get? "disk" = none ∧
      q.raw = "full" := by
  intro query
  have hQuotes : query.toList.any isQuote = false := by decide
  have hBlanks : query.toList.all (fun c => !Text.isBlank c || c == ' ') = true := by decide
  have hPlain : PlainQuery query := by
    refine ⟨fun c hc => ?_, fun c hc hBlank => ?_, by decide⟩
    · simpa using List.any_eq_false.mp hQuotes c hc
    · simpa [hBlank] using List.all_eq_true.mp hBlanks c hc
  obtain ⟨q, hRead, -, hGet, hRaw⟩ := field_query_agrees hPlain
  refine ⟨hPlain, q, hRead, ?_, ?_, ?_, ?_⟩
  · rw [hGet]; decide
  · rw [hGet]; decide
  · rw [hGet]; decide
  · rw [hRaw]; decide

end Triage.Search
