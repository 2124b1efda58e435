import Mathlib.Data.Prod.Lex
import Triage.Proofs.Message.Rewriting

/-!
# The weight of a message

Every rule makes a message lighter when it replaces anything, and so does collapsing blanks.  Most
rules take away a mark: a digit, or a character of punctuation that no placeholder has.  A key with
a value need not hold a mark, but afterwards its equals sign is closed by a placeholder.  A
hexadecimal word need not hold one either, but it has more hexadecimal digits than its placeholder.
So every step of a round makes the message lighter (`Rewrite.lighter`), one round leaves a message
as it is or makes it lighter (`normalizeRound_noHeavier`), and rounds never lead back.
-/

namespace Triage.Message

open Triage.Pattern
open Triage.Text (isDigit isBlank isHexDigit isAsciiAlnum)

/-- A digit, or one of the characters of punctuation that hold volatile pieces together. -/
def isMark (c : Char) : Bool := isDigit c || "-/\\.@:".toList.contains c

/-- How many marks there are. -/
def marks (text : List Char) : Nat := text.countP isMark

/-- How many equals signs are not followed by a placeholder. -/
def openKeys : List Char → Nat
  | [] => 0
  | c :: rest => (if c = '=' ∧ rest.head? ≠ some '<' then 1 else 0) + openKeys rest

/-- How many hexadecimal digits there are. -/
def hexDigits (text : List Char) : Nat := text.countP isHexDigit

/-- Whether a character is a blank other than the space. -/
def isOddBlank (c : Char) : Bool := isBlank c && c != ' '

/-- How much there is, where blanks other than the space count twice. -/
def slack (text : List Char) : Nat := text.length + text.countP isOddBlank

/-- Marks and open keys count before hexadecimal digits, and these before what is slack. -/
def weight (text : List Char) : Nat ×ₗ Nat ×ₗ Nat :=
  toLex (marks text + openKeys text, toLex (hexDigits text, slack text))

theorem weight_lt_iff {u v : List Char} :
    weight u < weight v ↔ marks u + openKeys u < marks v + openKeys v ∨
      marks u + openKeys u = marks v + openKeys v ∧
        (hexDigits u < hexDigits v ∨ hexDigits u = hexDigits v ∧ slack u < slack v) := by
  simp only [weight, Prod.Lex.toLex_lt_toLex]

@[simp] theorem marks_cons (c : Char) (u : List Char) :
    marks (c :: u) = (if isMark c then 1 else 0) + marks u := by
  rw [marks, List.countP_cons, Nat.add_comm]
  rfl

@[simp] theorem hexDigits_cons (c : Char) (u : List Char) :
    hexDigits (c :: u) = (if isHexDigit c then 1 else 0) + hexDigits u := by
  rw [hexDigits, List.countP_cons, Nat.add_comm]
  rfl

@[simp] theorem slack_cons (c : Char) (u : List Char) :
    slack (c :: u) = (if isOddBlank c then 1 else 0) + 1 + slack u := by
  rw [slack, slack, List.length_cons, List.countP_cons]
  omega

theorem marks_append (u v : List Char) : marks (u ++ v) = marks u + marks v := List.countP_append

theorem hexDigits_append (u v : List Char) : hexDigits (u ++ v) = hexDigits u + hexDigits v :=
  List.countP_append

/-- Putting something in front closes no key. -/
theorem openKeys_le_append (u v : List Char) : openKeys v ≤ openKeys (u ++ v) := by
  induction u with
  | nil => exact Nat.le_refl _
  | cons c u ih =>
      simp only [List.cons_append, openKeys]
      omega

/-- Without an equals sign there is no key. -/
theorem openKeys_append {u : List Char} (h : '=' ∉ u) (v : List Char) :
    openKeys (u ++ v) = openKeys v := by
  induction u with
  | nil => rfl
  | cons c u ih =>
      rw [List.mem_cons, not_or] at h
      rw [List.cons_append, openKeys, if_neg (fun hKey => h.1 hKey.1.symm), Nat.zero_add, ih h.2]

/-- The first text weighs less, and in front it is not more open than the second, so that nothing
that stands before it gets heavier. -/
structure Lighter (u v : List Char) : Prop where
  front : v.head? = some '<' → u.head? = some '<'
  weight : weight u < weight v

/-- The same text or a lighter one. -/
def NoHeavier (u v : List Char) : Prop := u = v ∨ Lighter u v

theorem Lighter.trans {u v w : List Char} (h : Lighter u v) (h' : Lighter v w) : Lighter u w :=
  ⟨fun hw => h.front (h'.front hw), h.weight.trans h'.weight⟩

theorem Lighter.cons {u v : List Char} (h : Lighter u v) (c : Char) :
    Lighter (c :: u) (c :: v) where
  front hc := hc
  weight := by
    have hOpen : (if c = '=' ∧ u.head? ≠ some '<' then 1 else 0)
        ≤ (if c = '=' ∧ v.head? ≠ some '<' then 1 else 0) := by
      split
      next hu => rw [if_pos ⟨hu.1, fun hv => hu.2 (h.front hv)⟩]
      next => exact Nat.zero_le _
    have hLess := h.weight
    rw [weight_lt_iff] at hLess ⊢
    simp only [marks_cons, openKeys, hexDigits_cons, slack_cons]
    omega

theorem Lighter.append {u v : List Char} (h : Lighter u v) (front : List Char) :
    Lighter (front ++ u) (front ++ v) := by
  induction front with
  | nil => exact h
  | cons c front ih => exact ih.cons c

namespace NoHeavier

theorem cons {u v : List Char} (h : NoHeavier u v) (c : Char) : NoHeavier (c :: u) (c :: v) :=
  h.imp (congrArg (c :: ·)) (·.cons c)

theorem append {u v : List Char} (h : NoHeavier u v) (front : List Char) :
    NoHeavier (front ++ u) (front ++ v) :=
  h.imp (congrArg (front ++ ·)) (·.append front)

theorem trans {u v w : List Char} (h : NoHeavier u v) (h' : NoHeavier v w) : NoHeavier u w := by
  rcases h with rfl | h
  · exact h'
  · rcases h' with rfl | h'
    · exact .inr h
    · exact .inr (h.trans h')

theorem trans_lighter {u v w : List Char} (h : NoHeavier u v) (h' : Lighter v w) : Lighter u w := by
  rcases h with rfl | h
  · exact h'
  · exact h.trans h'

end NoHeavier

/-- A placeholder makes a text lighter when it takes the place of a piece, whatever comes after it.
-/
def Lightens (placeholder piece : List Char) : Prop :=
  ∀ rest, Lighter (placeholder ++ rest) (piece ++ rest)

theorem Lightens.noHeavier {placeholder piece u v : List Char} (h : Lightens placeholder piece)
    (huv : NoHeavier u v) : NoHeavier (placeholder ++ u) (piece ++ v) :=
  .inr ((huv.append placeholder).trans_lighter (h v))

/-- A placeholder in angle brackets that has no marks and no keys. -/
def IsAngled (placeholder : List Char) : Prop :=
  placeholder.head? = some '<' ∧ marks placeholder = 0 ∧ '=' ∉ placeholder

instance (placeholder : List Char) : Decidable (IsAngled placeholder) :=
  inferInstanceAs (Decidable (_ ∧ _ ∧ _))

namespace IsAngled

variable {placeholder : List Char}

theorem head?_append (h : IsAngled placeholder) (rest : List Char) :
    (placeholder ++ rest).head? = some '<' := by
  rw [List.head?_append, h.1]
  rfl

/-- A placeholder takes the place of a piece that has a mark. -/
theorem lightens_mark (h : IsAngled placeholder) {piece : List Char}
    (hMark : ∃ c ∈ piece, isMark c = true) : Lightens placeholder piece := by
  intro rest
  refine ⟨fun _ => h.head?_append rest, weight_lt_iff.mpr (.inl ?_)⟩
  have hSome : 0 < marks piece := List.countP_pos_iff.mpr hMark
  have hKeys := openKeys_le_append piece rest
  rw [marks_append, marks_append, h.2.1, openKeys_append h.2.2]
  omega

/-- A placeholder takes the place of a piece that has more hexadecimal digits. -/
theorem lightens_hexDigits (h : IsAngled placeholder) {piece : List Char}
    (hMore : hexDigits placeholder < hexDigits piece) : Lightens placeholder piece := by
  intro rest
  refine ⟨fun _ => h.head?_append rest, weight_lt_iff.mpr ?_⟩
  have hKeys := openKeys_le_append piece rest
  rw [marks_append, marks_append, h.2.1, openKeys_append h.2.2, hexDigits_append, hexDigits_append]
  omega

end IsAngled

theorem timestampPatterns_need : ∀ p ∈ timestampPatterns, p.Needs isMark := by
  have hDate : calendarDate.Needs isMark := needs_inOrder (needs_char '-' (by decide)) (by simp)
  have hClock : clockTime.Needs isMark := needs_inOrder (needs_char ':' (by decide)) (by simp)
  have hDigits : (digits 10).Needs isMark :=
    needs_run (by decide) fun c hc => by simp [isMark, hc]
  simp only [timestampPatterns, List.forall_mem_cons]
  exact ⟨needs_inOrder hDate (by simp), needs_inOrder hDate (by simp),
    needs_inOrder hDigits (by simp), hDate, needs_inOrder (needs_char '/' (by decide)) (by simp),
    needs_inOrder (needs_char '-' (by decide)) (by simp), hClock,
    needs_inOrder (needs_char ':' (by decide)) (by simp), List.forall_mem_nil _⟩

theorem pathPatterns_need : ∀ p ∈ pathPatterns, p.Needs isMark := by
  have hScheme : (text "://").Needs isMark := needs_inOrder (needs_char ':' (by decide)) (by simp)
  simp only [pathPatterns, List.forall_mem_cons]
  exact ⟨needs_inOrder hScheme (by simp), needs_inOrder (needs_char '/' (by decide)) (by simp),
    needs_inOrder (needs_char ':' (by decide)) (by simp), List.forall_mem_nil _⟩

theorem addressPatterns_need : ∀ p ∈ addressPatterns, p.Needs isMark := by
  -- Every group but the last one has its separator.
  have hGroups : ∀ (n : Nat) (accepts : Char → Bool) (most : Nat) (separator : Char),
      isMark separator = true →
        (times (n + 1) (inOrder [.run accepts 1 (some most), char separator])).Needs isMark :=
    fun n accepts most separator hMark =>
      needs_inOrder (needs_inOrder (needs_char separator hMark) (by simp))
        (List.mem_replicate.mpr ⟨Nat.succ_ne_zero n, rfl⟩)
  simp only [addressPatterns, List.forall_mem_cons]
  exact ⟨needs_inOrder (hGroups 2 isDigit 3 '.' (by decide)) (by simp),
    needs_inOrder (hGroups 6 isHexDigit 4 ':' (by decide)) (by simp), List.forall_mem_nil _⟩

/-- A key and its value give way to the key and a placeholder: the separator is a mark, or an equals
sign that was open. -/
theorem keyed_lightens {key : String} {value : Char → Bool} (hValue : value '<' = false)
    {piece : List Char} (h : (keyed key value).Reads piece) :
    Lightens (key ++ "=<id>").toList piece := by
  obtain ⟨-, -, rfl, rfl, name, -, rfl, hName, separator, -, rfl, hSeparator, blanks, -, rfl,
    ⟨-, -, hBlanks⟩, values, -, rfl, ⟨hSome, -, hValues⟩, -, -, rfl, rfl, rfl⟩ := h
  obtain rfl := hName.of_text
  obtain ⟨c, rfl, hc⟩ := hSeparator.of_one
  intro rest
  -- Neither a blank nor a value can be taken for a placeholder.
  have hOpen : (blanks ++ (values ++ rest)).head? ≠ some '<' := by
    cases blanks with
    | cons b blanks =>
        rintro ⟨⟩
        exact absurd (hBlanks '<' List.mem_cons_self) (by decide)
    | nil =>
        cases values with
        | nil => exact absurd hSome (by decide)
        | cons v values =>
            rintro ⟨⟩
            exact absurd (hValues '<' List.mem_cons_self) (by simp [hValue])
  have hAfter : Lighter ("=<id>".toList ++ rest) (c :: (blanks ++ (values ++ rest))) := by
    have hMarks := marks_append (blanks ++ values) rest
    have hKeys := openKeys_le_append (blanks ++ values) rest
    rw [List.append_assoc] at hMarks hKeys
    have hClosed : marks ("=<id>".toList ++ rest) + openKeys ("=<id>".toList ++ rest)
        = marks rest + openKeys rest := by
      rw [marks_append]
      simp [openKeys, show marks ['=', '<', 'i', 'd', '>'] = 0 by decide]
    rw [Bool.or_eq_true, decide_eq_true_eq, decide_eq_true_eq] at hc
    refine ⟨?_, weight_lt_iff.mpr (.inl ?_)⟩
    · rintro ⟨⟩
      exact absurd hc (by decide)
    · rw [hClosed, marks_cons, openKeys]
      rcases hc with rfl | rfl
      · rw [if_pos (And.intro rfl hOpen)]
        omega
      · rw [if_pos (show isMark ':' = true by decide)]
        omega
  simpa [String.toList_append] using hAfter.append key.toList

/-- A long word of hexadecimal digits has more of them than its placeholder. -/
theorem hexWord_lightens {piece : List Char}
    (h : (inOrder [.wordEdge, atLeast 8 isHexDigit, .wordEdge]).Reads piece) :
    Lightens "<number>".toList piece := by
  obtain ⟨-, -, rfl, rfl, word, -, rfl, ⟨hLong, -, hAll⟩, -, -, rfl, rfl, rfl⟩ := h
  have hCount : hexDigits word = word.length := List.countP_eq_length.mpr hAll
  refine IsAngled.lightens_hexDigits (by decide) ?_
  have hPlaceholder : hexDigits "<number>".toList = 2 := by decide
  simp only [List.nil_append, List.append_nil]
  omega

theorem numberPatterns_lighten :
    ∀ p ∈ numberPatterns, ∀ piece, p.Reads piece → Lightens "<number>".toList piece := by
  have hAngled : IsAngled "<number>".toList := by decide
  have hDigits : (atLeast 6 isDigit).Needs isMark :=
    needs_run (by decide) fun c hc => by simp [isMark, hc]
  have hZero : (text "0x").Needs isMark := needs_inOrder (needs_char '0' (by decide)) (by simp)
  have hNeeds : ∀ {p : Pattern}, p.Needs isMark →
      ∀ piece, p.Reads piece → Lightens "<number>".toList piece :=
    fun hp piece hPiece => hAngled.lightens_mark (hp piece hPiece)
  simp only [numberPatterns, List.forall_mem_cons]
  exact ⟨hNeeds (needs_inOrder hDigits (by simp)),
    hNeeds (needs_inOrder (needs_char '.' (by decide)) (by simp)),
    hNeeds (needs_inOrder hZero (by simp)), fun piece hPiece => hexWord_lightens hPiece,
    List.forall_mem_nil _⟩

/-- Every rule makes a message lighter where it replaces something. -/
theorem rules_lighten :
    ∀ rule ∈ rules, ∀ piece, rule.pattern.Reads piece → Lightens rule.placeholder.toList piece := by
  have hMark : ∀ {placeholder : String}, IsAngled placeholder.toList → ∀ {p : Pattern},
      p.Needs isMark → ∀ piece, p.Reads piece → Lightens placeholder.toList piece :=
    fun hAngled _ hp piece hPiece => hAngled.lightens_mark (hp piece hPiece)
  simp only [rules, List.forall_mem_append, List.forall_mem_map, List.forall_mem_cons]
  refine ⟨⟨⟨⟨⟨⟨?_, ?_⟩, ?_⟩, ?_⟩, ?_⟩, ?_⟩, ?_⟩
  · exact fun p hp => hMark (by decide) (timestampPatterns_need p hp)
  · exact ⟨hMark (by decide) (needs_inOrder (needs_char '-' (by decide)) (by simp)),
      List.forall_mem_nil _⟩
  · exact fun p hp => hMark (by decide) (pathPatterns_need p hp)
  · exact fun p hp => hMark (by decide) (addressPatterns_need p hp)
  · exact ⟨hMark (by decide) (needs_inOrder (needs_char '@' (by decide)) (by simp)),
      hMark (by decide) (needs_inOrder (needs_char '.' (by decide)) (by simp)),
      List.forall_mem_nil _⟩
  · simp only [identifierPatterns, List.forall_mem_cons]
    exact ⟨fun _ h => keyed_lightens (by decide) h, fun _ h => keyed_lightens (by decide) h,
      fun _ h => keyed_lightens (by decide) h, fun _ h => keyed_lightens (by decide) h,
      fun _ h => keyed_lightens (by decide) h, List.forall_mem_nil _⟩
  · exact numberPatterns_lighten

/-- What is without a character in front is lighter, if it is not a placeholder that loses its
front. -/
theorem lighter_tail {c : Char} (hc : c ≠ '<') (rest : List Char) : Lighter rest (c :: rest) where
  front h := absurd (Option.some.inj h) hc
  weight := by
    rw [weight_lt_iff, marks_cons, openKeys, hexDigits_cons, slack_cons]
    omega

theorem isBlank_ne_angle {c : Char} (h : isBlank c = true) : c ≠ '<' := by
  rintro rfl
  exact absurd h (by decide)

/-- A space is lighter than another blank. -/
theorem space_lighter {c : Char} (hBlank : isBlank c = true) (hSpace : c ≠ ' ')
    (rest : List Char) : Lighter (' ' :: rest) (c :: rest) := by
  refine ⟨fun h => absurd (Option.some.inj h) (isBlank_ne_angle hBlank), ?_⟩
  have hLight : isMark ' ' = false ∧ isHexDigit ' ' = false ∧ isOddBlank ' ' = false := by decide
  have hOdd : isOddBlank c = true := by simp [isOddBlank, hBlank, hSpace]
  rw [weight_lt_iff]
  simp only [marks_cons, openKeys, hexDigits_cons, slack_cons, hLight, hOdd]
  simp only [Bool.false_eq_true, if_false, if_true, show ¬(' ' = '=') by decide, false_and]
  omega

/-- Every step makes a message lighter. -/
theorem Rewrite.lighter {u v : List Char} (h : Rewrite u v) : Lighter v u := by
  induction h with
  | replace mem reads rest => exact rules_lighten _ mem _ reads rest
  | drop blank rest => exact lighter_tail (isBlank_ne_angle blank) rest
  | space blank odd rest => exact space_lighter blank odd rest
  | cons c _ ih => exact ih.cons c

theorem Rewrites.noHeavier {u v : List Char} (h : Rewrites u v) : NoHeavier v u := by
  induction h with
  | refl => exact .inl rfl
  | tail _ hStep ih => exact NoHeavier.trans (.inr hStep.lighter) ih

theorem replaceAll_noHeavier {rule : Rule} (h : rule ∈ rules) (message : List Char) :
    NoHeavier (rule.pattern.replaceAll rule.placeholder.toList message) message :=
  (replaceAll_rewrites h message).noHeavier

theorem foldl_noHeavier {some : List Rule} (h : ∀ rule ∈ some, rule ∈ rules) (message : List Char) :
    NoHeavier (some.foldl (fun text rule =>
      rule.pattern.replaceAll rule.placeholder.toList text) message) message :=
  (foldl_rewrites h message).noHeavier

theorem collapseBlanks_noHeavier (message : List Char) :
    NoHeavier (collapseBlanks message) message :=
  (collapseBlanks_rewrites message).noHeavier

theorem dropBlanks_noHeavier (message : List Char) :
    NoHeavier (message.dropWhile isBlank) message :=
  (dropBlanks_rewrites message).noHeavier

theorem dropLastBlanks_noHeavier (message : List Char) :
    NoHeavier (message.reverse.dropWhile isBlank).reverse message :=
  (dropLastBlanks_rewrites message).noHeavier

/-- One round leaves a message as it is or makes it lighter. -/
theorem normalizeRound_noHeavier (message : List Char) :
    NoHeavier (normalizeRound message) message :=
  (normalizeRound_rewrites message).noHeavier

end Triage.Message
