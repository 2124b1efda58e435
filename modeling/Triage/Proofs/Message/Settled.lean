import Triage.Proofs.Message.Weight
import Triage.Proofs.Pattern.Occurrence
import Triage.Proofs.Text.Stripping

/-!
# Settled messages

A message that a round leaves as it is has nothing volatile in it: no rule's pattern occurs in it,
and its blanks are single spaces between other characters (`normalizeRound_eq_self_iff`).  A round
is made of several steps, but none of them can undo another one: each step leaves the text as it is
or makes it lighter, so a round that leads back to the message has changed nothing at any step.
-/

namespace Triage.Message

open Triage.Pattern
open Triage.Text (isBlank strip Bare)

/-- Blanks stand only between other characters, and each of them is a single space. -/
structure Tidy (text : List Char) : Prop where
  bare : Bare text
  spaces : ∀ c ∈ text, isBlank c = true → c = ' '
  single : ¬[' ', ' '] <:+: text

theorem NoHeavier.antisymm {u v : List Char} (h : NoHeavier u v) (h' : NoHeavier v u) : u = v := by
  rcases h with hEq | hLighter
  · exact hEq
  · exact absurd (h'.trans_lighter hLighter).weight (lt_irrefl _)

/-- A rule that makes what it replaces lighter does not replace nothing. -/
theorem rule_consumes {rule : Rule} (h : rule ∈ rules) : rule.pattern.Consumes := by
  intro hEmpty
  have hLighter := rules_lighten rule h [] hEmpty []
  have hLess := hLighter.weight
  have hLeast : weight [] = toLex (0, toLex (0, 0)) := rfl
  rw [List.nil_append, hLeast, weight, Prod.Lex.toLex_lt_toLex, Prod.Lex.toLex_lt_toLex] at hLess
  omega

/-- A rule changes a message exactly when its pattern occurs in it. -/
theorem replaceAll_eq_self_iff {rule : Rule} (h : rule ∈ rules) (message : List Char) :
    rule.pattern.replaceAll rule.placeholder.toList message = message ↔
      ¬rule.pattern.OccursIn message := by
  constructor
  · intro hSame hOccurs
    obtain ⟨front, m, t, hText, hReads, hOut⟩ :=
      @Consumes.replaceAll_first _ rule.placeholder.toList (rule_consumes h) _ hOccurs
    have hRest : NoHeavier (rule.pattern.replaceFrom rule.placeholder.toList t) t.rest :=
      replaceFrom_related (.inl rfl) (fun c _ _ h => h.cons c)
        (fun hPiece _ hLater => (rules_lighten rule h _ hPiece).noHeavier hLater) t
    have hLighter : Lighter (rule.placeholder.toList ++
        rule.pattern.replaceFrom rule.placeholder.toList t) (m ++ t.rest) :=
      (hRest.append _).trans_lighter (rules_lighten rule h m hReads t.rest)
    have hLess := (hLighter.append front).weight
    rw [← hOut, ← hText, hSame] at hLess
    exact absurd hLess (lt_irrefl _)
  · exact replaceAll_eq_self

theorem foldl_eq_self_iff {some : List Rule} (h : ∀ rule ∈ some, rule ∈ rules)
    (message : List Char) :
    some.foldl (fun text rule => rule.pattern.replaceAll rule.placeholder.toList text) message =
        message ↔ ∀ rule ∈ some, ¬rule.pattern.OccursIn message := by
  induction some with
  | nil => simp
  | cons rule rest ih =>
      rw [List.forall_mem_cons] at h
      rw [List.foldl_cons, List.forall_mem_cons, ← ih h.2, ← replaceAll_eq_self_iff h.1]
      constructor
      · intro hSame
        -- What the rest of the rules makes of the outcome of the first one is the message again.
        have hBack := foldl_noHeavier h.2 (rule.pattern.replaceAll rule.placeholder.toList message)
        rw [hSame] at hBack
        have hFirst := (replaceAll_noHeavier h.1 message).antisymm hBack
        rw [hFirst] at hSame
        exact ⟨hFirst, hSame⟩
      · rintro ⟨hFirst, hRest⟩
        rw [hFirst, hRest]

/-- Collapsing blanks leaves a text alone exactly when its blanks are single spaces. -/
theorem collapseBlanks_eq_self_iff (text : List Char) :
    collapseBlanks text = text ↔
      (∀ c ∈ text, isBlank c = true → c = ' ') ∧ ¬[' ', ' '] <:+: text := by
  fun_induction collapseBlanks text with
  | case1 => simp
  | case2 c hBlank d rest hNext ih =>
      constructor
      · intro hSame
        -- The outcome is too light to be the text.
        have hLighter := (collapseBlanks_noHeavier (d :: rest)).trans_lighter
          (lighter_tail (isBlank_ne_angle hBlank) (d :: rest))
        rw [hSame] at hLighter
        exact absurd hLighter.weight (lt_irrefl _)
      · rintro ⟨hSpaces, hSingle⟩
        obtain rfl := hSpaces c (by simp) hBlank
        obtain rfl := hSpaces d (by simp) hNext
        exact absurd (List.prefix_append [' ', ' '] rest).isInfix hSingle
  | case3 c hBlank d rest hNext ih =>
      have hApart : ¬[' ', ' '] <+: c :: d :: rest := by
        intro hPrefix
        obtain ⟨-, hPrefix⟩ := List.cons_prefix_cons.mp hPrefix
        obtain ⟨rfl, -⟩ := List.cons_prefix_cons.mp hPrefix
        exact hNext (by decide)
      have hInfix : [' ', ' '] <:+: c :: d :: rest ↔ [' ', ' '] <:+: d :: rest := by
        rw [List.infix_cons_iff, or_iff_right hApart]
      have hSpaces : (∀ b ∈ c :: d :: rest, isBlank b = true → b = ' ') ↔
          c = ' ' ∧ ∀ b ∈ d :: rest, isBlank b = true → b = ' ' := by
        rw [List.forall_mem_cons, forall_prop_of_true hBlank]
      rw [List.cons.injEq, ih, hInfix, hSpaces, and_assoc, eq_comm]
  | case4 c hBlank =>
      have hShort : ¬[' ', ' '] <:+: [c] := fun h => absurd h.length_le (by simp)
      have hSpaces : (∀ b ∈ [c], isBlank b = true → b = ' ') ↔ c = ' ' := by
        rw [List.forall_mem_singleton, forall_prop_of_true hBlank]
      rw [hSpaces, and_iff_left hShort, List.singleton_inj, eq_comm]
  | case5 c rest hBlank ih =>
      have hApart : ¬[' ', ' '] <+: c :: rest := by
        intro hPrefix
        obtain ⟨rfl, -⟩ := List.cons_prefix_cons.mp hPrefix
        exact hBlank (by decide)
      have hInfix : [' ', ' '] <:+: c :: rest ↔ [' ', ' '] <:+: rest := by
        rw [List.infix_cons_iff, or_iff_right hApart]
      have hSpaces : (∀ b ∈ c :: rest, isBlank b = true → b = ' ') ↔
          ∀ b ∈ rest, isBlank b = true → b = ' ' := by
        rw [List.forall_mem_cons, forall_prop_of_false hBlank, true_and]
      rw [List.cons.injEq, ih, hInfix, hSpaces, and_iff_right rfl]

/-- A round leaves a message alone exactly when nothing volatile occurs in it and its blanks are
tidy. -/
theorem normalizeRound_eq_self_iff (message : List Char) :
    normalizeRound message = message ↔
      (∀ rule ∈ rules, ¬rule.pattern.OccursIn message) ∧ Tidy message := by
  have hReplaced := @foldl_noHeavier rules (fun _ h => h) message
  have hReplacedSame := @foldl_eq_self_iff rules (fun _ h => h) message
  have hCollapsedSame := collapseBlanks_eq_self_iff message
  constructor
  · intro hSame
    unfold normalizeRound at hSame
    dsimp only at hSame
    generalize rules.foldl _ message = replaced at hSame hReplaced hReplacedSame
    have hStripped : NoHeavier (strip (collapseBlanks replaced)) (collapseBlanks replaced) :=
      (dropLastBlanks_noHeavier _).trans (dropBlanks_noHeavier _)
    have hCollapsed := collapseBlanks_noHeavier replaced
    rw [hSame] at hStripped
    -- The message is no heavier than what the first steps make of it.
    obtain rfl := hReplaced.antisymm (hStripped.trans hCollapsed)
    have hCollapse := hCollapsed.antisymm hStripped
    obtain ⟨hSpaces, hSingle⟩ := hCollapsedSame.mp hCollapse
    rw [hCollapse] at hSame
    exact ⟨hReplacedSame.mp rfl, Text.strip_eq_self_iff.mp hSame, hSpaces, hSingle⟩
  · rintro ⟨hNone, hTidy⟩
    unfold normalizeRound
    dsimp only
    rw [hReplacedSame.mpr hNone, hCollapsedSame.mpr ⟨hTidy.spaces, hTidy.single⟩]
    exact Text.strip_eq_self_iff.mpr hTidy.bare

end Triage.Message
