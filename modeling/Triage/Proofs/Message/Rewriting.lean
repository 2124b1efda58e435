import Mathlib.Data.List.Induction
import Mathlib.Logic.Relation
import Triage.Message.Normal
import Triage.Proofs.Pattern.Reading

/-!
# Rounds as rewriting

A round is a sequence of small steps.  A piece that a rule's pattern can read gives way to the
placeholder, a blank is dropped, or a space takes the place of another blank, each of them anywhere
in the text (`Rewrite`).  Every part of a round is made of such steps: the rules
(`foldl_rewrites`), the collapsing of blanks and the stripping at both ends, and so the round as a
whole (`normalizeRound_rewrites`).  What every step does to a text is then known of rounds.
-/

namespace Triage.Message

open Triage.Pattern
open Triage.Text (isBlank)

/-- One step, from a text to the next one. -/
inductive Rewrite : List Char → List Char → Prop where
  /-- A piece gives way to the placeholder of a rule that reads it. -/
  | replace {rule : Rule} {piece : List Char} (mem : rule ∈ rules)
      (reads : rule.pattern.Reads piece) (rest : List Char) :
      Rewrite (piece ++ rest) (rule.placeholder.toList ++ rest)
  /-- A blank is dropped. -/
  | drop {c : Char} (blank : isBlank c = true) (rest : List Char) : Rewrite (c :: rest) rest
  /-- A space takes the place of another blank. -/
  | space {c : Char} (blank : isBlank c = true) (odd : c ≠ ' ') (rest : List Char) :
      Rewrite (c :: rest) (' ' :: rest)
  /-- What stands before a step does not matter. -/
  | cons (c : Char) {u v : List Char} (step : Rewrite u v) : Rewrite (c :: u) (c :: v)

/-- Any number of steps. -/
abbrev Rewrites : List Char → List Char → Prop := Relation.ReflTransGen Rewrite

theorem Rewrites.cons {u v : List Char} (h : Rewrites u v) (c : Char) :
    Rewrites (c :: u) (c :: v) :=
  Relation.ReflTransGen.lift (c :: ·) (fun _ _ => Rewrite.cons c) _ _ h

theorem Rewrites.append {u v : List Char} (h : Rewrites u v) (front : List Char) :
    Rewrites (front ++ u) (front ++ v) := by
  induction front with
  | nil => exact h
  | cons c front ih => exact ih.cons c

theorem replaceAll_rewrites {rule : Rule} (h : rule ∈ rules) (message : List Char) :
    Rewrites message (rule.pattern.replaceAll rule.placeholder.toList message) :=
  replaceAll_related (R := fun outcome text => Rewrites text outcome) .refl
    (fun c _ _ hRest => hRest.cons c)
    -- What comes after the piece is rewritten first, so the piece still stands before it.
    (fun hReads _ hRest => (hRest.append _).tail (.replace h hReads _)) message

theorem foldl_rewrites {some : List Rule} (h : ∀ rule ∈ some, rule ∈ rules)
    (message : List Char) :
    Rewrites message (some.foldl (fun text rule =>
      rule.pattern.replaceAll rule.placeholder.toList text) message) := by
  induction some generalizing message with
  | nil => exact .refl
  | cons rule rest ih =>
      rw [List.forall_mem_cons] at h
      exact (replaceAll_rewrites h.1 message).trans (ih h.2 _)

theorem blank_rewrites {c : Char} (hBlank : isBlank c = true) (rest : List Char) :
    Rewrites (c :: rest) (' ' :: rest) := by
  by_cases hSpace : c = ' '
  · rw [hSpace]
  · exact .single (.space hBlank hSpace rest)

theorem collapseBlanks_rewrites (message : List Char) :
    Rewrites message (collapseBlanks message) := by
  fun_induction collapseBlanks message with
  | case1 => exact .refl
  | case2 c hBlank d rest hNext ih => exact .head (.drop hBlank _) ih
  | case3 c hBlank d rest hNext ih => exact (blank_rewrites hBlank _).trans (ih.cons ' ')
  | case4 c hBlank => exact blank_rewrites hBlank []
  | case5 c rest hBlank ih => exact ih.cons c

theorem dropBlanks_rewrites (message : List Char) :
    Rewrites message (message.dropWhile isBlank) := by
  induction message with
  | nil => exact .refl
  | cons c rest ih =>
      by_cases hBlank : isBlank c = true
      · rw [List.dropWhile_cons_of_pos hBlank]
        exact .head (.drop hBlank rest) ih
      · rw [List.dropWhile_cons_of_neg hBlank]

theorem dropLastBlanks_rewrites (message : List Char) :
    Rewrites message (message.reverse.dropWhile isBlank).reverse := by
  induction message using List.reverseRecOn with
  | nil => exact .refl
  | append_singleton front c ih =>
      rw [List.reverse_append, List.reverse_singleton, List.singleton_append]
      by_cases hBlank : isBlank c = true
      · have hLast : Rewrites (front ++ [c]) (front ++ []) :=
          Rewrites.append (.single (.drop hBlank [])) front
        rw [List.append_nil] at hLast
        rw [List.dropWhile_cons_of_pos hBlank]
        exact hLast.trans ih
      · rw [List.dropWhile_cons_of_neg hBlank, List.reverse_cons, List.reverse_reverse]

/-- A round is made of steps. -/
theorem normalizeRound_rewrites (message : List Char) :
    Rewrites message (normalizeRound message) :=
  ((foldl_rewrites (fun _ h => h) message).trans (collapseBlanks_rewrites _)).trans
    ((dropBlanks_rewrites _).trans (dropLastBlanks_rewrites _))

end Triage.Message
