import Triage.Proofs.Pattern.Carrying

/-!
# Texts that are read as a whole

What the characters of a text tell about the matches in it.  A pattern that cannot read any text of
an alphabet does not occur in such texts, which can be computed (`canRead`).  Of the texts that a
pattern reads none may go on to another one (`PrefixFree`); then a text it reads is read as a whole.
In a text of word characters a run between word edges is everything or nothing
(`edgedRun_replaceAll`, `edgedRun_not_occursIn`).
-/

namespace Triage

open Text (isWord)

theorem Spot.Reaches.split {s t : Spot} {a b : List Char} (h : s.Reaches (a ++ b) t) :
    ∃ u, s.Reaches a u ∧ u.Reaches b t := by
  refine ⟨⟨a.getLast?.or s.before, b ++ t.rest⟩, ⟨?_, rfl⟩, rfl, ?_⟩
  · rw [h.rest, List.append_assoc]
  · rw [h.before, List.getLast?_append, Option.or_assoc]

namespace Pattern

/-- Whether the pattern could read a text of an alphabet, as far as single characters tell. -/
def canRead (alphabet : List Char) : Pattern → Bool
  | .empty => true
  | .wordEdge => true
  | .run accepts least _ => least == 0 || alphabet.any accepts
  | .next first second => first.canRead alphabet && second.canRead alphabet
  | .orElse first second => first.canRead alphabet || second.canRead alphabet
  | .many _ => true

theorem canRead_of_reads {p : Pattern} {alphabet m : List Char} (h : p.Reads m)
    (hm : ∀ c ∈ m, c ∈ alphabet) : p.canRead alphabet = true := by
  induction p generalizing m with
  | empty => rfl
  | wordEdge => rfl
  | run accepts least most =>
      obtain ⟨hLeast, -, hAll⟩ := h
      simp only [canRead, Bool.or_eq_true, beq_iff_eq, List.any_eq_true]
      cases m with
      | nil => exact .inl (Nat.le_zero.mp hLeast)
      | cons c m => exact .inr ⟨c, hm c List.mem_cons_self, hAll c List.mem_cons_self⟩
  | next first second ihFirst ihSecond =>
      obtain ⟨a, b, rfl, ha, hb⟩ := h
      simp only [canRead, Bool.and_eq_true]
      exact ⟨ihFirst ha fun c hc => hm c (List.mem_append_left b hc),
        ihSecond hb fun c hc => hm c (List.mem_append_right a hc)⟩
  | orElse first second ihFirst ihSecond =>
      simp only [canRead, Bool.or_eq_true]
      rcases h with hFirst | hSecond
      · exact .inl (ihFirst hFirst hm)
      · exact .inr (ihSecond hSecond hm)
  | many body ih => rfl

theorem consumes_of_canRead {p : Pattern} {alphabet : List Char}
    (h : p.canRead alphabet = false) : p.Consumes := by
  intro hEmpty
  have hCan := @canRead_of_reads p alphabet [] hEmpty (by simp)
  rw [h] at hCan
  cases hCan

theorem not_occursIn_of_canRead {p : Pattern} {alphabet text : List Char}
    (h : p.canRead alphabet = false) (hText : ∀ c ∈ text, c ∈ alphabet) : ¬p.OccursIn text := by
  rintro ⟨front, rest, t, rfl, ht⟩
  obtain ⟨m, hReach, hReads⟩ := reads_of_leads ht
  have hm : ∀ c ∈ m, c ∈ alphabet := by
    intro c hc
    refine hText c (List.mem_append_right front ?_)
    rw [show rest = m ++ t.rest from hReach.rest]
    exact List.mem_append_left t.rest hc
  have hCan := canRead_of_reads hReads hm
  rw [h] at hCan
  cases hCan

/-- Whether the pattern has no word edge in it. -/
def edgeless : Pattern → Bool
  | .empty => true
  | .wordEdge => false
  | .run _ _ _ => true
  | .next first second => first.edgeless && second.edgeless
  | .orElse first second => first.edgeless && second.edgeless
  | .many body => body.edgeless

/-- Without word edges a text that can be read is read anywhere. -/
theorem leads_of_reads {p : Pattern} (hEdgeless : p.edgeless = true) {m : List Char}
    (h : p.Reads m) {s t : Spot} (hReach : s.Reaches m t) : p.Leads s t := by
  induction p generalizing m s t with
  | empty =>
      obtain rfl := h
      exact hReach.eq_of_nil
  | wordEdge => cases hEdgeless
  | run accepts least most => exact ⟨m, hReach, h⟩
  | next first second ihFirst ihSecond =>
      obtain ⟨a, b, rfl, ha, hb⟩ := h
      simp only [edgeless, Bool.and_eq_true] at hEdgeless
      obtain ⟨u, hFirst, hSecond⟩ := hReach.split
      exact ⟨u, ihFirst hEdgeless.1 ha hFirst, ihSecond hEdgeless.2 hb hSecond⟩
  | orElse first second ihFirst ihSecond =>
      simp only [edgeless, Bool.and_eq_true] at hEdgeless
      rcases h with hFirst | hSecond
      · exact .inl (ihFirst hEdgeless.1 hFirst hReach)
      · exact .inr (ihSecond hEdgeless.2 hSecond hReach)
  | many body ih =>
      obtain ⟨parts, rfl, hParts⟩ := h
      induction parts generalizing s with
      | nil =>
          rw [hReach.eq_of_nil]
          exact .refl
      | cons part parts ihParts =>
          rw [List.forall_mem_cons] at hParts
          rw [List.flatten_cons] at hReach
          obtain ⟨u, hFirst, hRest⟩ := hReach.split
          exact .head (ih hEdgeless hParts.1 hFirst) (ihParts hParts.2 hRest)

/-- Of the texts that the pattern reads none goes on to another one. -/
def PrefixFree (p : Pattern) : Prop :=
  ∀ ⦃m m' rest rest'⦄, p.Reads m → p.Reads m' → m ++ rest = m' ++ rest' → m = m'

theorem prefixFree_empty : empty.PrefixFree := by
  rintro _ _ rest rest' rfl rfl -
  rfl

theorem prefixFree_wordEdge : wordEdge.PrefixFree := prefixFree_empty

theorem prefixFree_exactly (n : Nat) (accepts : Char → Bool) : (exactly n accepts).PrefixFree := by
  rintro m m' rest rest' ⟨hLeast, hMost, -⟩ ⟨hLeast', hMost', -⟩ hEq
  have hLong := hMost n rfl
  have hLong' := hMost' n rfl
  exact (List.append_inj hEq (by omega)).1

theorem prefixFree_char (c : Char) : (char c).PrefixFree := prefixFree_exactly 1 _

theorem PrefixFree.next {p q : Pattern} (hp : p.PrefixFree) (hq : q.PrefixFree) :
    (p.next q).PrefixFree := by
  rintro _ _ rest rest' ⟨a, b, rfl, ha, hb⟩ ⟨a', b', rfl, ha', hb'⟩ hEq
  rw [List.append_assoc, List.append_assoc] at hEq
  obtain rfl := hp ha ha' hEq
  rw [hq hb hb' (List.append_cancel_left hEq)]

theorem prefixFree_inOrder {parts : List Pattern} (h : ∀ p ∈ parts, p.PrefixFree) :
    (inOrder parts).PrefixFree := by
  induction parts with
  | nil => exact prefixFree_empty
  | cons p parts ih =>
      rw [List.forall_mem_cons] at h
      exact h.1.next (ih h.2)

theorem PrefixFree.of_reads {p q : Pattern} (hq : q.PrefixFree)
    (h : ∀ m, p.Reads m → q.Reads m) : p.PrefixFree :=
  fun _ _ _ _ hm hm' hEq => hq (h _ hm) (h _ hm') hEq

/-- Every text that the pattern reads begins with a character of a class. -/
def Starts (first : Char → Bool) (p : Pattern) : Prop :=
  ∀ m, p.Reads m → ∃ c tail, m = c :: tail ∧ first c = true

theorem starts_run {accepts : Char → Bool} {least : Nat} {most : Option Nat} (h : 0 < least) :
    (run accepts least most).Starts accepts := by
  rintro m ⟨hLeast, -, hAll⟩
  cases m with
  | nil => exact absurd hLeast (Nat.not_le_of_gt h)
  | cons c m => exact ⟨c, m, rfl, hAll c List.mem_cons_self⟩

theorem starts_char (c : Char) : (char c).Starts (· = c) := starts_run Nat.one_pos

section Starts

variable {p q : Pattern} {first : Char → Bool}

theorem Starts.next (hp : p.Starts first) : (p.next q).Starts first := by
  rintro _ ⟨a, b, rfl, ha, -⟩
  obtain ⟨c, tail, rfl, hc⟩ := hp a ha
  exact ⟨c, tail ++ b, rfl, hc⟩

theorem Starts.mono {wider : Char → Bool} (hp : p.Starts first)
    (h : ∀ c, first c = true → wider c = true) : p.Starts wider := by
  intro m hm
  obtain ⟨c, tail, rfl, hc⟩ := hp m hm
  exact ⟨c, tail, rfl, h c hc⟩

theorem starts_text {s : String} (h : s.toList.head?.any first = true) :
    (text s).Starts first := by
  unfold text
  cases hText : s.toList with
  | nil => simp [hText] at h
  | cons c tail =>
      have hc : first c = true := by simpa [hText] using h
      refine (starts_char c).next.mono fun d hd => ?_
      obtain rfl : d = c := of_decide_eq_true hd
      exact hc

theorem Starts.orElse (hp : p.Starts first) (hq : q.Starts first) : (p.orElse q).Starts first := by
  intro m hm
  rcases hm with hm | hm
  · exact hp m hm
  · exact hq m hm

/-- A word edge in front makes no difference. -/
theorem Starts.edged (hq : q.Starts first) : (wordEdge.next q).Starts first := by
  rintro _ ⟨_, b, rfl, rfl, hb⟩
  exact hq b hb

theorem Starts.consumes (hp : p.Starts first) : p.Consumes := by
  intro hEmpty
  obtain ⟨c, tail, hNil, -⟩ := hp [] hEmpty
  cases hNil

/-- A choice between texts that begin differently. -/
theorem PrefixFree.orElse (hp : p.PrefixFree) (hq : q.PrefixFree) (hFirst : p.Starts first)
    (hSecond : q.Starts fun c => !first c) : (p.orElse q).PrefixFree := by
  have hApart : ∀ {m m' rest rest' : List Char}, p.Reads m → q.Reads m' →
      m ++ rest ≠ m' ++ rest' := by
    intro m m' rest rest' hm hm' hEq
    obtain ⟨c, tail, rfl, hc⟩ := hFirst m hm
    obtain ⟨c', tail', rfl, hc'⟩ := hSecond m' hm'
    obtain ⟨rfl, -⟩ := List.cons.inj hEq
    simp [hc] at hc'
  intro m m' rest rest' hm hm' hEq
  rcases hm with hm | hm
  · rcases hm' with hm' | hm'
    · exact hp hm hm' hEq
    · exact absurd hEq (hApart hm hm')
  · rcases hm' with hm' | hm'
    · exact absurd hEq.symm (hApart hm' hm)
    · exact hq hm hm' hEq

theorem eq_of_stop {accepts : Char → Bool} {d d' rest rest' : List Char} {c c' : Char}
    (hd : ∀ x ∈ d, accepts x = true) (hd' : ∀ x ∈ d', accepts x = true) (hc : accepts c = false)
    (hc' : accepts c' = false) (h : d ++ c :: rest = d' ++ c' :: rest') : d = d' := by
  induction d generalizing d' with
  | nil =>
      cases d' with
      | nil => rfl
      | cons x d' =>
          obtain ⟨rfl, -⟩ := List.cons.inj h
          simp [hd' c List.mem_cons_self] at hc
  | cons x d ih =>
      rw [List.forall_mem_cons] at hd
      cases d' with
      | nil =>
          obtain ⟨rfl, -⟩ := List.cons.inj h
          simp [hd.1] at hc'
      | cons x' d' =>
          rw [List.forall_mem_cons] at hd'
          obtain ⟨rfl, hTail⟩ := List.cons.inj h
          rw [ih hd.2 hd'.2 hTail]

/-- A run whose end can be seen from what comes after it. -/
theorem PrefixFree.afterRun {accepts : Char → Bool} (hq : q.PrefixFree)
    (hStart : q.Starts fun c => !accepts c) (least : Nat) :
    ((atLeast least accepts).next q).PrefixFree := by
  rintro _ _ rest rest' ⟨d, b, rfl, ⟨-, -, hd⟩, hb⟩ ⟨d', b', rfl, ⟨-, -, hd'⟩, hb'⟩ hEq
  rw [List.append_assoc, List.append_assoc] at hEq
  obtain ⟨c, tail, rfl, hc⟩ := hStart b hb
  obtain ⟨c', tail', rfl, hc'⟩ := hStart b' hb'
  obtain rfl := eq_of_stop hd hd' (by simpa using hc) (by simpa using hc') hEq
  rw [hq hb hb' (List.append_cancel_left hEq)]

end Starts

/-- A text that is read up to its end, and of which no beginning is read, becomes the
replacement. -/
theorem PrefixFree.replaceAll_leads {p : Pattern} {replacement text : List Char}
    {last : Option Char} (hp : p.PrefixFree) (hConsumes : p.Consumes)
    (h : p.Leads ⟨none, text⟩ ⟨last, []⟩) : p.replaceAll replacement text = replacement := by
  refine hConsumes.replaceAll_whole h fun u hu => ?_
  obtain ⟨m, hReach, hm⟩ := reads_of_leads h
  obtain ⟨m', hReach', hm'⟩ := reads_of_leads hu
  have hText : m ++ [] = m' ++ u.rest := hReach.rest.symm.trans hReach'.rest
  obtain rfl := hp hm hm' hText
  exact (List.append_cancel_left hText).symm

theorem leads_inOrder_append {parts later : List Pattern} {s t u : Spot}
    (h : (inOrder parts).Leads s t) (h' : (inOrder later).Leads t u) :
    (inOrder (parts ++ later)).Leads s u := by
  induction parts generalizing s with
  | nil =>
      obtain rfl := h
      exact h'
  | cons p parts ih =>
      obtain ⟨v, hFirst, hRest⟩ := h
      exact ⟨v, hFirst, ih hRest⟩

/-- Patterns between two word edges. -/
def edged (parts : List Pattern) : Pattern := inOrder (wordEdge :: (parts ++ [wordEdge]))

section Edged

variable {parts : List Pattern} {text : List Char}

theorem atWordEdge_first (h : text.head?.any isWord = true) :
    Spot.atWordEdge ⟨none, text⟩ = true := by
  rw [Spot.atWordEdge_eq]
  simp [Spot.wordBefore, h]

theorem atWordEdge_last (h : text.getLast?.any isWord = true) :
    Spot.atWordEdge ⟨text.getLast?, []⟩ = true := by
  rw [Spot.atWordEdge_eq]
  simp [Spot.wordBefore, h]

/-- A text whose first and last characters are word characters stands between word edges. -/
theorem edged_leads (hEdgeless : (inOrder parts).edgeless = true)
    (hReads : (inOrder parts).Reads text) (hFirst : text.head?.any isWord = true)
    (hLast : text.getLast?.any isWord = true) :
    (edged parts).Leads ⟨none, text⟩ ⟨text.getLast?, []⟩ := by
  have hReach : Spot.Reaches ⟨none, text⟩ text ⟨text.getLast?, []⟩ := ⟨by simp, by simp⟩
  refine ⟨⟨none, text⟩, ⟨rfl, atWordEdge_first hFirst⟩, ?_⟩
  refine leads_inOrder_append (leads_of_reads hEdgeless hReads hReach) ?_
  exact ⟨_, ⟨rfl, atWordEdge_last hLast⟩, rfl⟩

variable {accepts : Char → Bool} {least : Nat} {most : Option Nat}

/-- Among word characters there are no word edges but the two ends of the text. -/
theorem whole_of_edgedRun {front rest : List Char} {t : Spot} (hLeast : 0 < least)
    (hWord : ∀ c ∈ front ++ rest, isWord c = true)
    (h : (edged [run accepts least most]).Leads ⟨front.getLast?, rest⟩ t) :
    front = [] ∧ (run accepts least most).Reads rest ∧ t.rest = [] := by
  obtain ⟨_, ⟨rfl, hEdge⟩, u, ⟨m, hReach, hReads⟩, _, ⟨rfl, hEdge'⟩, rfl⟩ := h
  obtain ⟨c, tail, rfl, -⟩ := starts_run hLeast m hReads
  obtain ⟨hRest, hBefore⟩ := hReach
  obtain rfl : rest = c :: (tail ++ t.rest) := hRest
  have hFront : front = [] := by
    by_contra hNonempty
    have hLast : isWord (front.getLast hNonempty) = true :=
      hWord _ (List.mem_append_left _ (List.getLast_mem hNonempty))
    have hNext : isWord c = true := hWord c (by simp)
    rw [Spot.atWordEdge_eq, Spot.wordBefore, List.getLast?_eq_some_getLast hNonempty] at hEdge
    simp [hLast, hNext] at hEdge
  have hEnd : t.rest = [] := by
    cases hMore : t.rest with
    | nil => rfl
    | cons d more =>
        have hNext : isWord d = true := hWord d (by simp [hMore])
        have hLast : t.wordBefore = true := by
          rw [Spot.wordBefore, hBefore, getLast?_cons_or]
          cases hTail : tail.getLast? with
          | none => simpa using hWord c (by simp)
          | some x =>
              have hx : x ∈ tail := List.mem_of_getLast? hTail
              simpa using hWord x (by simp [hx])
        rw [Spot.atWordEdge_eq, hLast, hMore] at hEdge'
        simp [hNext] at hEdge'
  refine ⟨hFront, ?_, hEnd⟩
  rw [hEnd, List.append_nil]
  exact hReads

theorem edgedRun_not_occursIn (hLeast : 0 < least) (hWord : ∀ c ∈ text, isWord c = true)
    (h : ¬(run accepts least most).Reads text) :
    ¬(edged [run accepts least most]).OccursIn text := by
  rintro ⟨front, rest, t, rfl, ht⟩
  obtain ⟨rfl, hReads, -⟩ := whole_of_edgedRun hLeast hWord ht
  exact h hReads

theorem edgedRun_replaceAll {replacement : List Char} (hLeast : 0 < least)
    (hWord : ∀ c ∈ text, isWord c = true) (h : (run accepts least most).Reads text) :
    (edged [run accepts least most]).replaceAll replacement text = replacement := by
  obtain ⟨c, tail, rfl, -⟩ := starts_run hLeast text h
  have hFirst : (c :: tail).head?.any isWord = true := by simpa using hWord c List.mem_cons_self
  have hLast : (c :: tail).getLast?.any isWord = true := by
    rw [List.getLast?_eq_some_getLast (List.cons_ne_nil c tail)]
    simpa using hWord _ (List.getLast_mem (List.cons_ne_nil c tail))
  have hConsumes : (edged [run accepts least most]).Consumes :=
    ((starts_run hLeast).next).edged.consumes
  refine hConsumes.replaceAll_whole (edged_leads rfl ⟨_, [], (List.append_nil _).symm, h, rfl⟩
    hFirst hLast) fun u hu => ?_
  exact (@whole_of_edgedRun _ _ _ [] _ u hLeast hWord hu).2.2

end Edged

end Pattern
end Triage
