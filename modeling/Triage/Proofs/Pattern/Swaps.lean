import Triage.Proofs.Pattern.Exact

/-!
# One word in the place of another

Two texts that differ in one word between spaces (`Swap`), and what replacing makes of them.  A
pattern that cannot read a space treats the word by itself: if it does the same to both words then
the outcomes are the same (`replaceAll_eq_of_bars`), and if it leaves both words alone then the
outcomes differ in the word only (`swap_of_bars`).

A pattern that reads spaces may run into the word.  It keeps the texts together if it either does
not get past the space in front or goes through the whole word: `Firm` spots stand before that space
or behind the word, `Twin` spots may also stand at the word.  A run of characters that swallows both
words, followed by something that cannot go on in the middle of the run, leads from twin spots to
firm ones (`twin_greedy`).
-/

namespace Triage

open Text (isWord)

/-- The same text twice, or two texts that differ in one word between spaces. -/
inductive Swap (u v : List Char) : List Char → List Char → Prop
  | same (text : List Char) : Swap u v text text
  | word (front rest : List Char) :
      Swap u v (front ++ ' ' :: (u ++ ' ' :: rest)) (front ++ ' ' :: (v ++ ' ' :: rest))

namespace Spot

/-- Both spots stand before the space in front of the word, or both behind the word. -/
def Firm (u v rest : List Char) (s t : Spot) : Prop :=
  Alike (' ' :: (u ++ ' ' :: rest)) (' ' :: (v ++ ' ' :: rest)) s t ∨ Alike [] [] s t

/-- Firm spots, or both spots stand at the word. -/
def Twin (u v rest : List Char) (s t : Spot) : Prop :=
  Firm u v rest s t ∨ s = ⟨some ' ', u ++ ' ' :: rest⟩ ∧ t = ⟨some ' ', v ++ ' ' :: rest⟩

/-- The spot behind all characters of a class that come next. -/
def skip (accepts : Char → Bool) (s : Spot) : Spot :=
  ⟨(s.rest.takeWhile accepts).getLast?.or s.before, s.rest.dropWhile accepts⟩

section Skip

variable {accepts : Char → Bool} {before : Option Char} {c : Char} {tail : List Char}

theorem skip_nil : skip accepts ⟨before, []⟩ = ⟨before, []⟩ := rfl

theorem skip_pos (h : accepts c = true) :
    skip accepts ⟨before, c :: tail⟩ = skip accepts ⟨some c, tail⟩ := by
  unfold skip
  rw [List.takeWhile_cons_of_pos h, List.dropWhile_cons_of_pos h, getLast?_cons_or]

theorem skip_neg (h : accepts c = false) :
    skip accepts ⟨before, c :: tail⟩ = ⟨before, c :: tail⟩ := by
  have hNot : ¬accepts c = true := by simp [h]
  unfold skip
  rw [List.takeWhile_cons_of_neg hNot, List.dropWhile_cons_of_neg hNot]
  rfl

theorem skip_append {m : List Char} (h : ∀ c ∈ m, accepts c = true) (rest : List Char) :
    skip accepts ⟨before, m ++ rest⟩ = skip accepts ⟨m.getLast?.or before, rest⟩ := by
  induction m generalizing before with
  | nil => rfl
  | cons c m ih =>
      rw [List.forall_mem_cons] at h
      rw [List.cons_append, skip_pos h.1, ih h.2, getLast?_cons_or]

theorem Alike.skip_behind {s t : Spot} (h : Alike [] [] s t) :
    Alike [] [] (s.skip accepts) (t.skip accepts) := by
  obtain ⟨front, hs, ht⟩ := h.rest
  have hRest : s.rest = t.rest := hs.trans ht.symm
  refine ⟨?_, (t.skip accepts).rest, ?_, by simp⟩
  · have hWord := h.word
    unfold wordBefore at hWord ⊢
    simp only [skip, hRest]
    cases (t.rest.takeWhile accepts).getLast? with
    | none => simpa using hWord
    | some c => rfl
  · simp [skip, hRest]

end Skip
end Spot

namespace Pattern

open Spot (Alike Firm Twin)

section Greedy

variable {accepts : Char → Bool} {g : Pattern}

/-- In the middle of a run of characters of the class, the pattern reads nothing. -/
def HaltsWithin (g : Pattern) (accepts : Char → Bool) : Prop :=
  ∀ ⦃s : Spot⦄, s.before.any accepts = true → s.rest.head?.any accepts = true → g.ends s = []

theorem char_haltsWithin {c : Char} (h : accepts c = false) :
    (inOrder [char c]).HaltsWithin accepts := by
  intro s _ hAfter
  refine List.eq_nil_iff_forall_not_mem.mpr fun t ht => ?_
  obtain ⟨m, hReach, hReads⟩ := reads_of_mem_ends ht
  obtain ⟨d, tail, rfl, hd⟩ := (starts_char c).next m hReads
  obtain rfl : d = c := of_decide_eq_true hd
  rw [hReach.rest] at hAfter
  simp [h] at hAfter

theorem flatMap_ends_atLeast (hg : g.HaltsWithin accepts) {s : Spot}
    (hBefore : s.before.any accepts = true) :
    ((atLeast 0 accepts).ends s).flatMap g.ends = g.ends (s.skip accepts) := by
  obtain ⟨before, rest⟩ := s
  induction rest generalizing before with
  | nil =>
      rw [atLeast, ends_run, Spot.skip_nil]
      simp [Spot.read]
  | cons c tail ih =>
      rw [atLeast, ends_run]
      cases hc : accepts c with
      | false =>
          rw [Spot.skip_neg hc]
          simp [Spot.read, hc]
      | true =>
          have hOn := ih (some c) (by simpa using hc)
          have hHere : g.ends ⟨before, c :: tail⟩ = [] := hg hBefore (by simpa using hc)
          rw [Spot.skip_pos hc, ← hOn, atLeast]
          simp [Spot.read, hc, hHere]

/-- If the pattern after a run cannot go on in the middle of the run, it goes on at its end. -/
theorem ends_greedy (hg : g.HaltsWithin accepts) (s : Spot) :
    ((atLeast 1 accepts).next g).ends s =
      if s.rest.head?.any accepts then g.ends (s.skip accepts) else [] := by
  obtain ⟨before, rest⟩ := s
  show ((atLeast 1 accepts).ends ⟨before, rest⟩).flatMap g.ends = _
  rw [atLeast, ends_run]
  cases rest with
  | nil => simp [Spot.read]
  | cons c tail =>
      cases hc : accepts c with
      | false => simp [Spot.read, hc]
      | true =>
          have hOn := flatMap_ends_atLeast hg (s := ⟨some c, tail⟩) (by simpa using hc)
          rw [Spot.skip_pos hc, ← hOn, atLeast]
          simp [Spot.read, hc]

/-- The preferred end of a run with no limits is its farthest one. -/
theorem stop?_atLeast (accepts : Char → Bool) (s : Spot) :
    (inOrder [atLeast 0 accepts]).stop? s = some (s.skip accepts) := by
  have hFirst : ((atLeast 0 accepts).ends s).head? = some (s.skip accepts) := by
    obtain ⟨before, rest⟩ := s
    induction rest generalizing before with
    | nil =>
        rw [atLeast, ends_run, Spot.skip_nil]
        simp [Spot.read]
    | cons c tail ih =>
        rw [atLeast, ends_run]
        cases hc : accepts c with
        | false =>
            rw [Spot.skip_neg hc]
            simp [Spot.read, hc]
        | true =>
            have hOn := ih (some c)
            rw [atLeast] at hOn
            rw [Spot.skip_pos hc]
            simp [Spot.read, hc, hOn]
  have hEnds : (inOrder [atLeast 0 accepts]).ends s = (atLeast 0 accepts).ends s := by
    show ((atLeast 0 accepts).ends s).flatMap (fun t => [t]) = _
    simp
  rw [stop?, hEnds, hFirst]

end Greedy

theorem Guides.next {R S T : Spot → Spot → Prop} {p q : Pattern} (hp : p.Carries R S)
    (hq : q.Guides S T) : (p.next q).Guides R T := by
  intro s t h
  have hEnds := hp h
  simp only [stop?, ends, List.head?_flatMap]
  generalize p.ends s = found at hEnds ⊢
  generalize p.ends t = found' at hEnds ⊢
  induction hEnds with
  | nil => exact .none
  | @cons a b _ _ hab _ ih =>
      have hStops : Option.Rel T (q.ends a).head? (q.ends b).head? := hq hab
      rw [List.findSome?_cons, List.findSome?_cons]
      generalize (q.ends a).head? = stop at hStops ⊢
      generalize (q.ends b).head? = stop' at hStops ⊢
      cases hStops with
      | none => exact ih
      | some hStop => exact .some hStop

section Word

variable {u v rest : List Char} {p g : Pattern} {accepts : Char → Bool} {replacement : List Char}

theorem firm_of_bars (h : p.bars ' ' = true) : p.Carries (Firm u v rest) (Firm u v rest) := by
  have hBefore : p.Carries (Alike (' ' :: (u ++ ' ' :: rest)) (' ' :: (v ++ ' ' :: rest)))
      (Alike (' ' :: (u ++ ' ' :: rest)) (' ' :: (v ++ ' ' :: rest))) :=
    carries_of_bars (by simpa using h) (by simpa using h) rfl
  have hBehind : p.Carries (Alike [] []) (Alike [] []) := carries_of_bars (by simp) (by simp) rfl
  intro s t hst
  rcases hst with hst | hst
  · exact (hBefore hst).imp fun _ _ => .inl
  · exact (hBehind hst).imp fun _ _ => .inr

/-- Reading one character keeps spots together, if neither word begins with a character of the
class. -/
theorem twin_read (hu : ∃ c tail, u = c :: tail ∧ accepts c = false)
    (hv : ∃ c tail, v = c :: tail ∧ accepts c = false) {s t : Spot} (h : Twin u v rest s t) :
    Option.Rel (Twin u v rest) (s.read accepts) (t.read accepts) := by
  rcases h with (hBefore | hBehind) | ⟨rfl, rfl⟩
  · obtain ⟨hWord, front, hs, ht⟩ := hBefore
    cases front with
    | nil =>
        simp only [Spot.read, hs, ht, List.nil_append]
        split
        · exact .some (.inr ⟨rfl, rfl⟩)
        · exact .none
    | cons c front =>
        simp only [Spot.read, hs, ht, List.cons_append]
        split
        · exact .some (.inl (.inl ⟨rfl, front, rfl, rfl⟩))
        · exact .none
  · have hRead : Option.Rel (Alike [] []) (s.read accepts) (t.read accepts) :=
      hBehind.read (by simp) (by simp)
    rcases rel_cases hRead with ⟨hs, ht⟩ | ⟨next, next', hs, ht, hNext⟩ <;> rw [hs, ht]
    · exact .none
    · exact .some (.inl (.inr hNext))
  · obtain ⟨c, tail, rfl, hc⟩ := hu
    obtain ⟨d, tail', rfl, hd⟩ := hv
    simp only [Spot.read, List.cons_append, hc, hd]
    exact .none

/-- Behind a run that swallows the words the spots are firm, and the run begins in both texts or in
neither. -/
theorem twin_skip (hu : u ≠ [] ∧ ∀ c ∈ u, accepts c = true)
    (hv : v ≠ [] ∧ ∀ c ∈ v, accepts c = true)
    (hLast : u.getLast?.any isWord = v.getLast?.any isWord) {s t : Spot}
    (h : Twin u v rest s t) :
    Firm u v rest (s.skip accepts) (t.skip accepts) ∧
      s.rest.head?.any accepts = t.rest.head?.any accepts := by
  have hAt : ∀ before before' : Option Char,
      Firm u v rest (Spot.skip accepts ⟨before, u ++ ' ' :: rest⟩)
        (Spot.skip accepts ⟨before', v ++ ' ' :: rest⟩) := by
    intro before before'
    rw [Spot.skip_append hu.2, Spot.skip_append hv.2]
    refine .inr (Alike.skip_behind ⟨?_, ' ' :: rest, by simp, by simp⟩)
    rw [List.getLast?_eq_some_getLast hu.1, List.getLast?_eq_some_getLast hv.1] at hLast ⊢
    exact hLast
  rcases h with (hBefore | hBehind) | ⟨rfl, rfl⟩
  · obtain ⟨hWord, front, hs, ht⟩ := hBefore
    obtain ⟨before, rest'⟩ := s
    obtain ⟨before', rest''⟩ := t
    obtain rfl : rest' = _ := hs
    obtain rfl : rest'' = _ := ht
    refine ⟨?_, by cases front <;> rfl⟩
    induction front generalizing before before' with
    | nil =>
        cases hSpace : accepts ' ' with
        | true =>
            rw [List.nil_append, List.nil_append, Spot.skip_pos hSpace, Spot.skip_pos hSpace]
            exact hAt _ _
        | false =>
            rw [List.nil_append, List.nil_append, Spot.skip_neg hSpace, Spot.skip_neg hSpace]
            exact .inl ⟨hWord, [], rfl, rfl⟩
    | cons c front ih =>
        cases hc : accepts c with
        | true =>
            rw [List.cons_append, List.cons_append, Spot.skip_pos hc, Spot.skip_pos hc]
            exact ih _ _ rfl
        | false =>
            rw [List.cons_append, List.cons_append, Spot.skip_neg hc, Spot.skip_neg hc]
            exact .inl ⟨hWord, c :: front, rfl, rfl⟩
  · refine ⟨.inr hBehind.skip_behind, ?_⟩
    obtain ⟨front, hs, ht⟩ := hBehind.rest
    rw [hs, ht]
  · refine ⟨hAt _ _, ?_⟩
    obtain ⟨hu, hAll⟩ := hu
    obtain ⟨hv, hAll'⟩ := hv
    obtain ⟨c, tail, rfl⟩ := List.exists_cons_of_ne_nil hu
    obtain ⟨d, tail', rfl⟩ := List.exists_cons_of_ne_nil hv
    simp [hAll c, hAll' d]

/-- A run that swallows the words, and a pattern that cannot go on in the middle of the run. -/
theorem twin_greedy (hu : u ≠ [] ∧ ∀ c ∈ u, accepts c = true)
    (hv : v ≠ [] ∧ ∀ c ∈ v, accepts c = true)
    (hLast : u.getLast?.any isWord = v.getLast?.any isWord)
    (hg : g.HaltsWithin accepts) (hFirm : g.Carries (Firm u v rest) (Firm u v rest)) :
    ((atLeast 1 accepts).next g).Carries (Twin u v rest) (Firm u v rest) := by
  intro s t h
  obtain ⟨hSkip, hBegins⟩ := twin_skip hu hv hLast h
  rw [ends_greedy hg, ends_greedy hg, hBegins]
  split
  · exact hFirm hSkip
  · exact .nil

/-- The same at the end of a pattern, where the run goes as far as it can. -/
theorem twin_guides (hu : u ≠ [] ∧ ∀ c ∈ u, accepts c = true)
    (hv : v ≠ [] ∧ ∀ c ∈ v, accepts c = true)
    (hLast : u.getLast?.any isWord = v.getLast?.any isWord) :
    (inOrder [atLeast 0 accepts]).Guides (Twin u v rest) (Firm u v rest) := by
  intro s t h
  rw [stop?_atLeast, stop?_atLeast]
  exact .some (twin_skip hu hv hLast h).1

/-- No match begins in the word or at one of the spaces around it. -/
def Spares (p : Pattern) (word : List Char) : Prop :=
  ∀ k rest before, k <:+ ' ' :: (word ++ [' ']) → k ≠ [] → p.stop? ⟨before, k ++ rest⟩ = none

theorem spares_of_starts {first : Char → Bool} (hp : p.Starts first)
    (h : ∀ c ∈ ' ' :: u, first c = false) : p.Spares u := by
  intro k rest before hk hNonempty
  refine stop?_eq_none_iff.mpr fun t ht => ?_
  obtain ⟨m, hReach, hReads⟩ := reads_of_leads ht
  obtain ⟨c, tail, rfl, hc⟩ := hp m hReads
  obtain ⟨d, k, rfl⟩ := List.exists_cons_of_ne_nil hNonempty
  obtain ⟨rfl, -⟩ := List.cons.inj hReach.rest
  have hMem : d ∈ ' ' :: (u ++ [' ']) := hk.subset List.mem_cons_self
  have hNot : first d = false := h d (by simpa [or_comm, or_assoc] using hMem)
  rw [hc] at hNot
  cases hNot

theorem Spares.copied (h : p.Spares u) (before : Option Char) :
    p.replaceFrom replacement ⟨before, ' ' :: (u ++ ' ' :: rest)⟩ =
      ' ' :: (u ++ ' ' :: p.replaceFrom replacement ⟨some ' ', rest⟩) := by
  have hCopied := @replaceFrom_spare p replacement (' ' :: (u ++ [' '])) rest before
    fun a k hk hNonempty => h k rest _ ⟨a, hk.symm⟩ hNonempty
  have hLast : (' ' :: (u ++ [' '])).getLast?.or before = some ' ' := by
    rw [getLast?_cons_or, List.getLast?_concat]
    rfl
  rw [hLast] at hCopied
  simpa using hCopied

/-- A pattern that reads spaces, but keeps firm spots together and spares both words, leaves the
texts the same or different in the word only. -/
theorem swap_of_guides (hp : p.Consumes)
    (hGuides : ∀ rest, p.Guides (Firm u v rest) (Firm u v rest)) (hu : p.Spares u)
    (hv : p.Spares v) {text text' : List Char} (h : Swap u v text text') :
    Swap u v (p.replaceAll replacement text) (p.replaceAll replacement text') := by
  cases h with
  | same => exact .same _
  | word front rest =>
      -- Firm spots go on together until they are at the space before the word or at the end.
      have hStep : ∀ {s t : Spot}, Firm u v rest s t →
          ((s.rest = ' ' :: (u ++ ' ' :: rest) ∧ t.rest = ' ' :: (v ++ ' ' :: rest)) ∨
            (s.rest = [] ∧ t.rest = [])) ∨
          ∃ c tail tail', s.rest = c :: tail ∧ t.rest = c :: tail' ∧
            Firm u v rest ⟨some c, tail⟩ ⟨some c, tail'⟩ := by
        intro s t hst
        rcases hst with hst | hst
        · rcases hst.step with hEnd | ⟨c, tail, tail', hs, ht, hNext⟩
          · exact .inl (.inl hEnd)
          · exact .inr ⟨c, tail, tail', hs, ht, .inl hNext⟩
        · rcases hst.step with hEnd | ⟨c, tail, tail', hs, ht, hNext⟩
          · exact .inl (.inr hEnd)
          · exact .inr ⟨c, tail, tail', hs, ht, .inr hNext⟩
      obtain ⟨out, s, t, hEnd, hOut, hOut'⟩ := @Consumes.replaceFrom_until p replacement _ _ hp
        (hGuides rest) hStep ⟨none, front ++ ' ' :: (u ++ ' ' :: rest)⟩
        ⟨none, front ++ ' ' :: (v ++ ' ' :: rest)⟩ (.inl ⟨rfl, front, rfl, rfl⟩)
      obtain ⟨before, rest'⟩ := s
      obtain ⟨before', rest''⟩ := t
      rw [replaceAll, replaceAll, hOut, hOut']
      rcases hEnd with ⟨rfl, rfl⟩ | ⟨rfl, rfl⟩
      · rw [hu.copied, hv.copied]
        exact .word out _
      · rw [replaceFrom_nil, replaceFrom_nil]
        exact .same _

/-- What a pattern that cannot read a space makes of a text is told word by word. -/
theorem Consumes.replaceAll_word (hp : p.Consumes) (hBars : p.bars ' ' = true)
    (front word rest : List Char) :
    p.replaceAll replacement (front ++ ' ' :: (word ++ ' ' :: rest)) =
      p.replaceAll replacement front ++ ' ' :: (p.replaceAll replacement word ++
        ' ' :: p.replaceAll replacement rest) := by
  have hSpace : isWord ' ' = false := by decide
  rw [hp.replaceAll_append_cons hBars hSpace, hp.replaceAll_append_cons hBars hSpace]

theorem swap_of_bars (hp : p.Consumes) (hBars : p.bars ' ' = true)
    (hu : p.replaceAll replacement u = u) (hv : p.replaceAll replacement v = v)
    {text text' : List Char} (h : Swap u v text text') :
    Swap u v (p.replaceAll replacement text) (p.replaceAll replacement text') := by
  cases h with
  | same => exact .same _
  | word front rest =>
      rw [hp.replaceAll_word hBars, hp.replaceAll_word hBars, hu, hv]
      exact .word _ _

theorem replaceAll_eq_of_bars (hp : p.Consumes) (hBars : p.bars ' ' = true)
    (huv : p.replaceAll replacement u = p.replaceAll replacement v) {text text' : List Char}
    (h : Swap u v text text') :
    p.replaceAll replacement text = p.replaceAll replacement text' := by
  cases h with
  | same => rfl
  | word front rest =>
      rw [hp.replaceAll_word hBars, hp.replaceAll_word hBars, huv]

end Word
end Pattern
end Triage
