import Mathlib.Data.List.Forall2
import Triage.Proofs.Pattern.Occurrence

/-!
# Matches in two texts at once

A relation between spots of two texts is carried by a pattern if from related spots its matches stop
at related spots, one by one and in the same order (`Carries`), or if at least the preferred ones do
(`Guides`).  A relation that is carried keeps the outcomes of replacing together until the spots
come to an end of the relation (`Consumes.replaceFrom_until`).

Two texts that are the same up to some place are carried by every pattern that cannot read the
characters at that place (`carries_of_bars`).  So a character that is no word character and that a
pattern cannot read separates what the pattern does on its two sides
(`Consumes.replaceAll_append_cons`).
-/

namespace Triage

open Text (isWord)

namespace Spot

/-- Whether a word character stands before. -/
def wordBefore (s : Spot) : Bool := s.before.any isWord

theorem atWordEdge_eq (s : Spot) : s.atWordEdge = (s.wordBefore != s.rest.head?.any isWord) := by
  obtain ⟨before, rest⟩ := s
  cases before <;> cases rest <;> rfl

/-- The spots stand in texts that go on with the same characters up to the given ends. -/
structure Alike (x y : List Char) (s t : Spot) : Prop where
  word : s.wordBefore = t.wordBefore
  rest : ∃ front, s.rest = front ++ x ∧ t.rest = front ++ y

namespace Alike

variable {x y : List Char} {s t : Spot}

theorem read {accepts : Char → Bool} (h : Alike x y s t)
    (hx : ∀ c ∈ x.head?, accepts c = false) (hy : ∀ c ∈ y.head?, accepts c = false) :
    Option.Rel (Alike x y) (s.read accepts) (t.read accepts) := by
  have hStuck : ∀ {s : Spot}, (∀ c ∈ s.rest.head?, accepts c = false) → s.read accepts = none := by
    intro s hs
    unfold Spot.read
    split
    next => rfl
    next c tail hRest => simp [hs c (by simp [hRest])]
  obtain ⟨front, hs, ht⟩ := h.rest
  cases front with
  | nil =>
      rw [hStuck (by simpa [hs] using hx), hStuck (by simpa [ht] using hy)]
      exact .none
  | cons c front =>
      simp only [Spot.read, hs, ht, List.cons_append]
      split
      · exact .some ⟨rfl, front, rfl, rfl⟩
      · exact .none

theorem atWordEdge_eq (h : Alike x y s t) (hxy : x.head?.any isWord = y.head?.any isWord) :
    s.atWordEdge = t.atWordEdge := by
  obtain ⟨front, hs, ht⟩ := h.rest
  rw [Spot.atWordEdge_eq, Spot.atWordEdge_eq, h.word, hs, ht]
  cases front with
  | nil => rw [List.nil_append, List.nil_append, hxy]
  | cons c front => rfl

/-- Two spots of such texts are equally far from two other ones. -/
theorem shorter_iff {u v : Spot} (h : Alike x y s t) (h' : Alike x y u v) :
    u.rest.length < s.rest.length ↔ v.rest.length < t.rest.length := by
  obtain ⟨front, hs, ht⟩ := h.rest
  obtain ⟨front', hu, hv⟩ := h'.rest
  simp only [hs, ht, hu, hv, List.length_append]
  omega

/-- The spots are at the ends, or the same character comes next. -/
theorem step (h : Alike x y s t) :
    (s.rest = x ∧ t.rest = y) ∨ ∃ c tail tail', s.rest = c :: tail ∧ t.rest = c :: tail' ∧
      Alike x y ⟨some c, tail⟩ ⟨some c, tail'⟩ := by
  obtain ⟨front, hs, ht⟩ := h.rest
  cases front with
  | nil => exact .inl ⟨hs, ht⟩
  | cons c front => exact .inr ⟨c, front ++ x, front ++ y, hs, ht, rfl, front, rfl, rfl⟩

end Alike
end Spot

namespace Pattern

open Spot (Alike)

/-- From related spots the matches stop at related spots, in the same order. -/
def Carries (R R' : Spot → Spot → Prop) (p : Pattern) : Prop :=
  ∀ ⦃s t⦄, R s t → List.Forall₂ R' (p.ends s) (p.ends t)

/-- From related spots the preferred matches stop at related spots. -/
def Guides (R R' : Spot → Spot → Prop) (p : Pattern) : Prop :=
  ∀ ⦃s t⦄, R s t → Option.Rel R' (p.stop? s) (p.stop? t)

theorem rel_cases {α β : Type} {R : α → β → Prop} {a : Option α} {b : Option β}
    (h : Option.Rel R a b) : (a = none ∧ b = none) ∨ ∃ x y, a = some x ∧ b = some y ∧ R x y := by
  cases h with
  | none => exact .inl ⟨rfl, rfl⟩
  | some hxy => exact .inr ⟨_, _, rfl, rfl, hxy⟩

theorem forall₂_with_mem {α β : Type} {R : α → β → Prop} {l : List α} {l' : List β}
    (h : List.Forall₂ R l l') : List.Forall₂ (fun a b => R a b ∧ a ∈ l ∧ b ∈ l') l l' := by
  induction h with
  | nil => exact .nil
  | cons hab _ ih =>
      refine .cons ⟨hab, List.mem_cons_self, List.mem_cons_self⟩ (ih.imp fun a b h => ?_)
      exact ⟨h.1, List.mem_cons_of_mem _ h.2.1, List.mem_cons_of_mem _ h.2.2⟩

section Carries

variable {R S T : Spot → Spot → Prop} {p q : Pattern}

theorem Carries.mono {R' S' : Spot → Spot → Prop} (h : p.Carries R S) (hR : ∀ {s t}, R' s t → R s t)
    (hS : ∀ {s t}, S s t → S' s t) : p.Carries R' S' :=
  fun _ _ hRelated => (h (hR hRelated)).imp fun _ _ => hS

theorem carries_empty : empty.Carries R R := fun _ _ h => .cons h .nil

theorem carries_wordEdge (h : ∀ {s t}, R s t → s.atWordEdge = t.atWordEdge) :
    wordEdge.Carries R R := by
  intro s t hRelated
  simp only [ends, h hRelated]
  split
  · exact .cons hRelated .nil
  · exact .nil

/-- A run carries what reading one character carries. -/
theorem carries_run {accepts : Char → Bool}
    (h : ∀ {s t}, R s t → Option.Rel R (s.read accepts) (t.read accepts)) (least : Nat)
    (most : Option Nat) : (run accepts least most).Carries R R := by
  intro s t hRelated
  induction hLength : s.rest.length using Nat.strongRecOn generalizing s t least most with
  | ind n ih =>
      rw [ends_run, ends_run accepts least most t]
      refine List.rel_append ?_ ?_
      · split
        · exact .nil
        · rcases rel_cases (h hRelated) with ⟨hs, ht⟩ | ⟨u, v, hs, ht, huv⟩
          · rw [hs, ht]
            exact .nil
          · obtain ⟨c, hRest, -⟩ := Spot.read_eq_some.mp hs
            have hShorter : u.rest.length < n := by
              rw [← hLength, hRest, List.length_cons]
              omega
            rw [hs, ht]
            exact ih _ hShorter _ _ huv rfl
      · split
        · exact .cons hRelated .nil
        · exact .nil

theorem Carries.next (hp : p.Carries R S) (hq : q.Carries S T) : (p.next q).Carries R T :=
  fun _ _ h => List.rel_flatMap (hp h) (fun _ _ h' => hq h')

theorem Carries.orElse (hp : p.Carries R S) (hq : q.Carries R S) : (p.orElse q).Carries R S :=
  fun _ _ h => List.rel_append (hp h) (hq h)

/-- A repetition carries what its body carries, if the body makes progress in both texts or in
neither. -/
theorem Carries.many (hp : p.Carries R R)
    (hProgress : ∀ {s t}, R s t → ∀ u ∈ p.ends s, ∀ v ∈ p.ends t, R u v →
      (u.rest.length < s.rest.length ↔ v.rest.length < t.rest.length)) :
    p.many.Carries R R := by
  intro s t hRelated
  induction hLength : s.rest.length using Nat.strongRecOn generalizing s t with
  | ind n ih =>
      rw [ends_many, ends_many p t]
      refine List.rel_append ?_ (.cons hRelated .nil)
      have hSteps : List.Forall₂ (fun u v => R u v ∧ u ∈ p.ends s ∧ v ∈ p.ends t)
          ((p.ends s).filter fun u => u.rest.length < s.rest.length)
          ((p.ends t).filter fun v => v.rest.length < t.rest.length) := by
        refine List.rel_filter (fun u v h => ?_) (forall₂_with_mem (hp hRelated))
        simpa using hProgress hRelated u h.2.1 v h.2.2 h.1
      refine List.rel_flatMap (forall₂_with_mem hSteps) fun u v h => ?_
      obtain ⟨⟨huv, -, -⟩, hu, -⟩ := h
      have hShorter : u.rest.length < n := by simpa [hLength] using (List.mem_filter.mp hu).2
      exact ih _ hShorter huv rfl

theorem Carries.guides (hp : p.Carries R S) : p.Guides R S := by
  intro s t h
  have hEnds := hp h
  unfold stop?
  generalize p.ends s = found at hEnds ⊢
  generalize p.ends t = found' at hEnds ⊢
  cases hEnds with
  | nil => exact .none
  | cons huv _ => exact .some huv

end Carries

section Replacing

variable {p : Pattern} {replacement : List Char} {R End : Spot → Spot → Prop}

/-- If the preferred matches stop at related spots, and related spots are at an end or go on with
the same character to related spots, then the outcomes of replacing agree up to an end. -/
theorem Consumes.replaceFrom_until (hp : p.Consumes) (hGuides : p.Guides R R)
    (hStep : ∀ {s t}, R s t → End s t ∨ ∃ c tail tail', s.rest = c :: tail ∧ t.rest = c :: tail' ∧
      R ⟨some c, tail⟩ ⟨some c, tail'⟩) {s t : Spot} (h : R s t) :
    ∃ out s' t', End s' t' ∧ p.replaceFrom replacement s = out ++ p.replaceFrom replacement s' ∧
      p.replaceFrom replacement t = out ++ p.replaceFrom replacement t' := by
  induction hLength : s.rest.length using Nat.strongRecOn generalizing s t with
  | ind n ih =>
      rcases hStep h with hEnd | ⟨c, tail, tail', hs, ht, hNext⟩
      · exact ⟨[], s, t, hEnd, rfl, rfl⟩
      rcases rel_cases (hGuides h) with ⟨hStop, hStop'⟩ | ⟨u, v, hStop, hStop', huv⟩
      · -- The same character is copied in both texts.
        have hShorter : tail.length < n := by
          rw [← hLength, hs, List.length_cons]
          omega
        obtain ⟨out, s', t', hEnd, hOut, hOut'⟩ := ih _ hShorter hNext rfl
        obtain ⟨before, rest⟩ := s
        obtain ⟨before', rest'⟩ := t
        obtain rfl : rest = c :: tail := hs
        obtain rfl : rest' = c :: tail' := ht
        refine ⟨c :: out, s', t', hEnd, ?_, ?_⟩
        · rw [replaceFrom_cons hStop, hOut, List.cons_append]
        · rw [replaceFrom_cons hStop', hOut', List.cons_append]
      · have hShorter : u.rest.length < n := by
          rw [← hLength]
          exact hp.shorter (leads_of_stop? hStop)
        obtain ⟨out, s', t', hEnd, hOut, hOut'⟩ := ih _ hShorter huv rfl
        refine ⟨replacement ++ out, s', t', hEnd, ?_, ?_⟩
        · rw [hp.replaceFrom_stop hStop, hOut, List.append_assoc]
        · rw [hp.replaceFrom_stop hStop', hOut', List.append_assoc]

end Replacing

/-- Whether a character stands in none of the texts that the pattern can read. -/
def bars (c : Char) : Pattern → Bool
  | .empty => true
  | .wordEdge => true
  | .run accepts _ _ => !accepts c
  | .next first second => first.bars c && second.bars c
  | .orElse first second => first.bars c && second.bars c
  | .many body => body.bars c

theorem notMem_of_bars {p : Pattern} {c : Char} (hBars : p.bars c = true) {m : List Char}
    (h : p.Reads m) : c ∉ m := by
  induction p generalizing m with
  | empty =>
      obtain rfl := h
      exact List.not_mem_nil
  | wordEdge =>
      obtain rfl := h
      exact List.not_mem_nil
  | run accepts least most =>
      intro hc
      have hAccepts := h.2.2 c hc
      simp [bars, hAccepts] at hBars
  | next first second ihFirst ihSecond =>
      obtain ⟨a, b, rfl, ha, hb⟩ := h
      simp only [bars, Bool.and_eq_true] at hBars
      simp [ihFirst hBars.1 ha, ihSecond hBars.2 hb]
  | orElse first second ihFirst ihSecond =>
      simp only [bars, Bool.and_eq_true] at hBars
      rcases h with hFirst | hSecond
      · exact ihFirst hBars.1 hFirst
      · exact ihSecond hBars.2 hSecond
  | many body ih =>
      obtain ⟨parts, rfl, hParts⟩ := h
      simp only [List.mem_flatten, not_exists, not_and]
      exact fun a ha => ih hBars (hParts a ha)

/-- A pattern that can read neither of the characters at which two texts begin to differ carries
their spots up to there. -/
theorem carries_of_bars {p : Pattern} {x y : List Char} (hx : ∀ c ∈ x.head?, p.bars c = true)
    (hy : ∀ c ∈ y.head?, p.bars c = true) (hxy : x.head?.any isWord = y.head?.any isWord) :
    p.Carries (Alike x y) (Alike x y) := by
  induction p with
  | empty => exact carries_empty
  | wordEdge => exact carries_wordEdge fun h => h.atWordEdge_eq hxy
  | run accepts least most =>
      exact carries_run (fun h => h.read (fun c hc => by simpa [bars] using hx c hc)
        (fun c hc => by simpa [bars] using hy c hc)) least most
  | next first second ihFirst ihSecond =>
      simp only [bars, Bool.and_eq_true] at hx hy
      exact (ihFirst (fun c hc => (hx c hc).1) (fun c hc => (hy c hc).1)).next
        (ihSecond (fun c hc => (hx c hc).2) (fun c hc => (hy c hc).2))
  | orElse first second ihFirst ihSecond =>
      simp only [bars, Bool.and_eq_true] at hx hy
      exact (ihFirst (fun c hc => (hx c hc).1) (fun c hc => (hy c hc).1)).orElse
        (ihSecond (fun c hc => (hx c hc).2) (fun c hc => (hy c hc).2))
  | many body ih => exact (ih hx hy).many fun h _ _ _ _ h' => h.shorter_iff h'

section Separating

variable {p : Pattern} {replacement : List Char}

/-- What is replaced behind a spot depends on what comes after it, and on whether a word character
stands before it. -/
theorem Consumes.replaceFrom_congr (hp : p.Consumes) {s t : Spot} (hRest : s.rest = t.rest)
    (hWord : s.wordBefore = t.wordBefore) :
    p.replaceFrom replacement s = p.replaceFrom replacement t := by
  have hGuides : p.Guides (Alike [] []) (Alike [] []) :=
    (carries_of_bars (by simp) (by simp) rfl).guides
  obtain ⟨out, s', t', hEnd, hOut, hOut'⟩ := @Consumes.replaceFrom_until p replacement _ _ hp
    hGuides Alike.step s t ⟨hWord, t.rest, by simpa using hRest, by simp⟩
  obtain ⟨before, rest⟩ := s'
  obtain ⟨before', rest'⟩ := t'
  obtain ⟨rfl, rfl⟩ := hEnd
  rw [hOut, hOut', replaceFrom_nil, replaceFrom_nil]

/-- A character that the pattern cannot read, and that is no word character, separates what comes
before it from what comes after it. -/
theorem Consumes.replaceAll_append_cons (hp : p.Consumes) {c : Char} (hBars : p.bars c = true)
    (hWord : isWord c = false) (front rest : List Char) :
    p.replaceAll replacement (front ++ c :: rest) =
      p.replaceAll replacement front ++ c :: p.replaceAll replacement rest := by
  have hGuides : p.Guides (Alike (c :: rest) []) (Alike (c :: rest) []) :=
    (carries_of_bars (by simpa using hBars) (by simp) (by simp [hWord])).guides
  obtain ⟨out, s, t, hEnd, hOut, hOut'⟩ := @Consumes.replaceFrom_until p replacement _ _ hp
    hGuides Alike.step ⟨none, front ++ c :: rest⟩ ⟨none, front⟩ ⟨rfl, front, rfl, by simp⟩
  obtain ⟨before, rest'⟩ := s
  obtain ⟨before', rest''⟩ := t
  obtain ⟨rfl, rfl⟩ := hEnd
  -- No match begins at the character itself.
  have hStop : p.stop? ⟨before, c :: rest⟩ = none := by
    refine stop?_eq_none_iff.mpr fun t ht => ?_
    obtain ⟨m, hReach, hReads⟩ := reads_of_leads ht
    cases m with
    | nil => exact hp hReads
    | cons d m =>
        obtain ⟨rfl, -⟩ := List.cons.inj hReach.rest
        exact notMem_of_bars hBars hReads List.mem_cons_self
  have hRest : p.replaceFrom replacement ⟨some c, rest⟩ = p.replaceAll replacement rest :=
    hp.replaceFrom_congr rfl (by simp [Spot.wordBefore, hWord])
  rw [replaceFrom_nil, List.append_nil] at hOut'
  rw [replaceAll, hOut, replaceAll, hOut', replaceFrom_cons hStop, hRest]

/-- The pieces between such characters are replaced one by one. -/
theorem Consumes.replaceAll_intercalate (hp : p.Consumes) {c : Char} (hBars : p.bars c = true)
    (hWord : isWord c = false) (pieces : List (List Char)) :
    p.replaceAll replacement ([c].intercalate pieces) =
      [c].intercalate (pieces.map (p.replaceAll replacement)) := by
  induction pieces with
  | nil => exact replaceFrom_nil none
  | cons piece pieces ih =>
      cases pieces with
      | nil => simp
      | cons next pieces =>
          rw [List.intercalate_cons_cons, List.append_assoc, List.singleton_append,
            hp.replaceAll_append_cons hBars hWord, ih]
          simp [List.intercalate_cons_cons]

end Separating

end Pattern
end Triage
