import Mathlib.Logic.Relation
import Triage.Proofs.Pattern.Ends

/-!
# What patterns read

`Pattern.Leads` says what a match is: from which spot to which one a pattern can read.  The ends of
the search are exactly the spots a pattern leads to (`mem_ends`).  `Pattern.Reads` says which texts
a pattern can read, wherever they stand: it looks at the characters of a match and not at what
stands around it, so a word edge reads nothing.  Everything between a spot and an end of a match is
such a text (`reads_of_mem_ends`).  A relation between texts that is kept when a character is put in
front, and when a text that is read gives way to the replacement, holds between the outcome of
replacing and the text (`replaceAll_related`).
-/

namespace Triage

theorem getLast?_cons_or (c : Char) (m : List Char) (before : Option Char) :
    (c :: m).getLast?.or before = m.getLast?.or (some c) := by
  rw [List.getLast?_cons]
  cases m.getLast? <;> rfl

/-- One spot lies a piece of text behind another one. -/
structure Spot.Reaches (s : Spot) (piece : List Char) (t : Spot) : Prop where
  rest : s.rest = piece ++ t.rest
  before : t.before = piece.getLast?.or s.before

namespace Spot.Reaches

theorem refl (s : Spot) : s.Reaches [] s := ⟨rfl, rfl⟩

theorem trans {s t u : Spot} {m n : List Char} (h : s.Reaches m t) (h' : t.Reaches n u) :
    s.Reaches (m ++ n) u where
  rest := by rw [h.rest, h'.rest, List.append_assoc]
  before := by rw [h'.before, h.before, List.getLast?_append, Option.or_assoc]

theorem eq_of_nil {s t : Spot} (h : s.Reaches [] t) : t = s := by
  obtain ⟨before, rest⟩ := s
  obtain ⟨hRest, hBefore⟩ := h
  obtain ⟨before', rest'⟩ := t
  cases hRest
  cases hBefore
  rfl

theorem cons {c : Char} {tail piece : List Char} {before : Option Char} {t : Spot}
    (h : Reaches ⟨some c, tail⟩ piece t) : Reaches ⟨before, c :: tail⟩ (c :: piece) t :=
  trans (m := [c]) ⟨rfl, rfl⟩ h

theorem of_cons {c : Char} {piece : List Char} {s t : Spot} (h : s.Reaches (c :: piece) t) :
    Reaches ⟨some c, piece ++ t.rest⟩ piece t where
  rest := rfl
  before := by rw [h.before, getLast?_cons_or]

end Spot.Reaches

namespace Pattern

/-- From which spot to which one a pattern can read. -/
def Leads : Pattern → Spot → Spot → Prop
  | .empty, s, t => t = s
  | .wordEdge, s, t => t = s ∧ s.atWordEdge = true
  | .run accepts least most, s, t =>
    ∃ m, s.Reaches m t ∧ least ≤ m.length ∧ (∀ k ∈ most, m.length ≤ k) ∧ ∀ c ∈ m, accepts c = true
  | .next first second, s, t => ∃ u, first.Leads s u ∧ second.Leads u t
  | .orElse first second, s, t => first.Leads s t ∨ second.Leads s t
  | .many body, s, t => Relation.ReflTransGen body.Leads s t

/-- The texts that a pattern can read. -/
def Reads : Pattern → List Char → Prop
  | .empty, m => m = []
  | .wordEdge, m => m = []
  | .run accepts least most, m =>
    least ≤ m.length ∧ (∀ k ∈ most, m.length ≤ k) ∧ ∀ c ∈ m, accepts c = true
  | .next first second, m => ∃ a b, m = a ++ b ∧ first.Reads a ∧ second.Reads b
  | .orElse first second, m => first.Reads m ∨ second.Reads m
  | .many body, m => ∃ parts : List (List Char), m = parts.flatten ∧ ∀ a ∈ parts, body.Reads a

theorem reads_exactly {accepts : Char → Bool} {m : List Char} (h : ∀ c ∈ m, accepts c = true) :
    (exactly m.length accepts).Reads m :=
  ⟨Nat.le_refl _, fun k hk => Nat.le_of_eq (by simpa using hk), h⟩

theorem reads_one {accepts : Char → Bool} {c : Char} (h : accepts c = true) :
    (one accepts).Reads [c] :=
  @reads_exactly accepts [c] (by simpa using h)

theorem reads_char (c : Char) : (char c).Reads [c] := reads_one (decide_eq_true rfl)

/-- Between a spot and one it leads to stands a text that the pattern can read. -/
theorem reads_of_leads {p : Pattern} {s t : Spot} (h : p.Leads s t) :
    ∃ m, s.Reaches m t ∧ p.Reads m := by
  induction p generalizing s t with
  | empty =>
      obtain rfl := h
      exact ⟨[], .refl _, rfl⟩
  | wordEdge =>
      obtain ⟨rfl, -⟩ := h
      exact ⟨[], .refl _, rfl⟩
  | run accepts least most =>
      obtain ⟨m, hReach, hReads⟩ := h
      exact ⟨m, hReach, hReads⟩
  | next first second ihFirst ihSecond =>
      obtain ⟨u, hu, ht⟩ := h
      obtain ⟨a, hFirst, ha⟩ := ihFirst hu
      obtain ⟨b, hSecond, hb⟩ := ihSecond ht
      exact ⟨a ++ b, hFirst.trans hSecond, a, b, rfl, ha, hb⟩
  | orElse first second ihFirst ihSecond =>
      rcases h with hFirst | hSecond
      · obtain ⟨m, hReach, hm⟩ := ihFirst hFirst
        exact ⟨m, hReach, .inl hm⟩
      · obtain ⟨m, hReach, hm⟩ := ihSecond hSecond
        exact ⟨m, hReach, .inr hm⟩
  | many body ih =>
      induction h using Relation.ReflTransGen.head_induction_on with
      | refl => exact ⟨[], .refl _, [], rfl, by simp⟩
      | head hStep _ ihRest =>
          obtain ⟨a, hFirst, ha⟩ := ih hStep
          obtain ⟨_, hRest, parts, rfl, hParts⟩ := ihRest
          exact ⟨a ++ parts.flatten, hFirst.trans hRest, a :: parts, rfl,
            List.forall_mem_cons.mpr ⟨ha, hParts⟩⟩

theorem mem_ends_run {accepts : Char → Bool} {least : Nat} {most : Option Nat} {s t : Spot} :
    t ∈ (run accepts least most).ends s ↔ (run accepts least most).Leads s t := by
  obtain ⟨before, rest⟩ := s
  induction rest generalizing before least most with
  | nil =>
      rw [ends_run]
      simp only [Spot.read, Option.elim_none, ite_self, List.nil_append]
      constructor
      · intro h
        split at h
        next hLeast =>
          obtain rfl := List.mem_singleton.mp h
          exact ⟨[], .refl _, by omega, by simp, by simp⟩
        next => cases h
      · rintro ⟨m, hReach, hLeast, -, -⟩
        obtain rfl : m = [] := (List.append_eq_nil_iff.mp hReach.rest.symm).1
        have hNone : least = 0 := Nat.le_zero.mp hLeast
        rw [if_pos hNone, hReach.eq_of_nil]
        exact List.mem_singleton_self _
  | cons c tail ih =>
      rw [ends_run, List.mem_append]
      constructor
      · rintro (hMore | hHere)
        · split at hMore
          next => cases hMore
          next hMost =>
            simp only [Spot.read] at hMore
            split at hMore
            next hAccepts =>
              obtain ⟨m, hReach, hLeast, hLess, hAll⟩ := (ih _).mp hMore
              refine ⟨c :: m, hReach.cons, ?_, fun k hk => ?_,
                List.forall_mem_cons.mpr ⟨hAccepts, hAll⟩⟩
              · rw [List.length_cons]
                omega
              · obtain rfl := Option.mem_def.mp hk
                have hLength := hLess (k - 1) rfl
                rw [List.length_cons]
                have hPositive : k ≠ 0 := fun hZero => hMost (by rw [hZero])
                omega
            next => cases hMore
        · split at hHere
          next hLeast =>
            obtain rfl := List.mem_singleton.mp hHere
            exact ⟨[], .refl _, by omega, by simp, by simp⟩
          next => cases hHere
      · rintro ⟨m, hReach, hLeast, hMost, hAll⟩
        cases m with
        | nil =>
            have hNone : least = 0 := Nat.le_zero.mp hLeast
            rw [if_pos hNone, hReach.eq_of_nil]
            exact .inr (List.mem_singleton_self _)
        | cons d m =>
            rw [List.forall_mem_cons] at hAll
            obtain ⟨rfl, rfl⟩ := List.cons.inj hReach.rest
            left
            have hSome : most ≠ some 0 := by
              rintro rfl
              exact absurd (hMost 0 rfl) (by simp)
            simp only [if_neg hSome, Spot.read, if_pos hAll.1, Option.elim_some]
            refine (ih _).mpr ⟨m, hReach.of_cons, ?_, fun k hk => ?_, hAll.2⟩
            · rw [List.length_cons] at hLeast
              omega
            · rw [Option.mem_def, Option.map_eq_some_iff] at hk
              obtain ⟨j, rfl, rfl⟩ := hk
              have hLength := hMost j rfl
              rw [List.length_cons] at hLength
              omega

theorem mem_ends_many {body : Pattern} (hBody : ∀ s t, t ∈ body.ends s ↔ body.Leads s t)
    {s t : Spot} : t ∈ body.many.ends s ↔ body.many.Leads s t := by
  constructor
  · intro h
    induction hLength : s.rest.length using Nat.strongRecOn generalizing s with
    | ind n ih =>
        rw [ends_many, List.mem_append, List.mem_flatMap] at h
        rcases h with ⟨u, hu, hRest⟩ | hHere
        · obtain ⟨hStep, hShorter⟩ := List.mem_filter.mp hu
          have hLater := ih _ (by simpa [hLength] using hShorter) hRest rfl
          exact .head ((hBody s u).mp hStep) hLater
        · obtain rfl := List.mem_singleton.mp hHere
          exact .refl
  · intro h
    induction h using Relation.ReflTransGen.head_induction_on with
    | refl =>
        rw [ends_many]
        exact List.mem_append_right _ (List.mem_singleton_self _)
    | @head s u hStep _ ih =>
        obtain ⟨m, hReach, -⟩ := reads_of_leads hStep
        cases m with
        | nil => rwa [hReach.eq_of_nil] at ih
        | cons c m =>
            have hShorter : u.rest.length < s.rest.length := by
              rw [hReach.rest, List.length_append, List.length_cons]
              omega
            rw [ends_many]
            exact List.mem_append_left _ (List.mem_flatMap.mpr
              ⟨u, List.mem_filter.mpr ⟨(hBody s u).mpr hStep, by simpa using hShorter⟩, ih⟩)

/-- The search finds the spots that the pattern leads to, and no others. -/
theorem mem_ends {p : Pattern} {s t : Spot} : t ∈ p.ends s ↔ p.Leads s t := by
  induction p generalizing s t with
  | empty => exact List.mem_singleton
  | wordEdge =>
      unfold ends Leads
      split <;> simp [*]
  | run accepts least most => exact mem_ends_run
  | next first second ihFirst ihSecond =>
      simp only [ends, Leads, List.mem_flatMap, ihFirst, ihSecond]
  | orElse first second ihFirst ihSecond =>
      simp only [ends, Leads, List.mem_append, ihFirst, ihSecond]
  | many body ih => exact mem_ends_many fun _ _ => ih

/-- Up to an end of a match stands a text that the pattern can read. -/
theorem reads_of_mem_ends {p : Pattern} {s t : Spot} (h : t ∈ p.ends s) :
    ∃ m, s.Reaches m t ∧ p.Reads m := reads_of_leads (mem_ends.mp h)

section Related

variable {p : Pattern} {replacement : List Char} {R : List Char → List Char → Prop}

theorem replaceFrom_related (hNil : R [] [])
    (hKeep : ∀ (c : Char) {u v : List Char}, R u v → R (c :: u) (c :: v))
    (hRead : ∀ {m u v : List Char}, p.Reads m → m ≠ [] → R u v → R (replacement ++ u) (m ++ v))
    (s : Spot) : R (p.replaceFrom replacement s) s.rest := by
  fun_induction replaceFrom p replacement s with
  | case1 s hRest =>
      rw [hRest]
      exact hNil
  | case2 s c tail hRest t hStop hShorter ih =>
      obtain ⟨m, ⟨hm, -⟩, hReads⟩ := reads_of_mem_ends (List.mem_of_mem_head? hStop)
      rw [hm]
      refine hRead hReads ?_ ih
      rintro rfl
      rw [hm] at hShorter
      exact Nat.lt_irrefl _ hShorter
  | case3 s c tail hRest t hStop hLong ih =>
      rw [hRest]
      exact hKeep c ih
  | case4 s c tail hRest hStop ih =>
      rw [hRest]
      exact hKeep c ih

/-- What holds between the outcome of replacing and the text. -/
theorem replaceAll_related (hNil : R [] [])
    (hKeep : ∀ (c : Char) {u v : List Char}, R u v → R (c :: u) (c :: v))
    (hRead : ∀ {m u v : List Char}, p.Reads m → m ≠ [] → R u v → R (replacement ++ u) (m ++ v))
    (text : List Char) : R (p.replaceAll replacement text) text :=
  replaceFrom_related hNil hKeep hRead ⟨none, text⟩

end Related

/-- A single character is read. -/
theorem Reads.of_one {accepts : Char → Bool} {m : List Char} (h : (one accepts).Reads m) :
    ∃ c, m = [c] ∧ accepts c = true := by
  obtain ⟨hLeast, hMost, hAll⟩ := h
  obtain ⟨c, rfl⟩ := List.length_eq_one_iff.mp (Nat.le_antisymm (hMost 1 rfl) hLeast)
  exact ⟨c, rfl, hAll c List.mem_cons_self⟩

/-- A fixed text reads itself only. -/
theorem Reads.of_text {s : String} {m : List Char} (h : (text s).Reads m) : m = s.toList := by
  unfold text at h
  generalize s.toList = characters at h ⊢
  induction characters generalizing m with
  | nil => exact h
  | cons c rest ih =>
      obtain ⟨a, b, rfl, ha, hb⟩ := h
      obtain ⟨d, rfl, hd⟩ := ha.of_one
      rw [ih hb, of_decide_eq_true hd]
      rfl

/-- Every text that a pattern can read has a character of a class. -/
def Needs (isIn : Char → Bool) (p : Pattern) : Prop :=
  ∀ m, p.Reads m → ∃ c ∈ m, isIn c = true

section Needs

variable {isIn : Char → Bool}

theorem needs_run {accepts : Char → Bool} {least : Nat} {most : Option Nat} (hLeast : 0 < least)
    (hIn : ∀ c, accepts c = true → isIn c = true) : (run accepts least most).Needs isIn := by
  rintro m ⟨hLength, -, hAll⟩
  cases m with
  | nil => exact absurd hLength (Nat.not_le_of_gt hLeast)
  | cons c rest =>
      exact ⟨c, List.mem_cons_self, hIn c (hAll c List.mem_cons_self)⟩

theorem needs_char (c : Char) (hIn : isIn c = true) : (char c).Needs isIn :=
  needs_run Nat.one_pos fun d hd => by
    obtain rfl := of_decide_eq_true hd
    exact hIn

/-- Patterns in order need what one of them needs. -/
theorem needs_inOrder {parts : List Pattern} {part : Pattern} (hPart : part.Needs isIn)
    (hMem : part ∈ parts) : (inOrder parts).Needs isIn := by
  induction parts with
  | nil => cases hMem
  | cons first rest ih =>
      rintro m ⟨a, b, rfl, ha, hb⟩
      rcases List.mem_cons.mp hMem with rfl | hRest
      · obtain ⟨c, hc, hIn⟩ := hPart a ha
        exact ⟨c, List.mem_append_left b hc, hIn⟩
      · obtain ⟨c, hc, hIn⟩ := ih hRest b hb
        exact ⟨c, List.mem_append_right a hc, hIn⟩

end Needs

end Pattern
end Triage
