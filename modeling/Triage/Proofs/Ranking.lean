import Mathlib.Data.Int.Order.Basic
import Mathlib.Order.Lattice
import Triage.Time.Instant

/-!
# Rankings

A ranking tells distinct entries apart, so sorting by one does not depend on the order in which the
entries come (`Ranks.mergeSort_eq_of_perm`), and entries without repetitions end up strictly one
before the other (`Ranks.pairwise_ne_mergeSort`).  Where only the first entries are kept, these are
the ones with few enough entries before them (`Ranks.mem_take_iff_countP`).  Instants are ranked, and
so is what is made up of two ranked parts (`Ranks.lex`).
-/

namespace Triage

/-- A test that ranks: of two entries one comes before the other, and both only if they are the
same. -/
structure Ranks (before : κ → κ → Bool) : Prop where
  trans : ∀ a b c, before a b = true → before b c = true → before a c = true
  total : ∀ a b, (before a b || before b a) = true
  antisymm : ∀ a b, before a b = true → before b a = true → a = b

namespace Ranks

variable {before : κ → κ → Bool}

theorem before_self (h : Ranks before) (a : κ) : before a a = true := by
  simpa using h.total a a

theorem pairwise_mergeSort (h : Ranks before) (xs : List κ) :
    (xs.mergeSort before).Pairwise fun a b => before a b = true :=
  List.pairwise_mergeSort h.trans h.total xs

/-- Sorting by a ranking does not depend on the order in which the entries come. -/
theorem mergeSort_eq_of_perm (h : Ranks before) {xs ys : List κ} (hPerm : xs.Perm ys) :
    xs.mergeSort before = ys.mergeSort before := by
  have hSorted : (xs.mergeSort before).Perm (ys.mergeSort before) :=
    (List.mergeSort_perm xs before).trans (hPerm.trans (List.mergeSort_perm ys before).symm)
  exact hSorted.eq_of_pairwise (fun a b _ _ => h.antisymm a b) (h.pairwise_mergeSort xs)
    (h.pairwise_mergeSort ys)

/-- Sorted by a ranking, entries without repetitions stand strictly one before the other. -/
theorem pairwise_ne_mergeSort (h : Ranks before) {xs : List κ} (hNodup : xs.Nodup) :
    (xs.mergeSort before).Pairwise fun a b => before a b = true ∧ a ≠ b :=
  (h.pairwise_mergeSort xs).and ((List.mergeSort_perm xs before).nodup_iff.mpr hNodup)

/-- A strictly sorted list has an entry among its first ones exactly when few enough entries of the
list come before it. -/
theorem mem_take_iff_countP [BEq κ] [LawfulBEq κ] {before : κ → κ → Bool} (h : Ranks before)
    {xs : List κ} (hSorted : xs.Pairwise fun a b => before a b = true ∧ a ≠ b) {x : κ} (hMem : x ∈ xs)
    (n : Nat) : x ∈ xs.take n ↔ xs.countP (fun a => before a x && a != x) < n := by
  induction xs generalizing n with
  | nil => nomatch hMem
  | cons a rest ih =>
      obtain ⟨hFirst, hRest⟩ := List.pairwise_cons.mp hSorted
      cases n with
      | zero => simp
      | succ n =>
          by_cases hSame : x = a
          · subst hSame
            -- Nothing in the rest comes before the first entry.
            have hNone : rest.countP (fun b => before b x && b != x) = 0 := by
              rw [List.countP_eq_zero]
              intro b hb hBefore
              have hAfter := hFirst b hb
              exact hAfter.2 (h.antisymm x b hAfter.1 (Bool.and_eq_true_iff.mp hBefore).1)
            simp [hNone]
          · have hIn : x ∈ rest := (List.mem_cons.mp hMem).resolve_left hSame
            have hAhead : (before a x && a != x) = true := by
              rw [(hFirst x hIn).1, Bool.true_and, bne_iff_ne]
              exact fun h => hSame h.symm
            rw [List.take_succ_cons, List.mem_cons, or_iff_right hSame, ih hRest hIn,
              List.countP_cons_of_pos (p := fun b => before b x && b != x) hAhead,
              Nat.succ_lt_succ_iff]

/-- What comes before one of the first entries is one of the first entries. -/
theorem mem_take_of_before [BEq κ] [LawfulBEq κ] {before : κ → κ → Bool} (h : Ranks before)
    {xs : List κ} (hSorted : xs.Pairwise fun a b => before a b = true ∧ a ≠ b) {x y : κ} {n : Nat}
    (hFirst : y ∈ xs.take n) (hMem : x ∈ xs) (hBefore : before x y = true) : x ∈ xs.take n := by
  have hY := (h.mem_take_iff_countP hSorted (List.mem_of_mem_take hFirst) n).mp hFirst
  refine (h.mem_take_iff_countP hSorted hMem n).mpr (Nat.lt_of_le_of_lt ?_ hY)
  refine List.countP_mono_left fun a _ hAhead => ?_
  obtain ⟨hAX, hNe⟩ := Bool.and_eq_true_iff.mp hAhead
  rw [h.trans a x y hAX hBefore, Bool.true_and, bne_iff_ne]
  rintro rfl
  exact bne_iff_ne.mp hNe (h.antisymm _ _ hAX hBefore)

end Ranks

/-- Ranked the other way round. -/
theorem Ranks.flip {before : κ → κ → Bool} (h : Ranks before) : Ranks fun a b => before b a where
  trans a b c hab hbc := h.trans c b a hbc hab
  total a b := h.total b a
  antisymm a b hab hba := h.antisymm a b hba hab

/-- Entries ranked by one part, and those that agree in it by another, where the two parts make up
the entry. -/
theorem Ranks.lex {before : κ → κ → Bool} {firstBefore : α → α → Bool} {secondBefore : β → β → Bool}
    (hFirst : Ranks firstBefore) (hSecond : Ranks secondBefore) (first : κ → α) (second : κ → β)
    (hParts : ∀ a b, first a = first b → second a = second b → a = b)
    (hBefore : ∀ a b, before a b = true ↔
      first a ≠ first b ∧ firstBefore (first a) (first b) = true ∨
        first a = first b ∧ secondBefore (second a) (second b) = true) :
    Ranks before where
  trans a b c hab hbc := by
    rw [hBefore] at *
    rcases hab with ⟨hNe, hab⟩ | ⟨hab, hSeconds⟩ <;> rcases hbc with ⟨hNe', hbc⟩ | ⟨hbc, hSeconds'⟩
    · refine .inl ⟨fun hac => hNe ?_, hFirst.trans _ _ _ hab hbc⟩
      exact hFirst.antisymm _ _ hab (hac ▸ hbc)
    · exact .inl (hbc ▸ ⟨hNe, hab⟩)
    · exact .inl (hab ▸ ⟨hNe', hbc⟩)
    · exact .inr ⟨hab.trans hbc, hSecond.trans _ _ _ hSeconds hSeconds'⟩
  total a b := by
    rw [Bool.or_eq_true, hBefore, hBefore]
    by_cases hSame : first a = first b
    · have hSeconds := hSecond.total (second a) (second b)
      rw [Bool.or_eq_true] at hSeconds
      exact hSeconds.imp (fun h => .inr ⟨hSame, h⟩) fun h => .inr ⟨hSame.symm, h⟩
    · have hFirsts := hFirst.total (first a) (first b)
      rw [Bool.or_eq_true] at hFirsts
      exact hFirsts.imp (fun h => .inl ⟨hSame, h⟩) fun h => .inl ⟨Ne.symm hSame, h⟩
  antisymm a b hab hba := by
    rw [hBefore] at *
    rcases hab with ⟨hNe, hab⟩ | ⟨hSame, hab⟩ <;> rcases hba with ⟨hNe', hba⟩ | ⟨hSame', hba⟩
    · exact absurd (hFirst.antisymm _ _ hab hba) hNe
    · exact absurd hSame'.symm hNe
    · exact absurd hSame.symm hNe'
    · exact hParts a b hSame (hSecond.antisymm _ _ hab hba)

theorem ranks_le [LinearOrder κ] : Ranks fun a b : κ => decide (a ≤ b) where
  trans a b c hab hbc := by
    rw [decide_eq_true_eq] at *
    exact le_trans hab hbc
  total a b := by
    rw [Bool.or_eq_true, decide_eq_true_eq, decide_eq_true_eq]
    exact le_total a b
  antisymm a b hab hba := le_antisymm (of_decide_eq_true hab) (of_decide_eq_true hba)

theorem ranks_instant : Ranks fun a b : Instant => decide (a ≤ b) where
  trans a b c hab hbc := ranks_le.trans a.micros b.micros c.micros hab hbc
  total a b := ranks_le.total a.micros b.micros
  antisymm a b hab hba := congrArg Instant.mk (ranks_le.antisymm a.micros b.micros hab hba)

theorem Instant.lt_iff_ne_and_le {a b : Instant} : a < b ↔ a ≠ b ∧ a ≤ b := by
  refine ⟨fun h => ⟨?_, Int.le_of_lt h⟩, fun h => Instant.not_le.mp fun h' => h.1 ?_⟩
  · rintro rfl
    exact Int.lt_irrefl _ (h : a.micros < a.micros)
  · exact ranks_instant.antisymm _ _ (decide_eq_true h.2) (decide_eq_true h')

end Triage
