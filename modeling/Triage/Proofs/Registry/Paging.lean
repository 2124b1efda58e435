import Mathlib.Data.List.Nodup
import Mathlib.Data.Nat.Find
import Triage.Proofs.Ranking
import Triage.Registry.Tables

/-!
# Paging

A listing is sorted and then cut into pages.  Newest first, rows with distinct identifiers stand
strictly one after the other, and it does not matter in which order they are stored
(`pairwise_newestFirst`, `newestFirst_eq_of_perm`).  Pages of one size, from the first one up to the
first empty one, make up the whole listing (`EndsAfter.flatMap_page`), and there is a first empty
one (`exists_endsAfter_page`).
-/

namespace Triage

namespace Registry

theorem page_sublist (offset limit : Int) (rows : List α) :
    (page offset limit rows).Sublist rows := by
  unfold page
  split
  · exact List.drop_sublist _ _
  · exact (List.take_sublist _ _).trans (List.drop_sublist _ _)

theorem page_map (offset limit : Int) (f : α → β) (rows : List α) :
    page offset limit (rows.map f) = (page offset limit rows).map f := by
  unfold page
  split
  · rw [List.map_drop]
  · rw [List.map_take, List.map_drop]

end Registry

/-! ## The order of a listing -/

section Order

variable (time : α → Instant) (id : α → Int)

/-- One row comes strictly before another one when the newest come first: it is newer, or as new
with the larger identifier. -/
def ComesBefore (a b : α) : Prop := time b < time a ∨ time a = time b ∧ id b < id a

instance : DecidableRel (ComesBefore time id) := fun a b =>
  inferInstanceAs (Decidable (time b < time a ∨ time a = time b ∧ id b < id a))

/-- What the order of a listing is read from. -/
def stampOf (a : α) : Instant × Int := (time a, id a)

variable {time id}

theorem ComesBefore.asymm {a b : α} (h : ComesBefore time id a b) : ¬ComesBefore time id b a := by
  rintro (hLt | ⟨hSame, hLt⟩) <;> rcases h with hLt' | ⟨hSame', hLt'⟩
  · exact Int.lt_asymm hLt hLt'
  · exact Int.lt_irrefl _ (hSame' ▸ hLt)
  · exact Int.lt_irrefl _ (hSame ▸ hLt')
  · exact Int.lt_asymm hLt hLt'

theorem ranks_newest : Ranks fun a b : Instant × Int =>
    decide (b.1 < a.1) || (decide (a.1 = b.1) && decide (b.2 ≤ a.2)) := by
  refine ranks_instant.flip.lex ranks_le.flip Prod.fst Prod.snd (fun a b => Prod.ext) fun a b => ?_
  simp [Instant.lt_iff_ne_and_le, ne_comm]

variable (time id) in
/-- The order of a listing is read from the stamps. -/
theorem newestFirst_map_stampOf (rows : List α) :
    (newestFirst time id rows).map (stampOf time id) =
      newestFirst Prod.fst Prod.snd (rows.map (stampOf time id)) :=
  List.map_mergeSort fun _ _ _ _ => rfl

variable (time id) in
theorem newestFirst_perm (rows : List α) : (newestFirst time id rows).Perm rows :=
  List.mergeSort_perm _ _

/-- Newest first, rows with distinct identifiers stand strictly one after the other. -/
theorem pairwise_newestFirst {rows : List α} (hIds : (rows.map id).Nodup) :
    (newestFirst time id rows).Pairwise (ComesBefore time id) := by
  have hStamps : (rows.map (stampOf time id)).Nodup := by
    refine List.Nodup.of_map Prod.snd ?_
    rwa [List.map_map]
  have hSorted := ranks_newest.pairwise_ne_mergeSort hStamps
  rw [show List.mergeSort _ _ = newestFirst Prod.fst Prod.snd (rows.map (stampOf time id)) from rfl,
    ← newestFirst_map_stampOf, List.pairwise_map] at hSorted
  refine hSorted.imp fun {a b} ⟨hBefore, hNe⟩ => ?_
  rw [Bool.or_eq_true, Bool.and_eq_true] at hBefore
  rcases hBefore with hNewer | ⟨hSame, hLe⟩
  · exact .inl (of_decide_eq_true hNewer)
  · have hTime : time a = time b := of_decide_eq_true hSame
    have hNot : id b ≠ id a := fun hId => hNe (Prod.ext hTime hId.symm)
    exact .inr ⟨hTime, lt_of_le_of_ne (of_decide_eq_true hLe) hNot⟩

/-- A listing does not depend on the order in which its rows are stored. -/
theorem newestFirst_eq_of_perm {rows rows' : List α} (hIds : (rows.map id).Nodup)
    (hPerm : rows.Perm rows') : newestFirst time id rows = newestFirst time id rows' := by
  have hIds' : (rows'.map id).Nodup := (hPerm.map id).nodup_iff.mp hIds
  have hSame : (newestFirst time id rows).Perm (newestFirst time id rows') :=
    (newestFirst_perm time id rows).trans (hPerm.trans (newestFirst_perm time id rows').symm)
  exact hSame.eq_of_pairwise (fun a b _ _ hab hba => absurd hba hab.asymm)
    (pairwise_newestFirst hIds) (pairwise_newestFirst hIds')

end Order

/-! ## Page after page -/

/-- Page after page there is something on it, up to the one with this number. -/
structure EndsAfter (pages : Nat → List α) (n : Nat) : Prop where
  filled : ∀ k < n, pages k ≠ []
  empty : pages n = []

/-- The page with a number, counted from 0, of pages of one size. -/
theorem page_mul (size k : Nat) (rows : List α) :
    page ((k : Int) * size) size rows = (rows.drop (k * size)).take size := by
  have hOffset : ((k : Int) * size).toNat = k * size := by
    rw [← Int.natCast_mul, Int.toNat_natCast]
  rw [page, hOffset, if_neg (Int.not_lt.mpr (Int.natCast_nonneg size)), Int.toNat_natCast]

/-- The first pages of one size hold the first rows. -/
theorem flatMap_page (size n : Nat) (rows : List α) :
    ((List.range n).flatMap fun k : Nat => page ((k : Int) * size) size rows) =
      rows.take (n * size) := by
  induction n with
  | zero => simp
  | succ n ih =>
      rw [List.range_succ, List.flatMap_append, ih, List.flatMap_singleton, page_mul, Nat.succ_mul,
        List.take_add]

section Pages

variable {size : Nat} (hSize : 0 < size) (rows : List α)

include hSize

/-- A page is empty exactly if the pages before it hold all rows. -/
theorem page_eq_nil_iff (k : Nat) :
    page ((k : Int) * size) size rows = [] ↔ rows.length ≤ k * size := by
  rw [page_mul, List.take_eq_nil_iff, List.drop_eq_nil_iff]
  omega

/-- Pages of one size come to an end. -/
theorem exists_endsAfter_page :
    ∃ n, EndsAfter (fun k : Nat => page ((k : Int) * size) size rows) n := by
  have hEnd : ∃ k, rows.length ≤ k * size := ⟨rows.length, Nat.le_mul_of_pos_right _ hSize⟩
  classical
  refine ⟨Nat.find hEnd, fun k hk hEmpty => ?_,
    (page_eq_nil_iff hSize rows _).mpr (Nat.find_spec hEnd)⟩
  exact Nat.find_min hEnd hk ((page_eq_nil_iff hSize rows k).mp hEmpty)

/-- Up to the first empty one, the pages make up the whole list. -/
theorem EndsAfter.flatMap_page {n : Nat}
    (h : EndsAfter (fun k : Nat => page ((k : Int) * size) size rows) n) :
    ((List.range n).flatMap fun k : Nat => page ((k : Int) * size) size rows) = rows := by
  rw [Triage.flatMap_page, List.take_of_length_le]
  exact (page_eq_nil_iff hSize rows n).mp h.empty

end Pages

end Triage
