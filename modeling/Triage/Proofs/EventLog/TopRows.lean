import Mathlib.Algebra.Order.BigOperators.Group.List
import Mathlib.Algebra.Order.Group.Nat
import Triage.Proofs.EventLog.Tally

/-!
# What is kept of long answers about tags

Both answers about the tags of an issue are cut off.  The totals go by keys, and those of the most
used keys are kept (`mem_tagTotals`).  The values go by tags: of one key the most frequent values are
kept, and of what is then left again the most frequent tags (`valueShares_eq`, `mem_topRows_of_ahead`).
So the values that are kept of a key are the most frequent ones, and they are few
(`length_topRows_le`); together they are counted at most as often as the key is used
(`sum_topRows_le`).
-/

namespace Triage.EventLog

/-- How often a key is used by some tags. -/
def uses (tags : List Tag) (key : String) : Nat := (tags.map Tag.key).count key

/-- The number of keys that are ahead of a key: used more often, or as often and before it among
texts. -/
def keysAhead (tags : List Tag) (key : String) : Nat :=
  (tags.map Tag.key).eraseDups.countP fun other =>
    decide (uses tags key < uses tags other) ||
      (uses tags other == uses tags key && decide (other < key))

/-- Whether a counted tag is ahead of another one with the same key. -/
def isAhead (a b : Tag × Nat) : Bool :=
  a.1.key == b.1.key
    && (decide (b.2 < a.2) || (a.2 == b.2 && decide (a.1.value < b.1.value)))

/-- The counted tags of an answer about values. -/
def topRows (tags : List Tag) : List (Tag × Nat) :=
  let counts := mostFrequent tagBefore (tally tags)
  (counts.filter fun row => counts.countP (isAhead · row) < topValues).take maxTagRows

/-- Where keys are ranked, the counted keys of a tally stand strictly one before the other. -/
theorem pairwise_mostFrequent_tally [BEq κ] [LawfulBEq κ] {before : κ → κ → Bool}
    (h : Ranks before) (keys : List κ) :
    (mostFrequent before (tally keys)).Pairwise fun a b => countBefore before a b = true ∧ a ≠ b :=
  h.countBefore.pairwise_ne_mergeSort (nodup_tally keys)

theorem mem_mostFrequent_tally [BEq κ] [LawfulBEq κ] {before : κ → κ → Bool} {keys : List κ}
    {row : κ × Nat} :
    row ∈ mostFrequent before (tally keys) ↔ row.1 ∈ keys ∧ row.2 = keys.count row.1 :=
  (List.mergeSort_perm _ _).mem_iff.trans mem_tally

/-! ## Totals -/

theorem count_map_key (tags : List Tag) (key : String) :
    (tags.map Tag.key).count key = uses tags key := rfl

theorem keysAhead_eq (tags : List Tag) (key : String) :
    keysAhead tags key =
      (mostFrequent textBefore (tally (tags.map Tag.key))).countP fun row =>
        countBefore textBefore row (key, uses tags key) && row != (key, uses tags key) := by
  rw [mostFrequent, (List.mergeSort_perm _ _).countP_eq, tally, List.countP_map, keysAhead]
  refine List.countP_congr fun other _ => ?_
  simp only [Function.comp_apply, countBefore, Bool.or_eq_true, Bool.and_eq_true, decide_eq_true_eq,
    beq_iff_eq, bne_iff_ne, ne_eq, Prod.mk.injEq, lt_iff_textBefore, count_map_key]
  constructor
  · rintro (hMore | ⟨hSame, hNe, hBefore⟩)
    · exact ⟨.inl hMore, fun h => Nat.ne_of_gt hMore h.2⟩
    · exact ⟨.inr ⟨hSame, hBefore⟩, fun h => hNe h.1⟩
  · rintro ⟨hMore | ⟨hSame, hBefore⟩, hNe⟩
    · exact .inl hMore
    · exact .inr ⟨hSame, fun h => hNe ⟨h, hSame⟩, hBefore⟩

/-- The totals are those of the keys with few enough keys ahead of them. -/
theorem mem_tagTotals {log : EventLog} {c : IssueCriteria} {t : TagCount} :
    t ∈ log.tagTotals c ↔
      t.key ∈ (tagsOf (log.ofIssue c)).map Tag.key ∧
        t.count = uses (tagsOf (log.ofIssue c)) t.key ∧
        keysAhead (tagsOf (log.ofIssue c)) t.key < maxTagRows := by
  let tags := tagsOf (log.ofIssue c)
  let rows := mostFrequent textBefore (tally (tags.map Tag.key))
  have hTotals : log.tagTotals c = (rows.take maxTagRows).map fun row => ⟨row.1, row.2⟩ := by
    rw [List.map_take]
    rfl
  have hSorted := pairwise_mostFrequent_tally ranks_textBefore (tags.map Tag.key)
  have hAhead : ∀ row : String × Nat, row ∈ rows →
      (row ∈ rows.take maxTagRows ↔ keysAhead tags row.1 < maxTagRows) := by
    rintro ⟨key, count⟩ hRow
    obtain rfl : count = uses tags key := (mem_mostFrequent_tally.mp hRow).2
    rw [keysAhead_eq]
    exact ranks_textBefore.countBefore.mem_take_iff_countP hSorted hRow _
  rw [hTotals, List.mem_map]
  constructor
  · rintro ⟨row, hTake, rfl⟩
    have hRow : row ∈ rows := List.mem_of_mem_take hTake
    obtain ⟨hUsed, hCount⟩ := mem_mostFrequent_tally.mp hRow
    exact ⟨hUsed, hCount, (hAhead row hRow).mp hTake⟩
  · rintro ⟨hUsed, hCount, hFew⟩
    have hRow : (t.key, t.count) ∈ rows := mem_mostFrequent_tally.mpr ⟨hUsed, hCount⟩
    exact ⟨(t.key, t.count), (hAhead _ hRow).mpr hFew, rfl⟩

/-! ## Values -/

theorem valueShares_eq (log : EventLog) (c : IssueCriteria) :
    log.valueShares c = (topRows (tagsOf (log.ofIssue c))).map fun row =>
      let times := ((log.ofIssue c).filter fun e => e.tags.any fun t => t.tag = row.1).map
        StoredEvent.createdAt
      ⟨row.1.key, row.1.value, row.2, earliest (times.headD ⟨0⟩) times,
        latest (times.headD ⟨0⟩) times, 0⟩ := rfl

/-- Ahead are the tags with the same key that come first. -/
theorem isAhead_iff {a b : Tag × Nat} :
    isAhead a b = true ↔ a.1.key = b.1.key ∧ countBefore tagBefore a b = true ∧ a ≠ b := by
  obtain ⟨⟨key, value⟩, m⟩ := a
  obtain ⟨⟨key', value'⟩, n⟩ := b
  simp only [isAhead, countBefore, tagBefore, Bool.and_eq_true, Bool.or_eq_true, decide_eq_true_eq,
    beq_iff_eq, ne_eq, Prod.mk.injEq, Tag.mk.injEq]
  refine and_congr_right ?_
  rintro rfl
  simp only [String.lt_irrefl, false_or, true_and, lt_iff_textBefore]
  constructor
  · rintro (hMore | ⟨hSame, hNe, hBefore⟩)
    · exact ⟨.inl hMore, fun h => Nat.ne_of_gt hMore h.2⟩
    · exact ⟨.inr ⟨hSame, hBefore⟩, fun h => hNe h.1⟩
  · rintro ⟨hMore | ⟨hSame, hBefore⟩, hNe⟩
    · exact .inl hMore
    · exact .inr ⟨hSame, fun h => hNe ⟨h, hSame⟩, hBefore⟩

variable {tags : List Tag} {row : Tag × Nat}

theorem topRows_sublist (tags : List Tag) :
    (topRows tags).Sublist (mostFrequent tagBefore (tally tags)) :=
  (List.take_sublist _ _).trans List.filter_sublist

theorem of_mem_topRows (h : row ∈ topRows tags) : row.1 ∈ tags ∧ row.2 = tags.count row.1 :=
  mem_mostFrequent_tally.mp ((topRows_sublist tags).subset h)

/-- Where a tag is kept, so is every tag that is ahead of it. -/
theorem mem_topRows_of_ahead {other : Tag} (h : row ∈ topRows tags) (hMem : other ∈ tags)
    (hAhead : isAhead (other, tags.count other) row = true) :
    (other, tags.count other) ∈ topRows tags := by
  let counts := mostFrequent tagBefore (tally tags)
  obtain ⟨hKey, hBefore, -⟩ := isAhead_iff.mp hAhead
  have hSorted := pairwise_mostFrequent_tally ranks_tagBefore tags
  have hOther : (other, tags.count other) ∈ counts := mem_mostFrequent_tally.mpr ⟨hMem, rfl⟩
  have hTop : counts.countP (isAhead · row) < topValues :=
    of_decide_eq_true (List.mem_filter.mp (List.mem_of_mem_take h)).2
  -- What is ahead of the other tag is ahead of this one.
  have hOtherTop : counts.countP (isAhead · (other, tags.count other)) < topValues := by
    refine Nat.lt_of_le_of_lt (List.countP_mono_left fun a _ ha => ?_) hTop
    obtain ⟨hKey', hBefore', hNe⟩ := isAhead_iff.mp ha
    refine isAhead_iff.mpr
      ⟨hKey'.trans hKey, ranks_tagBefore.countBefore.trans _ _ _ hBefore' hBefore, ?_⟩
    rintro rfl
    exact hNe (ranks_tagBefore.countBefore.antisymm _ _ hBefore' hBefore)
  exact ranks_tagBefore.countBefore.mem_take_of_before (hSorted.sublist List.filter_sublist) h
    (List.mem_filter.mpr ⟨hOther, decide_eq_true hOtherTop⟩) hBefore

/-- A tag that is more frequent than any other is kept. -/
theorem mem_topRows_of_most {tag : Tag} (hMem : tag ∈ tags)
    (hMost : ∀ other ∈ tags, other ≠ tag → tags.count other < tags.count tag) :
    (tag, tags.count tag) ∈ topRows tags := by
  let counts := mostFrequent tagBefore (tally tags)
  have hSorted := pairwise_mostFrequent_tally ranks_tagBefore tags
  -- Nothing comes before it.
  have hFirst : ∀ row ∈ counts, countBefore tagBefore row (tag, tags.count tag) = true →
      row = (tag, tags.count tag) := by
    intro row hRow hBefore
    obtain ⟨hOther, hCount⟩ := mem_mostFrequent_tally.mp hRow
    by_contra hNe
    have hLess := hMost row.1 hOther fun h => hNe (Prod.ext h (h ▸ hCount))
    rw [countBefore, Bool.or_eq_true, Bool.and_eq_true, decide_eq_true_eq, beq_iff_eq] at hBefore
    omega
  have hTop : counts.countP (isAhead · (tag, tags.count tag)) = 0 :=
    List.countP_eq_zero.mpr fun row hRow hAhead =>
      (isAhead_iff.mp hAhead).2.2 (hFirst row hRow (isAhead_iff.mp hAhead).2.1)
  have hKept : (tag, tags.count tag) ∈
      counts.filter fun row => counts.countP (isAhead · row) < topValues :=
    List.mem_filter.mpr ⟨mem_mostFrequent_tally.mpr ⟨hMem, rfl⟩,
      decide_eq_true (hTop.trans_lt (by decide))⟩
  refine (ranks_tagBefore.countBefore.mem_take_iff_countP (hSorted.sublist List.filter_sublist)
    hKept _).mpr (LE.le.trans_lt (Nat.le_of_eq (List.countP_eq_zero.mpr ?_)) (by decide))
  intro row hRow hBefore
  obtain ⟨hBefore, hNe⟩ := Bool.and_eq_true_iff.mp hBefore
  exact bne_iff_ne.mp hNe (hFirst row (List.mem_filter.mp hRow).1 hBefore)

/-- Of one key at most four values are kept. -/
theorem length_topRows_le (tags : List Tag) (key : String) :
    ((topRows tags).filter fun row => row.1.key = key).length ≤ topValues := by
  let counts := mostFrequent tagBefore (tally tags)
  let own := counts.filter fun row => row.1.key = key
  have hSorted := pairwise_mostFrequent_tally ranks_tagBefore tags
  have hNodup : ((topRows tags).filter fun row => row.1.key = key).Nodup :=
    (hSorted.imp And.right).sublist (List.filter_sublist.trans (topRows_sublist tags))
  -- They are among the first four counted tags with this key.
  have hFirst : ((topRows tags).filter fun row => row.1.key = key) ⊆ own.take topValues := by
    intro row h
    obtain ⟨hRow, hKey⟩ := List.mem_filter.mp h
    have hOwn : row ∈ own := List.mem_filter.mpr ⟨(topRows_sublist tags).subset hRow, hKey⟩
    have hTop : counts.countP (isAhead · row) < topValues :=
      of_decide_eq_true (List.mem_filter.mp (List.mem_of_mem_take hRow)).2
    refine (ranks_tagBefore.countBefore.mem_take_iff_countP (hSorted.sublist List.filter_sublist)
      hOwn _).mpr (Nat.lt_of_le_of_lt ?_ hTop)
    rw [List.countP_filter]
    refine List.countP_mono_left fun a _ ha => ?_
    obtain ⟨hBefore, hOwnKey⟩ := Bool.and_eq_true_iff.mp ha
    obtain ⟨hBefore, hNe⟩ := Bool.and_eq_true_iff.mp hBefore
    exact isAhead_iff.mpr ⟨(of_decide_eq_true hOwnKey).trans (of_decide_eq_true hKey).symm, hBefore,
      bne_iff_ne.mp hNe⟩
  exact (hNodup.subperm hFirst).length_le.trans (List.length_take_le _ _)

/-- The values that are kept of a key are counted at most as often as the key is used. -/
theorem sum_topRows_le (tags : List Tag) (key : String) :
    (((topRows tags).filter fun row => row.1.key = key).map Prod.snd).sum ≤ uses tags key := by
  have hAll : (((mostFrequent tagBefore (tally tags)).filter fun row => row.1.key = key).map
      Prod.snd).sum = uses tags key := by
    rw [mostFrequent, (((List.mergeSort_perm _ _).filter _).map _).sum_eq,
      sum_tally_filter fun tag : Tag => tag.key = key, uses, List.count_eq_countP, List.countP_map]
    rfl
  rw [← hAll]
  exact (((topRows_sublist tags).filter _).map _).sum_le_sum fun _ _ => Nat.zero_le _

/-- A tag is counted at most as often as its key is used. -/
theorem count_le_uses (tags : List Tag) (tag : Tag) : tags.count tag ≤ uses tags tag.key := by
  rw [uses]
  exact List.count_le_count_map

end Triage.EventLog
