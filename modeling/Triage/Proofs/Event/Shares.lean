import Triage.Proofs.Event.Searching
import Triage.Proofs.Event.Shapes
import Triage.Proofs.EventLog.Lookup
import Triage.Proofs.EventLog.TopRows

/-!
# Shares of the tags of an issue

Listing the tags of an issue asks two questions, for the totals of keys and for the most frequent
values, and both answers are cut off.  A value has its total in the same listing exactly if its key is
among the ones whose totals are kept, and then its share is a quotient that exists (`shares_listed`).
Nothing is said of the shares of other values; that there are such values is shown by an issue with
more keys than there are rows (`rare_tag_without_total`).
-/

namespace Triage

/-- The quotient of a part by the whole is in the range of the format. -/
theorem Binary64.nearest?_of_le {num den : Nat} (h : num ≤ den) :
    ∃ bits, nearest? num den = some bits := by
  by_cases hZero : num = 0
  · exact ⟨0, by rw [nearest?, if_pos hZero]⟩
  · have hLog : num.log2 ≤ den.log2 :=
      (Nat.le_log2 (by omega)).mpr ((Nat.log2_self_le hZero).trans h)
    rw [nearest?, if_neg hZero]
    dsimp only
    generalize hScale : max _ (-1074 : Int) = scale
    have hSmall : scale ≤ -51 := by
      rw [← hScale]
      split_ifs <;> omega
    have hFits (q : Nat) :
        ¬971 < (if q = Nat.pow 2 53 then (Nat.pow 2 52, scale + 1) else (q, scale)).2 := by
      split <;> (dsimp only; omega)
    rw [if_neg (hFits _)]
    split_ifs <;> exact ⟨_, rfl⟩

/-- The share of a part in a whole is a quotient. -/
theorem Diagnostics.percentOf_of_le {part total : Nat} (hPart : 0 < part) (h : part ≤ total) :
    ∃ quotient, Binary64.ofRatio? part total = some quotient ∧
      percentOf part total = quotient * 100 := by
  obtain ⟨bits, hBits⟩ := Binary64.nearest?_of_le h
  have hQuotient : Binary64.ofRatio? part total =
      some (Float.ofBits (Binary64.withSign (decide ((part : Int) < 0)) bits)) := by
    rw [Binary64.ofRatio?, Int.natAbs_natCast, hBits]
    rfl
  refine ⟨_, hQuotient, ?_⟩
  have hSome : (total : Int) ≠ 0 := by omega
  have hSign : ¬(total : Int) < 0 := by omega
  rw [percentOf, if_neg hSome, if_neg hSign, Int.natAbs_natCast]
  dsimp only
  rw [hQuotient]
  rfl

namespace Events

open EventLog

/-- What a listing of totals and values says about the tags of the events it is about. -/
structure Shares (tags : List Tag) (totals : List TagCount) (values : List ValueShare) :
    Prop where
  total : ∀ t ∈ totals, t.count = uses tags t.key
  count : ∀ v ∈ values, 0 < v.count ∧ v.count = tags.count ⟨v.key, v.value⟩
  hasTotal : ∀ v ∈ values, (∃ t ∈ totals, t.key = v.key) ↔ keysAhead tags v.key < maxTagRows
  share : ∀ v ∈ values, ∀ t ∈ totals, t.key = v.key → v.count ≤ t.count ∧
    ∃ quotient, Binary64.ofRatio? v.count t.count = some quotient ∧ v.percent = quotient * 100
  few : ∀ key, (values.filter fun v => v.key = key).length ≤ topValues
  sum : ∀ t ∈ totals,
    ((values.filter fun v => v.key = t.key).map ValueShare.count).sum ≤ t.count
  frequent : ∀ v ∈ values, ∀ tag ∈ tags, tag.key = v.key →
    v.count < tags.count tag ∨ tags.count tag = v.count ∧ tag.value < v.value →
      ∃ w ∈ values, w.key = tag.key ∧ w.value = tag.value

variable {d : Deployment} {c : IssueCriteria}

/-- A value gets its share of the total of its key, if this is known. -/
theorem withShare_eq {totals : List TagCount} {v : ValueShare} {total : Nat}
    (hKnown : ∃ t ∈ totals, t.key = v.key) (hTotal : ∀ t ∈ totals, t.key = v.key → t.count = total) :
    withShare totals v = { v with percent := Diagnostics.percentOf v.count total } := by
  obtain ⟨t, hMem, hKey⟩ := hKnown
  cases hFind : totals.find? fun t => t.key = v.key with
  | none => exact absurd (decide_eq_true hKey) (List.find?_eq_none.mp hFind t hMem)
  | some first =>
      have hFirstKey : decide (first.key = v.key) = true :=
        List.find?_some (p := fun t : TagCount => decide (t.key = v.key)) hFind
      have hFirst := hTotal first (List.mem_of_find?_eq_some hFind) (of_decide_eq_true hFirstKey)
      rw [withShare, hFind, ← hFirst]
      rfl

theorem run_listFields (hStaged : d.staged = []) (hThere : d.events.dropped = false)
    (c : IssueCriteria) :
    d.run (listFields c) = (.ok (d.events.tagTotals c,
      (d.events.valueShares c).map (withShare (d.events.tagTotals c))), d) := by
  have hTotals := run_eventLog hStaged hThere (.tagTotals c) fun _ => nofun
  have hValues := run_eventLog hStaged hThere (.valueShares c) fun _ => nofun
  exact (Program.run_bind hTotals).trans (Program.run_bind hValues)

/-- The values of a listing. -/
def listedValues (log : EventLog) (c : IssueCriteria) : List ValueShare :=
  (log.valueShares c).map (withShare (log.tagTotals c))

/-- A value as a counted tag. -/
def counted (v : ValueShare) : Tag × Nat := (⟨v.key, v.value⟩, v.count)

theorem map_counted_listedValues (log : EventLog) (c : IssueCriteria) :
    (listedValues log c).map counted = topRows (tagsOf (log.ofIssue c)) := by
  rw [listedValues, valueShares_eq, List.map_map, List.map_map]
  exact List.map_id _

/-- The values of one key, as counted tags. -/
theorem filter_topRows (log : EventLog) (c : IssueCriteria) (key : String) :
    (topRows (tagsOf (log.ofIssue c))).filter (fun row => row.1.key = key) =
      ((listedValues log c).filter fun v => v.key = key).map counted := by
  rw [← map_counted_listedValues, List.filter_map]
  rfl

variable {log : EventLog} {v : ValueShare}

theorem counted_mem_topRows (h : v ∈ listedValues log c) :
    counted v ∈ topRows (tagsOf (log.ofIssue c)) := by
  rw [← map_counted_listedValues]
  exact List.mem_map_of_mem h

/-- The totals know the key of a value exactly if few enough keys are ahead of it. -/
theorem hasTotal_iff (h : v ∈ listedValues log c) :
    (∃ t ∈ log.tagTotals c, t.key = v.key) ↔
      keysAhead (tagsOf (log.ofIssue c)) v.key < maxTagRows := by
  constructor
  · rintro ⟨t, ht, hKey⟩
    exact hKey ▸ (mem_tagTotals.mp ht).2.2
  · intro hFew
    have hUsed : v.key ∈ (tagsOf (log.ofIssue c)).map Tag.key :=
      List.mem_map_of_mem (of_mem_topRows (counted_mem_topRows h)).1
    exact ⟨⟨v.key, uses _ v.key⟩, mem_tagTotals.mpr ⟨hUsed, rfl, hFew⟩, rfl⟩

/-- A listed value with the share of its tag, if the totals know its key. -/
theorem percent_of_listed (h : v ∈ listedValues log c)
    (hKnown : ∃ t ∈ log.tagTotals c, t.key = v.key) :
    v.percent = Diagnostics.percentOf v.count (uses (tagsOf (log.ofIssue c)) v.key) := by
  obtain ⟨raw, -, rfl⟩ := List.mem_map.mp h
  have hShare := withShare_eq (v := raw) hKnown fun t ht hKey =>
    (mem_tagTotals.mp ht).2.1.trans (congrArg _ hKey)
  rw [hShare]

theorem shares_of_log (log : EventLog) (c : IssueCriteria) :
    Shares (tagsOf (log.ofIssue c)) (log.tagTotals c) (listedValues log c) where
  total t ht := (mem_tagTotals.mp ht).2.1
  count v hv := by
    obtain ⟨hMem, hCount⟩ := of_mem_topRows (counted_mem_topRows hv)
    exact ⟨Nat.lt_of_lt_of_eq (List.count_pos_iff.mpr hMem) hCount.symm, hCount⟩
  hasTotal v hv := hasTotal_iff hv
  share v hv t ht hKey := by
    obtain ⟨hMem, hCount⟩ := of_mem_topRows (counted_mem_topRows hv)
    have hTotal : t.count = uses (tagsOf (log.ofIssue c)) v.key :=
      (mem_tagTotals.mp ht).2.1.trans (congrArg _ hKey)
    have hPart : v.count ≤ t.count := by
      rw [hTotal, show v.count = _ from hCount]
      exact count_le_uses _ _
    have hSome : 0 < v.count := Nat.lt_of_lt_of_eq (List.count_pos_iff.mpr hMem) hCount.symm
    rw [percent_of_listed hv ⟨t, ht, hKey⟩, ← hTotal]
    exact ⟨hPart, Diagnostics.percentOf_of_le hSome hPart⟩
  few key := by
    have hFew := length_topRows_le (tagsOf (log.ofIssue c)) key
    rwa [filter_topRows, List.length_map] at hFew
  sum t ht := by
    have hSum := sum_topRows_le (tagsOf (log.ofIssue c)) t.key
    rw [filter_topRows, List.map_map, ← (mem_tagTotals.mp ht).2.1] at hSum
    exact hSum
  frequent v hv tag hTag hKey hMore := by
    have hAhead : isAhead (tag, (tagsOf (log.ofIssue c)).count tag) (counted v) = true := by
      rw [isAhead, Bool.and_eq_true, Bool.or_eq_true, Bool.and_eq_true, decide_eq_true_eq,
        decide_eq_true_eq, beq_iff_eq, beq_iff_eq]
      exact ⟨hKey, hMore⟩
    have hTop := mem_topRows_of_ahead (counted_mem_topRows hv) hTag hAhead
    rw [← map_counted_listedValues] at hTop
    obtain ⟨w, hw, hSame⟩ := List.mem_map.mp hTop
    obtain ⟨hTags, -⟩ := Prod.mk.inj hSame
    exact ⟨w, hw, congrArg Tag.key hTags, congrArg Tag.value hTags⟩

/-- A listing of the tags of an issue counts the most used keys and the most frequent values of the
events in the window.  A value has a total in the listing exactly if fewer keys than there are rows are
ahead of its own; it is then counted at most as often as the key is used, and its share is the
quotient of the two.  At most four values of one key are listed, the most frequent ones, and together
they are counted at most as often as the total says. -/
theorem shares_listed (hStaged : d.staged = []) (hThere : d.events.dropped = false)
    (c : IssueCriteria) :
    ∃ totals values, d.run (listFields c) = (.ok (totals, values), d) ∧
      Shares (tagsOf (d.events.ofIssue c)) totals values :=
  ⟨_, _, run_listFields hStaged hThere c, shares_of_log d.events c⟩

/-- A deployment with an event for each of some lists of tags, all of one issue. -/
def taggedDeployment (lists : List (List Tag)) : Deployment :=
  loggedDeployment (lists.map (taggedRecord ""))

/-- The criteria of that issue. -/
def taggedIssue : IssueCriteria := ⟨1, 7, ⟨⟨1000⟩, ⟨2000⟩⟩, ""⟩

theorem tagsOf_taggedDeployment (lists : List (List Tag)) :
    tagsOf ((taggedDeployment lists).events.ofIssue taggedIssue) = lists.flatten := by
  induction lists using List.reverseRecOn with
  | nil => rfl
  | append_singleton lists last ih =>
      have hAppend : (taggedDeployment (lists ++ [last])).events =
          (taggedDeployment lists).events.append (taggedRecord "" last) := by
        rw [taggedDeployment, loggedDeployment, List.map_append, List.foldl_append]
        rfl
      have hTags : (last.map Tag.stored).map StoredTag.tag = last :=
        List.map_map.trans (List.map_id _)
      rw [hAppend, ofIssue, visible_append, List.filter_append, tagsOf, List.flatMap_append,
        List.flatten_append, ← ih, List.filter_cons_of_pos rfl, List.filter_nil,
        List.flatMap_singleton, List.flatten_singleton]
      exact congrArg _ hTags

theorem run_listFields_tagged (lists : List (List Tag)) :
    (taggedDeployment lists).run (listFields taggedIssue) =
      (.ok ((taggedDeployment lists).events.tagTotals taggedIssue,
        listedValues (taggedDeployment lists).events taggedIssue), taggedDeployment lists) := by
  have hThere : (taggedDeployment lists).events.dropped = false :=
    List.foldlRecOn (motive := fun log : EventLog => log.dropped = false)
      (lists.map (taggedRecord "")) EventLog.append rfl fun _ h _ _ => h
  exact run_listFields rfl hThere taggedIssue

/-- A value that is more frequent than any other of an issue is listed. -/
theorem exists_listed_of_most {tag : Tag} (hMem : tag ∈ tagsOf (log.ofIssue c))
    (hMost : ∀ other ∈ tagsOf (log.ofIssue c), other ≠ tag →
      (tagsOf (log.ofIssue c)).count other < (tagsOf (log.ofIssue c)).count tag) :
    ∃ v ∈ listedValues log c, counted v = (tag, (tagsOf (log.ofIssue c)).count tag) := by
  have hTop := mem_topRows_of_most hMem hMost
  rw [← map_counted_listedValues] at hTop
  exact List.mem_map.mp hTop

/-- Three events of an issue, two of which have a tag in common. -/
def systemsDeployment : Deployment :=
  taggedDeployment [[⟨"os", "linux"⟩, ⟨"env", "prod"⟩], [⟨"os", "linux"⟩], [⟨"os", "mac"⟩]]

/-- One of the systems has two thirds of the key. -/
theorem systems_shared :
    ∃ totals values,
      systemsDeployment.run (listFields taggedIssue) = (.ok (totals, values), systemsDeployment) ∧
      ∃ t ∈ totals, ∃ v ∈ values, t = ⟨"os", 3⟩ ∧ counted v = (⟨"os", "linux"⟩, 2) ∧
        ∃ quotient, Binary64.ofRatio? 2 3 = some quotient ∧ v.percent = quotient * 100 := by
  obtain ⟨totals, values, hRun, hShares⟩ :=
    shares_listed (d := systemsDeployment) rfl rfl taggedIssue
  have hAnswer := hRun.symm.trans (run_listFields_tagged _)
  obtain ⟨rfl, rfl⟩ := Prod.mk.inj (Except.ok.inj (congrArg Prod.fst hAnswer))
  have hTags := tagsOf_taggedDeployment
    [[⟨"os", "linux"⟩, ⟨"env", "prod"⟩], [⟨"os", "linux"⟩], [⟨"os", "mac"⟩]]
  have hTotal : ⟨"os", 3⟩ ∈ systemsDeployment.events.tagTotals taggedIssue := by
    rw [mem_tagTotals, systemsDeployment, hTags]
    decide
  obtain ⟨v, hv, hCounted⟩ : ∃ v ∈ listedValues systemsDeployment.events taggedIssue,
      counted v = (⟨"os", "linux"⟩, 2) := by
    refine exists_listed_of_most ?_ ?_ <;> rw [systemsDeployment, hTags] <;> decide
  obtain ⟨hTag, hCount⟩ := Prod.mk.inj hCounted
  obtain ⟨-, quotient, hQuotient, hPercent⟩ :=
    hShares.share v hv _ hTotal (congrArg Tag.key hTag).symm
  rw [hCount] at hQuotient
  exact ⟨_, _, hRun, _, hTotal, v, hv, rfl, hCounted, quotient, hQuotient, hPercent⟩

/-! ## More keys than rows -/

/-- A number of keys, each with one value. -/
def crowd (n : Nat) (value : String) : List Tag :=
  (List.range n).map fun (i : Nat) => ⟨Text.intText (i + 1), value⟩

/-- A tag with a key that is not in the crowd. -/
def rareTag : Tag := ⟨Text.intText 0, "v"⟩

/-- The tags of three events with all keys of a crowd, of which two have the rare tag. -/
def crowdedTags (n : Nat) : List (List Tag) :=
  [rareTag :: crowd n "a", rareTag :: crowd n "b", crowd n "c"]

variable {n : Nat} {value : String}

theorem nodup_crowd (n : Nat) (value : String) : (crowd n value).Nodup := by
  refine List.nodup_range.map fun i j h => ?_
  have hSame := intText_injective (congrArg Tag.key h)
  omega

theorem mem_crowd {tag : Tag} :
    tag ∈ crowd n value ↔ tag.value = value ∧ ∃ i < n, Text.intText ((i : Int) + 1) = tag.key := by
  rw [crowd, List.mem_map]
  constructor
  · rintro ⟨i, hi, rfl⟩
    exact ⟨rfl, i, List.mem_range.mp hi, rfl⟩
  · rintro ⟨rfl, i, hi, hKey⟩
    exact ⟨i, List.mem_range.mpr hi, by rw [hKey]⟩

theorem uses_append (tags tags' : List Tag) (key : String) :
    uses (tags ++ tags') key = uses tags key + uses tags' key := by
  rw [uses, List.map_append, List.count_append]
  rfl

theorem uses_cons (tag : Tag) (tags : List Tag) (key : String) :
    uses (tag :: tags) key = uses tags key + if tag.key == key then 1 else 0 := by
  rw [uses, List.map_cons, List.count_cons]
  rfl

/-- The crowd does not use the rare key. -/
theorem uses_crowd_rare (n : Nat) (value : String) : uses (crowd n value) rareTag.key = 0 := by
  rw [uses, List.count_eq_zero, List.mem_map]
  rintro ⟨tag, hTag, hKey⟩
  obtain ⟨-, i, -, hNumber⟩ := mem_crowd.mp hTag
  have hSame : ((i : Int) + 1) = 0 := intText_injective (hNumber.trans hKey)
  omega

theorem uses_crowd {i : Nat} (hi : i < n) (value : String) :
    0 < uses (crowd n value) (Text.intText ((i : Int) + 1)) := by
  have hMem : ⟨Text.intText ((i : Int) + 1), value⟩ ∈ crowd n value :=
    mem_crowd.mpr ⟨rfl, i, hi, rfl⟩
  exact List.count_pos_iff.mpr (List.mem_map_of_mem hMem)

theorem flatten_crowdedTags (n : Nat) : (crowdedTags n).flatten =
    rareTag :: crowd n "a" ++ (rareTag :: crowd n "b" ++ crowd n "c") := by
  rw [crowdedTags, List.flatten_cons, List.flatten_cons, List.flatten_singleton]

theorem uses_rare (n : Nat) : uses (crowdedTags n).flatten rareTag.key = 2 := by
  rw [flatten_crowdedTags, uses_append, uses_append, uses_cons, uses_cons, uses_crowd_rare,
    uses_crowd_rare, uses_crowd_rare, beq_self_eq_true]
  rfl

/-- The crowd is ahead of the rare tag. -/
theorem keysAhead_rare (n : Nat) : n ≤ keysAhead (crowdedTags n).flatten rareTag.key := by
  let tags := (crowdedTags n).flatten
  have hMore {i : Nat} (hi : i < n) : 2 < uses tags (Text.intText ((i : Int) + 1)) := by
    have hA := uses_crowd hi "a"
    have hB := uses_crowd hi "b"
    have hC := uses_crowd hi "c"
    show 2 < uses (crowdedTags n).flatten _
    rw [flatten_crowdedTags, uses_append, uses_append, uses_cons, uses_cons]
    omega
  let keys := (List.range n).map fun (i : Nat) => Text.intText ((i : Int) + 1)
  have hKeys : keys.Nodup := by
    refine List.nodup_range.map fun i j h => ?_
    have hSame := intText_injective h
    omega
  have hAhead : keys ⊆ (tags.map Tag.key).eraseDups.filter fun other =>
      decide (uses tags rareTag.key < uses tags other) ||
        (uses tags other == uses tags rareTag.key && decide (other < rareTag.key)) := by
    intro key hKey
    obtain ⟨i, hi, rfl⟩ := List.mem_map.mp hKey
    have hUses := hMore (List.mem_range.mp hi)
    rw [List.mem_filter, List.mem_eraseDups, uses_rare, decide_eq_true hUses, Bool.true_or]
    exact ⟨List.count_pos_iff.mp (Nat.zero_lt_of_lt hUses), rfl⟩
  have hLength := (hKeys.subperm hAhead).length_le
  rwa [List.length_map, List.length_range, ← List.countP_eq_length_filter] at hLength

theorem count_crowd_le (n : Nat) (value : String) (tag : Tag) :
    (crowd n value).count tag ≤ if tag.value = value then 1 else 0 := by
  split
  next => exact List.nodup_iff_count_le_one.mp (nodup_crowd n value) tag
  next hOther => exact Nat.le_of_eq (List.count_eq_zero.mpr fun h => hOther (mem_crowd.mp h).1)

theorem count_rare (n : Nat) : (crowdedTags n).flatten.count rareTag = 2 := by
  have hNone {value : String} (h : value ≠ "v") : (crowd n value).count rareTag = 0 :=
    List.count_eq_zero.mpr fun hMem => h (mem_crowd.mp hMem).1.symm
  rw [flatten_crowdedTags, List.count_append, List.count_append, List.count_cons_self,
    List.count_cons_self, hNone (by decide), hNone (by decide), hNone (by decide)]

/-- The rare tag is more frequent than any other. -/
theorem rareTag_most : ∀ other ∈ (crowdedTags n).flatten, other ≠ rareTag →
    (crowdedTags n).flatten.count other < (crowdedTags n).flatten.count rareTag := by
  intro other _ hOther
  have hA := count_crowd_le n "a" other
  have hB := count_crowd_le n "b" other
  have hC := count_crowd_le n "c" other
  rw [count_rare, flatten_crowdedTags, List.count_append, List.count_append,
    List.count_cons_of_ne hOther.symm, List.count_cons_of_ne hOther.symm]
  -- Another tag has one value, and with it occurs in one of the events.
  have hValue : (if other.value = "a" then 1 else 0) + ((if other.value = "b" then 1 else 0) +
      if other.value = "c" then 1 else 0) ≤ 1 := by
    split_ifs <;> simp_all
  omega

/-- In a large crowd, the rare tag is listed without its total. -/
theorem rareTag_listed (h : maxTagRows ≤ n) :
    ∃ v ∈ listedValues (taggedDeployment (crowdedTags n)).events taggedIssue,
      counted v = (rareTag, 2) ∧ v.percent = 0 ∧
        ¬∃ t ∈ (taggedDeployment (crowdedTags n)).events.tagTotals taggedIssue, t.key = v.key := by
  let log := (taggedDeployment (crowdedTags n)).events
  have hTags : tagsOf (log.ofIssue taggedIssue) = (crowdedTags n).flatten :=
    tagsOf_taggedDeployment _
  obtain ⟨v, hv, hCounted⟩ : ∃ v ∈ listedValues log taggedIssue, counted v = (rareTag, 2) := by
    rw [← count_rare n, ← hTags]
    refine exists_listed_of_most ?_ ?_ <;> rw [hTags]
    · exact List.count_pos_iff.mp (by rw [count_rare]; decide)
    · exact rareTag_most
  have hKey : v.key = rareTag.key := congrArg (fun row => row.1.key) hCounted
  have hUnknown : ¬∃ t ∈ log.tagTotals taggedIssue, t.key = v.key := by
    rw [hasTotal_iff hv, hTags, hKey]
    exact Nat.not_lt.mpr (h.trans (keysAhead_rare n))
  refine ⟨v, hv, hCounted, ?_, hUnknown⟩
  obtain ⟨raw, -, rfl⟩ := List.mem_map.mp hv
  have hNone : (log.tagTotals taggedIssue).find? (fun t => t.key = raw.key) = none :=
    List.find?_eq_none.mpr fun t ht hSame => hUnknown ⟨t, ht, of_decide_eq_true hSame⟩
  rw [withShare, hNone]
  rfl

/-- With as many keys in the crowd as there are rows, the rare tag is listed without its total.  All
occurrences of its key have this value, but its share is zero. -/
theorem rare_tag_without_total :
    ∃ totals values, (taggedDeployment (crowdedTags maxTagRows)).run (listFields taggedIssue) =
        (.ok (totals, values), taggedDeployment (crowdedTags maxTagRows)) ∧
      uses (crowdedTags maxTagRows).flatten rareTag.key = 2 ∧
      ∃ v ∈ values, counted v = (rareTag, 2) ∧ v.percent = 0 ∧ ¬∃ t ∈ totals, t.key = v.key :=
  ⟨_, _, run_listFields_tagged _, uses_rare _, rareTag_listed (Nat.le_refl maxTagRows)⟩

end Events
end Triage
