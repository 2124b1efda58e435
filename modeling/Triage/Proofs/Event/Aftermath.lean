import Triage.Proofs.Event.Answers
import Triage.Proofs.Event.RolledBack

/-!
# After a report was rolled back

A report is taken in inside a unit of work that fails, and other reports follow.  They fare as if
the first one had never been there, exactly when none of them is misled, that is, finds an issue
remembered that is not an issue of its project and fingerprint (`rollback_unnoticed_iff`).  Only
reports of the group and the service of the one that was rolled back can be misled, and only if the
group had no issue before.

Two deployments are followed side by side, one in which the report was rolled back and one in which
it was not submitted at all.  They hold issues of the same identifiers and groups (`Twins`), which
is all that the answer to a report depends on as long as it is not misled.
-/

namespace Triage

open Events

namespace Deployment

variable {d a b after : Deployment} {new : List Issue.Identity} {k : Nat}

/-- The identifiers that the next issues are to get. -/
def upcoming (d : Deployment) (k : Nat) : List String :=
  (List.range k).map fun j => String.ofList (Text.hexDigits 32 (d.issuesNamed + j + 1))

/-- The identifiers that the next issues are to get are not in use, and none of them comes twice. -/
def FreshNames (d : Deployment) (k : Nat) : Prop :=
  (d.upcoming k).Nodup ∧ ∀ u ∈ d.upcoming k, u ∉ d.registry.identities.map Issue.Identity.uuid

instance (d : Deployment) (k : Nat) : Decidable (d.FreshNames k) :=
  inferInstanceAs (Decidable (_ ∧ _))

/-- Issues that may be opened at once: none, or the one that comes next, of a group without an
issue. -/
def Opens (d : Deployment) (new : List Issue.Identity) : Prop :=
  new = [] ∨ ∃ x, new = [x] ∧ x.uuid = d.nextUuid ∧
    x.group ∉ d.registry.identities.map Issue.Identity.group

/-- Every cached issue is the issue of its key, except where said otherwise. -/
def Remembers (d : Deployment) (other : Nat → CachedIssue → Prop) : Prop :=
  ∀ n, ∀ e ∈ (d.caches n).entries, d.registry.Names e.key e.issueId e.issueUuid ∨ other n e

/-- A deployment that can take in some reports. -/
structure Ready (d : Deployment) (k : Nat) : Prop extends d.Settled where
  onePerGroup : d.registry.OnePerGroup
  fresh : d.FreshNames k

/-- Two deployments whose issues have the same identifiers and groups. -/
def Twins (a b : Deployment) : Prop :=
  a.registry.identities.map (fun x => (x.id, x.group)) =
    b.registry.identities.map fun x => (x.id, x.group)

theorem upcoming_succ (d : Deployment) (k : Nat) :
    d.upcoming (k + 1) = d.nextUuid ::
        (List.range k).map fun j =>
          String.ofList (Text.hexDigits 32 (d.issuesNamed + 1 + j + 1)) := by
  rw [upcoming, List.range_succ_eq_map, List.map_cons, List.map_map]
  refine congrArg₂ List.cons rfl (List.map_congr_left fun j _ => ?_)
  rw [Function.comp_apply, Nat.add_assoc d.issuesNamed 1 j, Nat.add_comm 1 j]

theorem FreshNames.next (h : d.FreshNames (k + 1)) :
    d.nextUuid ∉ d.registry.identities.map Issue.Identity.uuid :=
  h.2 _ (by rw [upcoming_succ]; exact List.mem_cons_self)

/-- One identifier is used up at most. -/
theorem FreshNames.gains (h : d.FreshNames (k + 1)) (hGains : d.Gains new after)
    (hOpens : d.Opens new) : after.FreshNames k := by
  -- Either the last of the identifiers is left over, or the first one has been used.
  obtain rfl | ⟨x, rfl, hUuid, -⟩ := hOpens
  · have hUpcoming : d.upcoming (k + 1) = after.upcoming k ++
        [String.ofList (Text.hexDigits 32 (d.issuesNamed + k + 1))] := by
      rw [upcoming, List.range_succ, List.map_append, upcoming, hGains.named]
      rfl
    rw [FreshNames, hUpcoming] at h
    refine ⟨(List.nodup_append.mp h.1).1, fun u hu => ?_⟩
    rw [hGains.same]
    exact h.2 u (List.mem_append_left _ hu)
  · have hUpcoming : d.upcoming (k + 1) = d.nextUuid :: after.upcoming k := by
      rw [upcoming_succ, upcoming, hGains.named]
      rfl
    rw [FreshNames, hUpcoming] at h
    obtain ⟨hNext, hNodup⟩ := List.nodup_cons.mp h.1
    refine ⟨hNodup, fun u hu hUsed => ?_⟩
    rw [hGains.identities, List.map_append] at hUsed
    rcases List.mem_append.mp hUsed with hOld | hNew
    · exact h.2 u (List.mem_cons_of_mem _ hu) hOld
    · rw [List.map_singleton, List.mem_singleton, hUuid] at hNew
      exact hNext (hNew ▸ hu)

theorem opens_placed (d : Deployment) (projectId : Int) (fingerprint : String) :
    d.Opens (d.placed projectId fingerprint) := by
  unfold placed
  obtain ⟨x, -, -, -, hPlace⟩ | ⟨hFree, -, hPlace⟩ := d.place_cases projectId fingerprint <;>
    rw [hPlace]
  · exact .inl rfl
  · exact .inr ⟨_, rfl, rfl, hFree⟩

theorem Ready.gains (h : d.Ready (k + 1)) (hGains : d.Gains new after) (hOpens : d.Opens new) :
    after.Ready k where
  toSettled := hGains.settled
  fresh := h.fresh.gains hGains hOpens
  onePerGroup := by
    rw [Registry.OnePerGroup, hGains.identities]
    obtain rfl | ⟨x, rfl, -, hFree⟩ := hOpens
    · rw [List.append_nil]
      exact h.onePerGroup
    · exact map_key_append h.onePerGroup hFree

theorem Remembers.gains {other : Nat → CachedIssue → Prop} (h : d.Remembers other)
    (hGains : d.Gains new after) : after.Remembers other := by
  intro n e he
  rcases hGains.entries n e he with hOld | hNew
  · exact (h n e hOld).imp_left fun hNames => hNames.mono hGains.identities_subset
  · exact .inl hNew

namespace Twins

/-- In twins a report belongs to issues of the same identifier. -/
theorem place (h : a.Twins b) (projectId : Int) (fingerprint : String) :
    (a.place projectId fingerprint).1.id = (b.place projectId fingerprint).1.id ∧
      (a.place projectId fingerprint).2 = (b.place projectId fingerprint).2 := by
  have hIds : a.registry.identities.map Issue.Identity.id =
      b.registry.identities.map Issue.Identity.id := by
    have hFirst := congrArg (List.map Prod.fst) h
    rwa [List.map_map, List.map_map] at hFirst
  -- Both look for the same row.
  have hFind : ∀ d : Deployment, (d.registry.identities.map fun x => (x.id, x.group)).find?
      (fun row => decide (row.2 = (projectId, fingerprint))) =
        (d.registry.identities.find? fun x => decide (x.group = (projectId, fingerprint))).map
          fun x => (x.id, x.group) := fun d => List.find?_map
  have hSame := (hFind a).symm.trans ((congrArg (List.find? _) h).trans (hFind b))
  obtain ⟨x, -, -, hFound, hPlace⟩ | ⟨-, hFound, hPlace⟩ := a.place_cases projectId fingerprint <;>
    obtain ⟨y, -, -, hFound', hPlace'⟩ | ⟨-, hFound', hPlace'⟩ :=
      b.place_cases projectId fingerprint <;>
    rw [hFound, hFound'] at hSame <;> rw [hPlace, hPlace']
  · exact ⟨(Prod.mk.inj (Option.some.inj hSame)).1, rfl⟩
  · cases hSame
  · cases hSame
  · exact ⟨congrArg nextId hIds, rfl⟩

/-- Twins stay twins when a report goes where it belongs. -/
theorem gains (h : a.Twins b) {projectId : Int} {fingerprint : String} {a' b' : Deployment}
    (ha : a.Gains (a.placed projectId fingerprint) a')
    (hb : b.Gains (b.placed projectId fingerprint) b') : a'.Twins b' := by
  obtain ⟨hId, hCreated⟩ := h.place projectId fingerprint
  rw [Twins, ha.identities, hb.identities, List.map_append, List.map_append, h, placed, placed,
    hCreated]
  split
  · rw [List.map_singleton, List.map_singleton, hId, a.place_group, b.place_group]
  · rfl

end Twins

namespace Restored

variable {submission : Option Submission} {s : Submission}

/-- What is restored can take in reports as before. -/
theorem ready (hAfter : d.Restored submission after) (h : d.Settled) (hGrouped : d.Grouped)
    (hFresh : after.FreshNames k) : after.Ready k where
  unit := hAfter.unit
  staged := hAfter.staged
  there := hAfter.registry ▸ h.there
  logThere := hAfter.logThere
  keyed := hAfter.registry ▸ h.keyed
  onePerGroup := hAfter.registry ▸ hGrouped.onePerGroup
  fresh := hFresh

/-- Without a report nothing is left in the caches. -/
theorem remembers (hAfter : d.Restored none after) (hGrouped : d.Grouped) :
    after.Remembers fun _ _ => False := by
  intro n e he
  rcases hAfter.entries n e he with hOld | ⟨t, hNone, -⟩
  · exact .inl (hAfter.registry ▸ hGrouped.cached n e hOld)
  · cases hNone

/-- What a report has left in the caches names its issue, unless it had none. -/
theorem remembers_other (hAfter : d.Restored (some s) after) (hGrouped : d.Grouped) :
    after.Remembers fun n e => n = s.service.number ∧ e.key = s.key ∧
      ∀ x ∈ d.registry.identities, x.group ≠ s.group := by
  intro n e he
  rcases hAfter.entries n e he with hOld | ⟨t, hSome, hService, hKey, hFits⟩
  · exact .inl (hAfter.registry ▸ hGrouped.cached n e hOld)
  obtain rfl := Option.some.inj hSome
  by_cases hHad : ∃ x ∈ d.registry.identities, x.group = s.group
  · obtain ⟨x, hx, hGroup⟩ := hHad
    obtain ⟨hId, hUuid⟩ := hFits x hx hGroup
    obtain ⟨hProject, hPrint⟩ := Prod.mk.inj hGroup
    refine .inl ⟨x, hAfter.registry ▸ hx, hId, hUuid, ?_⟩
    rw [hKey, hProject, hPrint]
    rfl
  · exact .inr ⟨hService, hKey, fun x hx hGroup => hHad ⟨x, hx, hGroup⟩⟩

end Restored

end Deployment

/-- What happens later: a report is taken in, or time passes. -/
inductive Later
  | takeIn (s : Submission)
  | wait (micros : Int)

namespace Later

/-- The receipt or the failure of a report. -/
def outcome (d : Deployment) : Later → Option (Except Failure Receipt)
  | .takeIn s => some (d.run s.program).1
  | .wait _ => none

def after (d : Deployment) : Later → Deployment
  | .takeIn s => (d.run s.program).2
  | .wait micros => d.advance micros

/-- A report that has a receipt is filed under an issue of its project and fingerprint. -/
def Filed (d : Deployment) : Later → Prop
  | .takeIn s => ∀ receipt, (d.run s.program).1 = .ok receipt →
    ∃ issue ∈ (d.run s.program).2.registry.issues, issue.id = receipt.issueId ∧
      issue.projectId = s.projectId ∧ issue.fingerprint = s.report.fingerprint ∧
        ∃ issueUuid, eventOf s.projectId issue.id issueUuid s.report s.retentionDays ∈
          (d.run s.program).2.eventRecords
  | .wait _ => True

/-- The issue that the service remembers about a report is not an issue of its project and
fingerprint. -/
def Misled (d : Deployment) : Later → Prop
  | .takeIn s => ∃ known ∈ d.remembered s.service s.projectId s.report,
    ∀ issue ∈ d.registry.issues, issue.id = known.issueId →
      ¬(issue.projectId = s.projectId ∧ issue.fingerprint = s.report.fingerprint)
  | .wait _ => False

instance (d : Deployment) : (next : Later) → Decidable (next.Misled d)
  | .takeIn _ => inferInstanceAs (Decidable (∃ known ∈ _, _))
  | .wait _ => inferInstanceAs (Decidable False)

/-- The deployments in which things happen one after the other, each with what happens in it. -/
def stages : Deployment → List Later → List (Deployment × Later)
  | _, [] => []
  | d, next :: rest => (d, next) :: stages (next.after d) rest

/-- What comes of each report. -/
def outcomes (d : Deployment) (later : List Later) : List (Option (Except Failure Receipt)) :=
  (stages d later).map fun stage => stage.2.outcome stage.1

variable {d a b : Deployment} {s : Submission} {k : Nat}

open Deployment

theorem filed_of_run {receipt : Receipt} {final : Deployment} {x : Issue.Identity}
    {issueUuid : String} (hRun : d.run s.program = (.ok receipt, final))
    (hx : x ∈ final.registry.identities) (hId : x.id = receipt.issueId) (hGroup : x.group = s.group)
    (hEvent : eventOf s.projectId x.id issueUuid s.report s.retentionDays ∈ final.eventRecords) :
    Filed d (.takeIn s) := by
  rw [Filed, hRun]
  intro receipt' hOk
  obtain rfl := Except.ok.inj hOk
  obtain ⟨issue, hIssue, rfl⟩ := List.mem_map.mp hx
  obtain ⟨hProject, hPrint⟩ := Prod.mk.inj hGroup
  exact ⟨issue, hIssue, hId, hProject, hPrint, issueUuid, hEvent⟩

/-- A report that is not misled goes where it belongs. -/
theorem guided (h : d.Ready (k + 1)) (hNot : ¬Misled d (.takeIn s)) :
    (d.run s.program).1 = .ok ⟨s.report.eventId, (d.place s.projectId s.report.fingerprint).1.id,
        (d.place s.projectId s.report.fingerprint).2⟩ ∧
      d.Gains (d.placed s.projectId s.report.fingerprint) (d.run s.program).2 ∧
      Filed d (.takeIn s) := by
  cases hRemembered : d.remembered s.service s.projectId s.report with
  | none =>
      obtain ⟨final, hRun, hGains, hEvent⟩ :=
        h.ingest_unremembered s.retentionDays h.fresh.next hRemembered
      refine ⟨congrArg Prod.fst hRun, ?_, ?_⟩
      · rw [show d.run s.program = _ from hRun]
        exact hGains
      · exact filed_of_run hRun hGains.place_mem rfl (d.place_group _ _) hEvent
  | some known =>
      -- The issue that is remembered is the one that the report belongs to.
      obtain ⟨issue, hIssue, hId, hGroup⟩ : ∃ issue ∈ d.registry.issues, issue.id = known.issueId ∧
          issue.projectId = s.projectId ∧ issue.fingerprint = s.report.fingerprint := by
        by_contra hNone
        refine hNot ⟨known, hRemembered, fun issue hIssue hId hGroup => hNone ?_⟩
        exact ⟨issue, hIssue, hId, hGroup⟩
      have hMem : issue.identity ∈ d.registry.identities := List.mem_map_of_mem hIssue
      have hSame : issue.identity.group = s.group := Prod.ext hGroup.1 hGroup.2
      have hPlace : d.place s.projectId s.report.fingerprint = (issue.identity, false) := by
        obtain ⟨x, hx, hIs, -, hPlace⟩ | ⟨hFree, -⟩ :=
          d.place_cases s.projectId s.report.fingerprint
        · rw [hPlace, h.onePerGroup.eq hx hMem (hIs.trans hSame.symm)]
        · exact absurd (List.mem_map.mpr ⟨_, hMem, hSame⟩) hFree
      obtain ⟨final, hRun, hGains, hEvent⟩ := h.ingest_remembered s.retentionDays
        hRemembered (hId ▸ List.mem_map_of_mem hMem)
      rw [← hId] at hRun hEvent
      rw [placed, hPlace, if_neg Bool.false_ne_true]
      refine ⟨congrArg Prod.fst hRun, ?_, filed_of_run hRun ?_ rfl hSame hEvent⟩
      · rw [show d.run s.program = _ from hRun]
        exact hGains
      · exact hGains.identities_subset hMem

/-- A report that is misled fails or is filed under an issue of another project or fingerprint. -/
theorem misled (h : d.Settled) (hMisled : Misled d (.takeIn s)) :
    ((∃ e, (d.run s.program).1 = .error e) ∨ ¬Filed d (.takeIn s)) ∧
      d.Gains [] (d.run s.program).2 := by
  obtain ⟨known, hRemembered, hOther⟩ := hMisled
  -- The identifier may have gone to another issue since, or to none.
  by_cases hThere : known.issueId ∈ d.registry.identities.map Issue.Identity.id
  · obtain ⟨final, hRun, hGains, -⟩ :=
      h.ingest_remembered s.retentionDays hRemembered hThere
    have hProgram : d.run s.program = _ := hRun
    rw [Filed, hProgram]
    refine ⟨.inr fun hFiled => ?_, hGains⟩
    obtain ⟨issue, hIssue, hId, hProject, hPrint, -⟩ := hFiled _ rfl
    have hMem : issue.identity ∈ d.registry.identities := by
      rw [← hGains.same]
      exact List.mem_map_of_mem hIssue
    obtain ⟨before, hBefore, hSame⟩ := List.mem_map.mp hMem
    obtain ⟨hId', -, hProject', hPrint'⟩ := Issue.Identity.mk.inj hSame
    exact hOther before hBefore (hId'.trans hId) ⟨hProject'.trans hProject, hPrint'.trans hPrint⟩
  · obtain ⟨final, hRun, hGains⟩ :=
      h.ingest_misremembered s.retentionDays hRemembered hThere
    have hProgram : d.run s.program = _ := hRun
    rw [hProgram]
    exact ⟨.inl ⟨_, rfl⟩, hGains⟩

theorem advance_gains (h : d.Settled) (micros : Int) : d.Gains [] (d.advance micros) :=
  h.gains_of_same rfl rfl rfl rfl rfl (List.Subset.refl _) fun _ _ => .inl

/-- Whatever happens, at most the issue that comes next is opened. -/
theorem after_gains (h : d.Ready (k + 1)) (next : Later) :
    ∃ new, d.Opens new ∧ d.Gains new (next.after d) := by
  cases next with
  | wait micros => exact ⟨[], .inl rfl, advance_gains h.toSettled micros⟩
  | takeIn s =>
      by_cases hMisled : Misled d (.takeIn s)
      · exact ⟨[], .inl rfl, (misled h.toSettled hMisled).2⟩
      · exact ⟨_, d.opens_placed _ _, (guided h hMisled).2.1⟩

/-- What services remember besides the issues of their keys is what they did at first. -/
theorem stages_remember {other : Nat → CachedIssue → Prop} {later : List Later}
    (h : d.Ready later.length) (hRemembers : d.Remembers other) :
    ∀ stage ∈ stages d later, stage.1.Remembers other := by
  induction later generalizing d with
  | nil => exact fun stage hStage => (List.not_mem_nil hStage).elim
  | cons next rest ih =>
      obtain ⟨new, hOpens, hGains⟩ := after_gains h next
      refine List.forall_mem_cons.mpr ⟨hRemembers, ?_⟩
      exact ih (h.gains hGains hOpens) (hRemembers.gains hGains)

/-- Who is misled remembers something besides the issues of the keys. -/
theorem other_of_misled {other : Nat → CachedIssue → Prop} (h : d.Remembers other)
    (hMisled : Misled d (.takeIn s)) :
    ∃ known, other s.service.number known ∧ known.key = s.key := by
  obtain ⟨known, hRemembered, hOther⟩ := hMisled
  obtain ⟨hMem, hKey⟩ := (IssueCache.find_cases (d.caches s.service.number) s.service.policy
    d.elapsed (cacheKey s.projectId s.report.fingerprint)).2 known hRemembered
  rcases h _ known hMem with ⟨x, hx, hId, -, hIs⟩ | hKnown
  · obtain ⟨issue, hIssue, rfl⟩ := List.mem_map.mp hx
    exact absurd (cacheKey_injective (hIs.trans hKey)) (hOther issue hIssue hId)
  · exact ⟨known, hKnown, hKey⟩

/-- Where nothing but issues of their keys is remembered nobody is misled. -/
theorem not_misled (h : d.Remembers fun _ _ => False) (next : Later) : ¬Misled d next := by
  cases next with
  | wait micros => exact id
  | takeIn s =>
      intro hMisled
      obtain ⟨known, hNone, -⟩ := other_of_misled h hMisled
      exact hNone

/-- A report that is not misled fares as it does in a twin. -/
theorem alike {next : Later} (ha : a.Ready (k + 1)) (hb : b.Ready (k + 1)) (hTwins : a.Twins b)
    (hRemembers : b.Remembers fun _ _ => False) (hNot : ¬Misled a next) :
    next.outcome a = next.outcome b ∧ next.Filed a ∧ (next.after a).Twins (next.after b) := by
  cases next with
  | wait micros => exact ⟨rfl, trivial, hTwins⟩
  | takeIn s =>
      obtain ⟨hOutcomeA, hGainsA, hFiled⟩ := guided ha hNot
      obtain ⟨hOutcomeB, hGainsB, -⟩ := guided hb (not_misled hRemembers (.takeIn s))
      obtain ⟨hId, hCreated⟩ := hTwins.place s.projectId s.report.fingerprint
      refine ⟨?_, hFiled, hTwins.gains hGainsA hGainsB⟩
      rw [outcome, outcome, hOutcomeA, hOutcomeB, hId, hCreated]

/-- A report that is misled does not fare as it does in a twin, or is not filed where it belongs. -/
theorem apart {next : Later} (ha : a.Settled) (hb : b.Ready (k + 1))
    (hRemembers : b.Remembers fun _ _ => False) (hMisled : Misled a next)
    (hOutcome : next.outcome a = next.outcome b) : ¬next.Filed a := by
  cases next with
  | wait micros => exact hMisled.elim
  | takeIn s =>
      obtain ⟨hOk, -, -⟩ := guided hb (not_misled hRemembers (.takeIn s))
      rcases (misled ha hMisled).1 with ⟨e, hError⟩ | hElsewhere
      · rw [outcome, outcome, hOk, hError] at hOutcome
        cases hOutcome
      · exact hElsewhere

/-- Reports fare in one deployment as they do in its twin, where nothing but issues of their keys is
remembered, exactly when none of them is misled. -/
theorem follow {later : List Later} (ha : a.Ready later.length) (hb : b.Ready later.length)
    (hTwins : a.Twins b) (hRemembers : b.Remembers fun _ _ => False) :
    (outcomes a later = outcomes b later ∧ ∀ stage ∈ stages a later, stage.2.Filed stage.1) ↔
      ∀ stage ∈ stages a later, ¬stage.2.Misled stage.1 := by
  -- As long as nobody is misled, both sides open the same issues and stay twins.  The first report
  -- that is misled already fares differently, so nothing has to be known of what comes after it.
  induction later generalizing a b with
  | nil => exact ⟨fun _ stage hStage => (List.not_mem_nil hStage).elim,
      fun _ => ⟨rfl, fun stage hStage => (List.not_mem_nil hStage).elim⟩⟩
  | cons next rest ih =>
      obtain ⟨newA, hOpensA, hGainsA⟩ := after_gains ha next
      obtain ⟨newB, hOpensB, hGainsB⟩ := after_gains hb next
      have hRest := fun hTwins => ih (ha.gains hGainsA hOpensA) (hb.gains hGainsB hOpensB) hTwins
        (hRemembers.gains hGainsB)
      simp only [outcomes, stages, List.map_cons, List.cons.injEq, List.forall_mem_cons] at hRest ⊢
      constructor
      · rintro ⟨⟨hOutcome, hOutcomes⟩, hFiled, hAll⟩
        have hNot : ¬Misled a next := fun hMisled =>
          apart ha.toSettled hb hRemembers hMisled hOutcome hFiled
        obtain ⟨-, -, hStill⟩ := alike ha hb hTwins hRemembers hNot
        exact ⟨hNot, (hRest hStill).mp ⟨hOutcomes, hAll⟩⟩
      · rintro ⟨hNot, hAll⟩
        obtain ⟨hOutcome, hFiled, hStill⟩ := alike ha hb hTwins hRemembers hNot
        obtain ⟨hOutcomes, hRestFiled⟩ := (hRest hStill).mpr hAll
        exact ⟨⟨hOutcome, hOutcomes⟩, hFiled, hRestFiled⟩

end Later

open Later

/-- A report is taken in inside a unit of work on the registry, among other calls, and the unit
fails. Every later report fares as if the first one had not been submitted and is filed under an
issue of its own project and fingerprint, exactly when no later report is misled.  Only reports of
the same project and fingerprint that the same service takes in can be misled, and only if there was
no issue of these when the unit began. -/
theorem rollback_unnoticed_iff {d : Deployment} (h : d.Settled) (hGrouped : d.Grouped)
    (s : Submission) (before more : List RegistryCall) (failure : Failure) (later : List Later)
    (hFresh : (d.rolledBack before (some s) more failure).FreshNames later.length)
    (hFresh' : (d.rolledBack before none more failure).FreshNames later.length) :
    let a := d.rolledBack before (some s) more failure
    let b := d.rolledBack before none more failure
    ((outcomes a later = outcomes b later ∧ ∀ stage ∈ stages a later, stage.2.Filed stage.1) ↔
      ∀ stage ∈ stages a later, ¬stage.2.Misled stage.1) ∧
      ∀ stage ∈ stages a later, stage.2.Misled stage.1 → ∃ t, stage.2 = .takeIn t ∧
        t.service.number = s.service.number ∧ t.projectId = s.projectId ∧
          t.report.fingerprint = s.report.fingerprint ∧ ∀ issue ∈ d.registry.issues,
            ¬(issue.projectId = s.projectId ∧ issue.fingerprint = s.report.fingerprint) := by
  intro a b
  have hA : d.Restored (some s) a :=
    d.rolledBack_restored hGrouped h.staged h.logThere before (some s) more failure
  have hB : d.Restored none b :=
    d.rolledBack_restored hGrouped h.staged h.logThere before none more failure
  have hReady := hA.ready h hGrouped hFresh
  have hRemembers := hA.remembers_other hGrouped
  have hTwins : a.Twins b := by rw [Deployment.Twins, hA.registry, hB.registry]
  refine ⟨follow hReady (hB.ready h hGrouped hFresh') hTwins (hB.remembers hGrouped), ?_⟩
  intro stage hStage hMisled
  have hHere := stages_remember hReady hRemembers stage hStage
  obtain ⟨here, next⟩ := stage
  cases next with
  | wait micros => exact hMisled.elim
  | takeIn t =>
      obtain ⟨known, ⟨hService, hKey, hNone⟩, hKey'⟩ := other_of_misled hHere hMisled
      obtain ⟨hProject, hPrint⟩ := cacheKey_injective (hKey'.symm.trans hKey)
      refine ⟨t, rfl, hService, hProject, hPrint, fun issue hIssue hGroup => ?_⟩
      exact hNone issue.identity (List.mem_map_of_mem hIssue) (Prod.ext hGroup.1 hGroup.2)

instance decidableEqExcept {ε α : Type} [DecidableEq ε] [DecidableEq α] :
    DecidableEq (Except ε α)
  | .ok _, .ok _ => decidable_of_iff _ ⟨congrArg _, Except.ok.inj⟩
  | .error _, .error _ => decidable_of_iff _ ⟨congrArg _, Except.error.inj⟩
  | .ok _, .error _ => isFalse fun h => by cases h
  | .error _, .ok _ => isFalse fun h => by cases h

/-- What comes of each report, with the words of the failures. -/
def answers (d : Deployment) (later : List Later) : List (Option (Except String Receipt)) :=
  (outcomes d later).map (Option.map (Except.mapError Failure.message))

/-- A report about something else than the plain one. -/
def otherReport : Report := { plainReport with eventId := "e2", message := "crash" }

/-- A service that takes in the plain report. -/
def plainSubmission : Submission := ⟨⟨0, .usual⟩, 1, plainReport, 90⟩

/-- The same service takes in the other report. -/
def otherSubmission : Submission := { plainSubmission with report := otherReport }

/-- An empty deployment. -/
def emptyDeployment : Deployment := .initial ⟨10000000000000000⟩ false

theorem emptyDeployment_settled : emptyDeployment.Settled :=
  ⟨⟨rfl, rfl, rfl⟩, rfl, Registry.keyed_empty⟩

/-- The plain report is rolled back.  When it comes again its issue has been forgotten, and it is
filed as if it came for the first time. -/
theorem rolled_back_report_forgotten :
    let failure : Failure := .staged (.foreign "RuntimeError") "boom"
    let a := emptyDeployment.rolledBack [] (some plainSubmission) [] failure
    let b := emptyDeployment.rolledBack [] none [] failure
    let later := [.takeIn otherSubmission, .wait 300000001, .takeIn plainSubmission]
    emptyDeployment.Settled ∧ emptyDeployment.Grouped ∧ a.FreshNames 3 ∧ b.FreshNames 3 ∧
      outcomes a later = outcomes b later ∧
      answers a later = [some (.ok ⟨"e2", 1, true⟩), none, some (.ok ⟨"e1", 2, true⟩)] := by
  intro failure a b later
  have hGrouped := Deployment.grouped_initial ⟨10000000000000000⟩ false
  have hNames : a.FreshNames 3 := by decide +kernel
  have hNames' : b.FreshNames 3 := by decide +kernel
  have hIff := (rollback_unnoticed_iff emptyDeployment_settled hGrouped plainSubmission [] []
    failure later hNames hNames').1
  exact ⟨emptyDeployment_settled, hGrouped, hNames, hNames', (hIff.mpr (by decide +kernel)).1,
    by decide +kernel⟩

/-- The plain report is rolled back, but its issue is still remembered.  The report fails when it
comes again, although it would have been filed had it not come before; and once another issue has
got the identifier, the report is filed under that one. -/
theorem rolled_back_report_remembered :
    let failure : Failure := .staged (.foreign "RuntimeError") "boom"
    let a := emptyDeployment.rolledBack [] (some plainSubmission) [] failure
    let b := emptyDeployment.rolledBack [] none [] failure
    answers a [.takeIn plainSubmission] = [some (.error "issue 1 not found")] ∧
      answers b [.takeIn plainSubmission] = [some (.ok ⟨"e1", 1, true⟩)] ∧
      answers a [.takeIn otherSubmission, .takeIn plainSubmission] =
        [some (.ok ⟨"e2", 1, true⟩), some (.ok ⟨"e1", 1, false⟩)] := by
  decide +kernel

end Triage
