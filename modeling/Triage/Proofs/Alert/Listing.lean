import Triage.Alert.Management
import Triage.Proofs.Deployment.Responsive
import Triage.Proofs.Registry.AlertRows

/-!
# Listing the alerts of teams

A user sees the alerts of some teams, page after page.  Whatever the size of the pages, those from
the first one up to the first empty one hold every alert of these teams once, the newest first, and
none of any other team; every page tells how many there are (`teams_alerts_in_pages`).  What is
answered depends on the projects and on the alerts of these teams alone.

In the registry a listing that names no team is one of all teams, so a user of no team must not get
that far (`run_list`).
-/

namespace Triage

/-- An alert that a listing is about: it is of one of the teams, and of a project with the name, if
one is given. -/
structure Alert.Belongs (a : Alert) (r : Registry) (teamIds : List Int) (projectName : String) :
    Prop where
  team : a.teamId ∈ teamIds
  project : projectName ≠ "" → ∃ p ∈ r.projects, p.id = a.projectId ∧ p.name = projectName

namespace Registry

variable {r s : Registry} {teamIds : List Int} {projectName : String}

/-- The alerts of some teams, the newest first. -/
def alertsOf (r : Registry) (teamIds : List Int) (projectName : String) : List Alert :=
  newestFirst Alert.createdAt Alert.id
    (r.alerts.filter fun a => teamIds.contains a.teamId && r.isListed { projectName } a)

theorem isListed_iff {a : Alert} :
    r.isListed { projectName } a = true ↔
      (projectName ≠ "" → ∃ p ∈ r.projects, p.id = a.projectId ∧ p.name = projectName) := by
  simp [isListed, Classical.or_iff_not_imp_left]

theorem mem_listed_iff {a : Alert} :
    a ∈ r.alerts.filter (fun a => teamIds.contains a.teamId && r.isListed { projectName } a) ↔
      a ∈ r.alerts ∧ a.Belongs r teamIds projectName := by
  rw [List.mem_filter, Bool.and_eq_true, isListed_iff, List.contains_eq_mem, decide_eq_true_eq]
  exact and_congr_right fun _ => ⟨fun ⟨hTeam, hProject⟩ => ⟨hTeam, hProject⟩, fun h => ⟨h.1, h.2⟩⟩

theorem mem_alertsOf {a : Alert} :
    a ∈ r.alertsOf teamIds projectName ↔ a ∈ r.alerts ∧ a.Belongs r teamIds projectName := by
  rw [alertsOf, (newestFirst_perm ..).mem_iff, mem_listed_iff]

theorem Keyed.alertsOf_ids (h : r.Keyed) :
    ((r.alerts.filter fun a => teamIds.contains a.teamId && r.isListed { projectName } a).map
      Alert.id).Nodup :=
  h.alerts.sublist (List.filter_sublist.map _)

/-- All alerts that a listing is about, each once, the newest first, and their number. -/
structure Lists (r : Registry) (teamIds : List Int) (projectName : String) (total : Nat)
    (all : List Alert) : Prop where
  mem_iff : ∀ a, a ∈ all ↔ a ∈ r.alerts ∧ a.Belongs r teamIds projectName
  nodup : all.Nodup
  ordered : all.Pairwise (ComesBefore Alert.createdAt Alert.id)
  count : total = all.length

theorem Keyed.lists_alertsOf (h : r.Keyed) :
    r.Lists teamIds projectName (r.alertsOf teamIds projectName).length
      (r.alertsOf teamIds projectName) where
  mem_iff _ := mem_alertsOf
  nodup := (newestFirst_perm ..).nodup_iff.mpr h.alertsOf_ids.of_map
  ordered := pairwise_newestFirst h.alertsOf_ids
  count := rfl

/-- Two registries that differ only in alerts of other teams, as far as alerts and projects go. -/
structure SameFor (r s : Registry) (teamIds : List Int) : Prop where
  projects : ∀ p, p ∈ s.projects ↔ p ∈ r.projects
  alerts : ∀ a : Alert, a.teamId ∈ teamIds → (a ∈ s.alerts ↔ a ∈ r.alerts)

theorem SameFor.belongs_iff (h : r.SameFor s teamIds) {a : Alert} :
    a.Belongs s teamIds projectName ↔ a.Belongs r teamIds projectName := by
  constructor <;> rintro ⟨hTeam, hProject⟩
  · exact ⟨hTeam, by simpa only [h.projects] using hProject⟩
  · exact ⟨hTeam, by simpa only [h.projects] using hProject⟩

/-- The alerts of some teams are the same, whatever there is of other teams. -/
theorem SameFor.alertsOf_eq (h : r.SameFor s teamIds) (hKeyed : r.Keyed) (hKeyed' : s.Keyed) :
    s.alertsOf teamIds projectName = r.alertsOf teamIds projectName := by
  refine newestFirst_eq_of_perm hKeyed'.alertsOf_ids ?_
  rw [List.perm_ext_iff_of_nodup hKeyed'.alertsOf_ids.of_map hKeyed.alertsOf_ids.of_map]
  intro a
  rw [mem_listed_iff, mem_listed_iff, h.belongs_iff]
  exact and_congr_left fun hBelongs => h.alerts a hBelongs.team

end Registry

namespace Alerts

/-- The number of rows on a page, as it is asked for: at least one, and at most 100. -/
def rowsOnPage (pageSize : Int) : Nat := (min (max pageSize 1) maxPageSize).toNat

theorem rowsOnPage_eq (pageSize : Int) :
    (rowsOnPage pageSize : Int) = min (max pageSize 1) maxPageSize := by
  rw [rowsOnPage, maxPageSize]
  omega

theorem rowsOnPage_pos (pageSize : Int) : 0 < rowsOnPage pageSize := by
  rw [rowsOnPage, maxPageSize]
  omega

/-- The page with a number, counted from 1; numbers below that are taken for 1. -/
def pageOf (all : List Alert) (pageSize number : Int) : List Alert :=
  page ((max number 1 - 1) * rowsOnPage pageSize) (rowsOnPage pageSize) all

theorem pageOf_succ (all : List Alert) (pageSize : Int) (k : Nat) :
    pageOf all pageSize (k + 1) =
      page ((k : Int) * rowsOnPage pageSize) (rowsOnPage pageSize) all := by
  have hNumber : max ((k : Int) + 1) 1 - 1 = k := by omega
  rw [pageOf, hNumber]

theorem length_pageOf_le (all : List Alert) (pageSize number : Int) :
    (pageOf all pageSize number).length ≤ rowsOnPage pageSize := by
  have hLimit : ¬(rowsOnPage pageSize : Int) < 0 := by omega
  rw [pageOf, page, if_neg hLimit, Int.toNat_natCast]
  exact List.length_take_le ..

variable {d e : Deployment} {teamIds : List Int} {projectName : String}

/-- A listing is a page of the alerts of the teams, and tells how many they are. -/
theorem run_list (h : d.Responsive) (number pageSize : Int) :
    d.run (list teamIds projectName number pageSize) =
      (.ok (pageOf (d.registry.alertsOf teamIds projectName) pageSize number,
        (d.registry.alertsOf teamIds projectName).length), d) := by
  cases teamIds with
  | nil =>
      have hNone : d.registry.alertsOf [] projectName = [] :=
        List.eq_nil_iff_forall_not_mem.mpr fun a ha =>
          List.not_mem_nil (Registry.mem_alertsOf.mp ha).2.team
      rw [hNone, pageOf, page, List.drop_nil, List.take_nil, ite_self]
      rfl
  | cons team teams =>
      refine h.run_read ?_ rfl rfl
      simp only [Registry.apply, pageOf, rowsOnPage_eq]
      rfl

/-- A team's pages, whatever their size: no alert of another team is on any page, every page tells
the number of the alerts that belong to the listing, and the pages from the first one up to the
first empty one hold these alerts, each once and the newest first.  All of this is the same whatever
there is of other teams. -/
theorem teams_alerts_in_pages (h : d.Responsive) (hKeyed : d.registry.Keyed) (teamIds : List Int)
    (projectName : String) (pageSize : Int) :
    ∃ (pages : Int → List Alert) (total : Nat),
      (∀ number,
        d.run (list teamIds projectName number pageSize) = (.ok (pages number, total), d)) ∧
      (∀ number, (pages number).length ≤ min (max pageSize 1) maxPageSize) ∧
      (∀ number, ∀ a ∈ pages number, a.teamId ∈ teamIds) ∧
      (∃ n, EndsAfter (fun k : Nat => pages (k + 1)) n ∧
        Registry.Lists d.registry teamIds projectName total
          ((List.range n).flatMap fun k : Nat => pages (k + 1))) ∧
      ∀ e : Deployment, e.Responsive → e.registry.Keyed → d.registry.SameFor e.registry teamIds →
        ∀ number,
          (e.run (list teamIds projectName number pageSize)).1 = .ok (pages number, total) := by
  let all := d.registry.alertsOf teamIds projectName
  refine ⟨pageOf all pageSize, all.length, fun number => run_list h number pageSize,
    fun number => ?_, fun number a ha => ?_, ?_, fun e hResponsive hKeyed' hSame number => ?_⟩
  · rw [← rowsOnPage_eq]
    exact Int.ofNat_le.mpr (length_pageOf_le all pageSize number)
  · exact (Registry.mem_alertsOf.mp ((Registry.page_sublist ..).subset ha)).2.team
  · obtain ⟨n, hEnds⟩ := exists_endsAfter_page (rowsOnPage_pos pageSize) all
    have hAll := hEnds.flatMap_page (rowsOnPage_pos pageSize)
    simp only [← pageOf_succ] at hEnds hAll
    refine ⟨n, hEnds, ?_⟩
    rw [hAll]
    exact hKeyed.lists_alertsOf
  · rw [run_list hResponsive, hSame.alertsOf_eq hKeyed hKeyed']

/-- An alert of a team. -/
def teamAlert (team id created : Int) : Alert :=
  ⟨id, 1, team, "Spike", none, Alert.active, 1, 1, 4, false, none, none, ⟨created⟩, ⟨created⟩⟩

/-- Three alerts of team 1, the first two of one time, and others between them. -/
def sharedByTeams (others : List Alert) : Deployment :=
  { Deployment.initial ⟨10000000000000000⟩ false with
    registry := { Registry.empty with
      alerts := [teamAlert 1 1 1000, teamAlert 1 2 1000] ++ others ++ [teamAlert 1 4 2000] } }

/-- A team that is named twice still has three alerts, with and without those of another team. -/
theorem three_alerts_in_pages :
    let shared := sharedByTeams [teamAlert 2 3 1500]
    ∃ (pages : Int → List Alert) (total : Nat), total = 3 ∧
      (∀ number, shared.run (list [1, 1] "" number 2) = (.ok (pages number, total), shared)) ∧
      ∀ number,
        ((sharedByTeams []).run (list [1, 1] "" number 2)).1 = .ok (pages number, total) := by
  intro shared
  have hResponsive (others : List Alert) : (sharedByTeams others).Responsive :=
    ⟨rfl, rfl, fun u hOpen => by cases hOpen⟩
  have hSame : shared.registry.SameFor (sharedByTeams []).registry [1, 1] := by
    refine ⟨fun _ => Iff.rfl, fun a hTeam => ?_⟩
    have hNot : a ≠ teamAlert 2 3 1500 := by
      rintro rfl
      exact absurd hTeam (by decide)
    simp [shared, sharedByTeams, hNot]
  have hKeyed : shared.registry.Keyed := ⟨by decide, by decide, by decide⟩
  have hKeyed' : (sharedByTeams []).registry.Keyed := ⟨by decide, by decide, by decide⟩
  obtain ⟨pages, total, hRuns, -, -, ⟨n, -, hLists⟩, hOthers⟩ :=
    teams_alerts_in_pages (hResponsive _) hKeyed [1, 1] "" 2
  refine ⟨pages, total, ?_, hRuns, hOthers _ (hResponsive _) hKeyed' hSame⟩
  -- What is listed is, up to the order, what is stored of the team.
  have hStored : ((List.range n).flatMap fun k : Nat => pages (k + 1)).Perm
      (sharedByTeams []).registry.alerts := by
    refine (List.perm_ext_iff_of_nodup hLists.nodup (by decide)).mpr fun a => ?_
    rw [hLists.mem_iff]
    constructor
    · rintro ⟨hStored, hTeam, -⟩
      exact (hSame.alerts a hTeam).mpr hStored
    · intro hStored
      have hTeam : a.teamId ∈ [1, 1] :=
        (by decide : ∀ a ∈ (sharedByTeams []).registry.alerts, a.teamId ∈ [1, 1]) a hStored
      exact ⟨(hSame.alerts a hTeam).mp hStored, hTeam, fun hNamed => absurd rfl hNamed⟩
  rw [hLists.count, hStored.length_eq]
  rfl

end Alerts

end Triage
