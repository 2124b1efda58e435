import Triage.Event.Ingestion
import Triage.Proofs.Deployment.Running
import Triage.Proofs.EventLog.Matching

/-!
# Searching for issues and listing their events

A query lists the events of an issue in whose message its texts are found as one phrase, and finds the
issues with an event that fits each of its tokens.  An issue of which it lists an event is found as
well, as long as each text of the query is found in the phrase (`findsListed_iff`).  It is unless an
earlier text has a NUL character, behind which the phrase is not read (`phraseHolds_of_notMem`).
-/

namespace Triage

namespace EventLog

/-- The issues that a query finds are those of the events that fit it. -/
theorem mem_groupIds {log : EventLog} {c : SearchCriteria} {groupId : Int} :
    groupId ∈ log.groupIds c ↔ ∃ e ∈ log.visible, e.record.groupId = groupId ∧
      e.record.projectId ∈ c.projectIds ∧ c.window.covers e.createdAt = true ∧
        ∀ token ∈ c.tokens, e.fits token = true := by
  simp only [groupIds, List.mem_mergeSort, List.mem_eraseDups, List.mem_map, List.mem_filter,
    Bool.and_eq_true, List.contains_iff_mem, List.all_eq_true]
  constructor
  · rintro ⟨e, ⟨he, ⟨hProject, hTime⟩, hFits⟩, hGroup⟩
    exact ⟨e, he, hGroup, hProject, hTime, hFits⟩
  · rintro ⟨e, he, hGroup, hProject, hTime, hFits⟩
    exact ⟨e, ⟨he, ⟨hProject, hTime⟩, hFits⟩, hGroup⟩

theorem mem_matching {log : EventLog} {c : EventsCriteria} {e : StoredEvent} :
    e ∈ log.matching c ↔ e ∈ log.visible ∧ e.record.groupId = c.groupId ∧
      c.window.opens e.createdAt = true ∧
        Text.FoundIn c.message e.record.message ∧
          (∀ f ∈ c.filters, e.meets f = true) ∧ e.record.projectId ∈ c.projectIds := by
  simp only [matching, List.mem_filter, Bool.and_eq_true, Text.isEmpty_or_isFoundIn_iff,
    decide_eq_true_eq, List.all_eq_true, List.contains_iff_mem, and_assoc]

end EventLog

/-- The window with its end holds what the window without it holds. -/
theorem Window.covers_of_opens {w : Window} {t : Instant} (h : w.opens t = true) :
    w.covers t = true := by
  rw [Window.opens, Bool.and_eq_true, decide_eq_true_eq, decide_eq_true_eq] at h
  rw [Window.covers, Bool.and_eq_true, decide_eq_true_eq, decide_eq_true_eq]
  exact ⟨h.1, Int.le_of_lt h.2⟩

namespace Search

/-- The texts of a query. -/
def texts (query : String) : List String := (tokenize query).filterMap Token.text?

theorem compile_phrase (query : String) : (compile query).phrase = " ".intercalate (texts query) :=
  rfl

theorem mem_texts {query text : String} : text ∈ texts query ↔ .text text ∈ tokenize query := by
  simp only [texts, List.mem_filterMap]
  constructor
  · rintro ⟨token, hToken, hText⟩
    cases token with
    | text value => exact Option.some.inj hText ▸ hToken
    | filter => cases hText
  · exact fun hToken => ⟨_, hToken, rfl⟩

theorem mem_filters {query : String} {f : TagFilter} :
    f ∈ (compile query).filters ↔ .filter f.tag f.negated ∈ tokenize query := by
  simp only [compile, List.mem_filterMap]
  constructor
  · rintro ⟨token, hToken, hFilter⟩
    cases token with
    | text => cases hFilter
    | filter tag negated => exact Option.some.inj hFilter ▸ hToken
  · exact fun hToken => ⟨_, hToken, rfl⟩

/-- A tag that is required is also forbidden, as far as hashes tell. -/
def Contradictory (filters : List TagFilter) : Prop :=
  ∃ f ∈ filters, ∃ g ∈ filters, f.negated = false ∧ g.negated = true ∧ f.tag.hash = g.tag.hash

theorem hasTag_congr {e : StoredEvent} {t u : Tag} (h : t.hash = u.hash) :
    e.hasTag t = e.hasTag u := by
  rw [StoredEvent.hasTag, h, StoredEvent.hasTag]

/-- No event meets filters that contradict each other. -/
theorem Contradictory.not_met {filters : List TagFilter} (h : Contradictory filters)
    (e : StoredEvent) : ¬∀ f ∈ filters, e.meets f = true := by
  obtain ⟨f, hf, g, hg, hRequired, hForbidden, hHash⟩ := h
  intro hMeets
  have hHas := (StoredEvent.meets_iff.mp (hMeets f hf)).mpr hRequired
  rw [hasTag_congr hHash] at hHas
  have hNot := (StoredEvent.meets_iff.mp (hMeets g hg)).mp hHas
  rw [hForbidden] at hNot
  cases hNot

end Search

namespace Events

open Search

variable {d : Deployment}

theorem run_eventLog (hStaged : d.staged = []) (hThere : d.events.dropped = false)
    (call : EventLogCall) (hQuestion : ∀ record, call ≠ .append record) :
    d.run (Program.eventLog call) = (.ok (d.events.apply call).1, d) := by
  rw [d.run_question hStaged call hQuestion, EventLog.run, hThere]
  rfl

/-- A deployment whose log holds some records, appended in their order. -/
def loggedDeployment (records : List EventRecord) : Deployment :=
  { Deployment.initial ⟨0⟩ false with events := records.foldl EventLog.append EventLog.empty }

/-- What listing does once it knows how many events there are. -/
def listCounted (c : EventsCriteria) (total : Nat) : Program (Nat × List StoredEvent) := do
  if total = 0 then return (0, [])
  let events : List StoredEvent ← Program.eventLog (.listEvents c)
  return (total, events)

theorem run_listCounted (hStaged : d.staged = []) (hThere : d.events.dropped = false)
    (c : EventsCriteria) (total : Nat) :
    ∃ events, (d.run (listCounted c total)).1 = .ok (total, events) := by
  unfold listCounted
  split
  next hNone =>
    rw [hNone]
    exact ⟨[], rfl⟩
  next =>
    have hEvents := run_eventLog hStaged hThere (.listEvents c) fun _ => nofun
    exact ⟨_, congrArg Prod.fst (Program.run_bind hEvents)⟩

/-- Listing tells how many events there are. -/
theorem run_list (hStaged : d.staged = []) (hThere : d.events.dropped = false)
    (c : EventsCriteria) :
    ∃ events, (d.run (list c)).1 = .ok (d.events.countEvents c, events) := by
  have hCount := run_eventLog hStaged hThere (.countEvents c) fun _ => nofun
  have hRun : d.run (list c) = d.run (listCounted c (d.events.countEvents c)) :=
    Program.run_bind hCount
  rw [hRun]
  exact run_listCounted hStaged hThere c _

/-- Nothing is listed when the tables are gone. -/
theorem run_list_dropped (hStaged : d.staged = []) (hGone : d.events.dropped = true)
    (c : EventsCriteria) : (d.run (list c)).1 = .error (.eventLog "count_events") := by
  have hCount : d.run (Program.eventLog (.countEvents c)) = (.error (.eventLog "count_events"), d) := by
    rw [d.run_question hStaged (.countEvents c) fun _ => nofun, EventLog.run, hGone]
    rfl
  exact congrArg Prod.fst (Program.run_bind_error hCount)

theorem run_search (hStaged : d.staged = []) (hThere : d.events.dropped = false) (query : String)
    (projectIds : List Int) (window : Window) :
    (d.run (search query projectIds window)).1 =
      .ok (d.events.groupIds ⟨projectIds, window, tokenize query⟩) :=
  congrArg Prod.fst (run_eventLog hStaged hThere
    (.groupIds ⟨projectIds, window, tokenize query⟩) fun _ => nofun)

/-- Of whatever issue a query lists events, it finds that issue. -/
def FindsListed (query : String) : Prop :=
  ∀ (d : Deployment) (projectId issueId : Int) (window : Window) (offset limit : Int) (total : Nat)
    (events : List StoredEvent), d.staged = [] →
      (d.run (list (queryCriteria projectId issueId query window offset limit))).1 =
        .ok (total, events) → 0 < total →
      ∃ issueIds, (d.run (search query [projectId] window)).1 = .ok issueIds ∧
        issueId ∈ issueIds

/-- Each text of a query is found in its phrase. -/
def PhraseHolds (query : String) : Prop :=
  ∀ text ∈ texts query, Text.FoundIn text (compile query).phrase

/-- The phrase holds the texts if none but the last has a NUL character. -/
theorem phraseHolds_of_notMem {query : String}
    (h : ∀ text ∈ (texts query).dropLast, '\x00' ∉ text.toList) : PhraseHolds query := by
  intro text hText
  rw [compile_phrase]
  exact Text.foundIn_intercalate h text hText

/-- An event that a query lists fits each of its tokens, if the phrase holds the texts. -/
theorem PhraseHolds.fits {query : String} (h : PhraseHolds query) {log : EventLog}
    {projectId issueId offset limit : Int} {window : Window} {e : StoredEvent}
    (he : e ∈ log.matching (queryCriteria projectId issueId query window offset limit)) :
    ∀ token ∈ tokenize query, e.fits token = true := by
  obtain ⟨-, -, -, hMessage, hFilters, -⟩ := EventLog.mem_matching.mp he
  intro token hToken
  cases token with
  | text value =>
      have hText := mem_texts.mpr hToken
      have hFound : Text.FoundIn value e.record.message :=
        (h value hText).trans hMessage fun hNul => Text.mem_intercalate hText hNul
      rw [StoredEvent.fits, Bool.or_eq_true]
      exact .inl (Text.isFoundIn_iff.mpr hFound)
  | filter tag negated => exact hFilters ⟨tag, negated⟩ (mem_filters.mpr hToken)

/-- An issue of which events are listed is found, if no event fails a token that it met as part of
the phrase. -/
theorem findsListed_of_fits {query : String}
    (h : ∀ (log : EventLog) (projectId issueId : Int) (window : Window) (offset limit : Int),
      ∀ e ∈ log.matching (queryCriteria projectId issueId query window offset limit),
        ∀ token ∈ tokenize query, e.fits token = true) : FindsListed query := by
  intro d projectId issueId window offset limit total events hStaged hList hSome
  cases hThere : d.events.dropped with
  | true =>
      rw [run_list_dropped hStaged hThere] at hList
      cases hList
  | false =>
      obtain ⟨page, hPage⟩ := run_list hStaged hThere
        (queryCriteria projectId issueId query window offset limit)
      obtain ⟨rfl, -⟩ := Prod.mk.inj (Except.ok.inj (hPage.symm.trans hList))
      obtain ⟨e, he⟩ := List.exists_mem_of_length_pos hSome
      obtain ⟨hVisible, hGroup, hTime, -, -, hProject⟩ := EventLog.mem_matching.mp he
      refine ⟨_, run_search hStaged hThere query [projectId] window, EventLog.mem_groupIds.mpr ?_⟩
      exact ⟨e, hVisible, hGroup, hProject, Window.covers_of_opens hTime,
        h d.events projectId issueId window offset limit e he⟩

/-- A record whose message is the phrase of a query and whose tags are the ones it requires. -/
def phraseRecord (query : String) : EventRecord :=
  ⟨"e1", 1, 1, ⟨0⟩, 90, "", "error", "", "", "", "", "", "", (compile query).phrase, "", "", "", "",
    [], (compile query).required.map TagFilter.tag⟩

/-- A deployment with that record in its log. -/
def phraseDeployment (query : String) : Deployment :=
  { Deployment.initial ⟨0⟩ false with events := EventLog.empty.append (phraseRecord query) }

/-- Filters that do not contradict each other are met by the tags that they require. -/
theorem meets_required {query : String} (h : ¬Contradictory (compile query).filters) :
    ∀ f ∈ (compile query).filters, ((phraseRecord query).stored 1).meets f = true := by
  intro f hf
  have hTag : ((phraseRecord query).stored 1).hasTag f.tag = true ↔
      ∃ g ∈ (compile query).filters, g.negated = false ∧ g.tag.hash = f.tag.hash := by
    rw [StoredEvent.hasTag_iff_hash rfl]
    simp [EventRecord.stored, phraseRecord, Query.required, and_assoc]
  rw [StoredEvent.meets_iff, hTag]
  constructor
  · rintro ⟨g, hg, hRequired, hHash⟩
    exact Bool.eq_false_iff.mpr fun hNegated => h ⟨g, hg, f, hf, hRequired, hNegated, hHash⟩
  · exact fun hNegated => ⟨f, hf, hNegated, rfl⟩

/-- The event of that record is listed, unless the filters contradict each other. -/
theorem phraseRecord_listed {query : String} (h : ¬Contradictory (compile query).filters)
    (offset limit : Int) :
    (phraseRecord query).stored 1 ∈ (phraseDeployment query).events.matching
      (queryCriteria 1 1 query ⟨⟨0⟩, ⟨1⟩⟩ offset limit) :=
  EventLog.mem_matching.mpr ⟨List.mem_singleton.mpr rfl, rfl, rfl,
    .refl _, meets_required h, List.mem_singleton.mpr rfl⟩

/-- If that event fits all tokens, the phrase holds the texts. -/
theorem phraseHolds_of_fits {query : String}
    (h : ∀ token ∈ tokenize query, ((phraseRecord query).stored 1).fits token = true) :
    PhraseHolds query := by
  intro text hText
  have hFits := h _ (mem_texts.mp hText)
  rw [StoredEvent.fits, Bool.or_eq_true, Text.isFoundIn_iff, Text.isFoundIn_iff] at hFits
  rcases hFits with hMessage | hTitle
  · exact hMessage
  · -- The title is empty.
    exact hTitle.of_empty _

/-- An issue of which a query lists events is found by it, exactly if the filters of the query
contradict each other or each of its texts is found in its phrase. -/
theorem findsListed_iff (query : String) :
    FindsListed query ↔ Contradictory (compile query).filters ∨ PhraseHolds query := by
  constructor
  · intro hFinds
    by_contra hNeither
    obtain ⟨hMet, hNotHeld⟩ := not_or.mp hNeither
    obtain ⟨events, hList⟩ := run_list (d := phraseDeployment query) rfl rfl
      (queryCriteria 1 1 query ⟨⟨0⟩, ⟨1⟩⟩ 0 50)
    obtain ⟨issueIds, hSearch, hFound⟩ := hFinds _ _ _ _ _ _ _ _ rfl hList
      (List.length_pos_of_mem (phraseRecord_listed hMet 0 50))
    rw [run_search rfl rfl] at hSearch
    obtain rfl := Except.ok.inj hSearch
    obtain ⟨e, he, -, -, -, hFits⟩ := EventLog.mem_groupIds.mp hFound
    obtain rfl : e = (phraseRecord query).stored 1 := List.mem_singleton.mp he
    exact hNotHeld (phraseHolds_of_fits hFits)
  · rintro (hContradictory | hPhrase)
    · refine findsListed_of_fits fun log projectId issueId window offset limit e he => ?_
      exact absurd (EventLog.mem_matching.mp he).2.2.2.2.1 (hContradictory.not_met e)
    · exact findsListed_of_fits fun _ _ _ _ _ _ _ he => hPhrase.fits he

/-- An issue of which a query lists events is found by it, exactly if the filters of the query
contradict each other or each of its texts is found in its phrase; and they are found there if no text
but the last has a NUL character. -/
theorem listed_issues_found (query : String) :
    (FindsListed query ↔ Contradictory (compile query).filters ∨ PhraseHolds query) ∧
      ((∀ text ∈ (texts query).dropLast, '\x00' ∉ text.toList) → FindsListed query) :=
  ⟨findsListed_iff query, fun hNul =>
    (findsListed_iff query).mpr (.inr (phraseHolds_of_notMem hNul))⟩

/-- A query with a phrase, a word and two filters. -/
theorem disk_issues_found :
    let query := "release:1.0.0 'disk full' ERROR !server_name:\"host a\""
    (∀ text ∈ (texts query).dropLast, '\x00' ∉ text.toList) ∧ FindsListed query := by
  intro query
  have hNul : ∀ text ∈ (texts query).dropLast, '\x00' ∉ text.toList := by decide +kernel
  exact ⟨hNul, (listed_issues_found query).2 hNul⟩

/-- A deployment with one event in its log. -/
def diskDeployment : Deployment :=
  { Deployment.initial ⟨0⟩ false with
    events := EventLog.empty.append (EventLog.taggedRecord "disk" []) }

/-- Two words, of which the first ends in a NUL character. -/
def nulQuery : String := "disk\x00 full"

/-- An event with the word before the NUL character is listed, but its issue is not found. -/
theorem word_behind_nul_not_found :
    (∃ events, (diskDeployment.run (list (queryCriteria 1 7 nulQuery ⟨⟨0⟩, ⟨2000⟩⟩ 0 50))).1 =
        .ok (1, events)) ∧
      (diskDeployment.run (search nulQuery [1] ⟨⟨0⟩, ⟨2000⟩⟩)).1 = .ok [] ∧
        ¬FindsListed nulQuery := by
  have hCount : diskDeployment.events.countEvents
      (queryCriteria 1 7 nulQuery ⟨⟨0⟩, ⟨2000⟩⟩ 0 50) = 1 := by decide +kernel
  have hNone : diskDeployment.events.groupIds ⟨[1], ⟨⟨0⟩, ⟨2000⟩⟩, tokenize nulQuery⟩ = [] := by
    decide +kernel
  obtain ⟨events, hList⟩ := run_list (d := diskDeployment) rfl rfl
    (queryCriteria 1 7 nulQuery ⟨⟨0⟩, ⟨2000⟩⟩ 0 50)
  have hSearch := run_search (d := diskDeployment) rfl rfl nulQuery [1] ⟨⟨0⟩, ⟨2000⟩⟩
  rw [hCount] at hList
  rw [hNone] at hSearch
  refine ⟨⟨events, hList⟩, hSearch, fun hFinds => ?_⟩
  obtain ⟨issueIds, hFound, hMem⟩ := hFinds _ _ _ _ _ _ _ _ rfl hList Nat.one_pos
  obtain rfl := Except.ok.inj (hSearch.symm.trans hFound)
  cases hMem

end Events
end Triage
