import Triage.Log.Line
import Triage.Proofs.Json.Printable

/-!
# Log lines say what was logged

Whatever the texts of a record are, its line is printable ASCII, so it is one line, and there is one
way to decode it, which gives the members of the record with every text as it was (`line_faithful`).
-/

namespace Triage.Log.Record

open Json (FiniteNumbers Printable SpellsText)

/-- The members that stand for what a record is about: each key of the list that has a value other
than null, once and in the order of the list. -/
structure Subjects (r : Record) (members : List (String × Json)) : Prop where
  ordered : (members.map Prod.fst).Sublist subjectKeys
  mem_iff : ∀ key value, (key, value) ∈ members ↔
    key ∈ subjectKeys ∧ value.isNull = false ∧ r.subjects.get? key = some value

variable {r : Record} {correlation : Option String}

/-- The member under a key, if its value is not null. -/
theorem presentSubject_eq_some {j : Json} {key : String} {m : String × Json} :
    (match j.getD key with
      | .null => none
      | value => some (key, value)) = some m ↔
      m.1 = key ∧ m.2.isNull = false ∧ j.get? key = some m.2 := by
  obtain ⟨name, value⟩ := m
  rw [Json.getD]
  cases hGet : j.get? key with
  | none => simp
  | some found =>
      rw [Option.getD_some]
      cases found <;> simp [Json.isNull] <;> grind

theorem subjects_presentSubjects (r : Record) : r.Subjects r.presentSubjects where
  ordered := by
    rw [presentSubjects]
    generalize subjectKeys = keys
    induction keys with
    | nil => exact .slnil
    | cons key keys ih =>
        rw [List.filterMap_cons]
        split
        next => exact ih.cons _
        next m hm =>
          obtain ⟨hKey, -⟩ := presentSubject_eq_some.mp hm
          rw [List.map_cons, hKey]
          exact ih.cons_cons key
  mem_iff key value := by
    rw [presentSubjects, List.mem_filterMap]
    constructor
    · rintro ⟨_, hKey, hSome⟩
      obtain ⟨rfl, hNull, hGet⟩ := presentSubject_eq_some.mp hSome
      exact ⟨hKey, hNull, hGet⟩
    · rintro ⟨hKey, hNull, hGet⟩
      exact ⟨key, hKey, presentSubject_eq_some.mpr ⟨rfl, hNull, hGet⟩⟩

/-- The members of a record under a correlation identifier, with those for what it is about. -/
def members (r : Record) (correlation : Option String) (subjects : List (String × Json)) :
    List (String × Json) :=
  [("timestamp", .str r.time.lineStamp), ("level", .str (levelName r.level)),
    ("correlation_id", match correlation with | some id => .str id | none => .null),
    ("module", .str r.source), ("message", .str r.message)] ++
  (match r.error with | some text => [("exception", .str text)] | none => []) ++ subjects

theorem document_eq (r : Record) (correlation : Option String) :
    r.document correlation = .obj (r.members correlation r.presentSubjects) := by
  unfold document members
  cases r.error <;> cases correlation <;> rfl

theorem writable_document
    (hNumbers : ∀ key ∈ subjectKeys, ∀ value, r.subjects.get? key = some value →
      FiniteNumbers value) : Json.Writable (r.document correlation) := by
  refine .obj fun m hm => ?_
  rw [List.mem_append, List.mem_append] at hm
  rcases hm with (hFixed | hError) | hSubject
  · simp only [List.mem_cons, List.not_mem_nil, or_false] at hFixed
    rcases hFixed with rfl | rfl | rfl | rfl | rfl
    · exact .str _
    · exact .str _
    · cases correlation
      · exact .null
      · exact .str _
    · exact .str _
    · exact .str _
  · obtain ⟨text, -, rfl⟩ := List.mem_map.mp hError
    exact .str text
  · obtain ⟨hKey, -, hGet⟩ := ((subjects_presentSubjects r).mem_iff m.1 m.2).mp hSubject
    exact (hNumbers m.1 hKey m.2 hGet).writable

/-- No key stands twice in a line. -/
theorem nodup_members {subjects : List (String × Json)} (h : r.Subjects subjects) :
    ((r.members correlation subjects).map Prod.fst).Nodup := by
  have hKeys : (["timestamp", "level", "correlation_id", "module", "message", "exception"] ++
      subjectKeys).Nodup := by decide
  refine List.Nodup.sublist ?_ hKeys
  unfold members
  rw [List.map_append, List.map_append]
  refine List.Sublist.append ?_ h.ordered
  cases r.error
  · exact List.Sublist.append (List.Sublist.refl _) (List.nil_sublist ["exception"])
  · exact List.Sublist.refl _

/-- The line of a record consists of printable ASCII characters and is decoded in one way, to an
object with the time, the level, the correlation identifier or null, the source and the message, the
text of the error if there is one, and each known identifier with a value other than null; no key
stands twice.  The values of identifiers may be any JSON values, with numbers in the range of the
format. -/
theorem line_faithful (r : Record) (correlation : Option String)
    (hNumbers : ∀ key ∈ subjectKeys, ∀ value, r.subjects.get? key = some value →
      FiniteNumbers value) :
    Printable (r.line correlation).toList ∧
      ∃ subjects, r.Subjects subjects ∧
        ((r.members correlation subjects).map Prod.fst).Nodup ∧
        Json.parse? (r.line correlation) = some (.obj (r.members correlation subjects)) ∧
        ∀ j, SpellsText j (r.line correlation) ↔ j = .obj (r.members correlation subjects) := by
  have hSubjects := subjects_presentSubjects r
  have hSpells :
      SpellsText (.obj (r.members correlation r.presentSubjects)) (r.line correlation) := by
    rw [← document_eq]
    exact Json.spellsText_render .line (writable_document hNumbers)
  refine ⟨?_, r.presentSubjects, hSubjects, nodup_members hSubjects, hSpells.parse?_eq, fun j => ?_⟩
  · rw [line, Json.render, String.toList_ofList]
    exact Json.printable_write _
  · exact ⟨fun hOther => hOther.unique hSpells, fun hIs => hIs ▸ hSpells⟩

/-- A record whose texts could be taken for more than one line, and whose identifier is a half. -/
def forgery : Record where
  time := Instant.ofDate ⟨2026, 1, 15⟩ 12 0 0 0
  level := 40
  source := "triage.worker"
  message := "failed\n\"level\": \"INFO\", \u00e9 😀"
  error := some "ValueError: \x7f"
  subjects := .obj [
    ("alert_id", .decimal (Binary64.shortest (Float.ofBits 0x3FE0000000000000))),
    ("issue_id", .null), ("other", .int 1)]

/-- The only identifier of the record with a value is a number in the range of the format. -/
theorem forgery_faithful :
    (∀ key ∈ subjectKeys, ∀ value, forgery.subjects.get? key = some value → FiniteNumbers value) ∧
      Printable (forgery.line none).toList ∧
      ∃ subjects, forgery.Subjects subjects ∧
        ((forgery.members none subjects).map Prod.fst).Nodup ∧
        Json.parse? (forgery.line none) = some (.obj (forgery.members none subjects)) ∧
        ∀ j, SpellsText j (forgery.line none) ↔ j = .obj (forgery.members none subjects) := by
  have hSubjects : FiniteNumbers forgery.subjects := by
    refine .obj fun m hm => ?_
    simp only [List.mem_cons, List.not_mem_nil, or_false] at hm
    rcases hm with rfl | rfl | rfl
    · exact .decimal ⟨_, by decide, rfl⟩
    · exact .null
    · exact .int 1
  have hNumbers : ∀ key ∈ subjectKeys, ∀ value, forgery.subjects.get? key = some value →
      FiniteNumbers value := fun _ _ _ hGet => hSubjects.get? hGet
  exact ⟨hNumbers, line_faithful forgery none hNumbers⟩

end Triage.Log.Record
