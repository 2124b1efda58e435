import Triage.Proofs.Json.Written
import Triage.Proofs.Text.Utf8
import Triage.Webhook.Payload

/-!
# Bodies of webhook requests

Receivers of a webhook decode the body as UTF-8 and then as JSON.  Whatever the texts and the numbers
of an alert are, there is one way to do so, and it gives an object with the ten fields of the payload
in their order (`body_faithful`).  So a signature of the body vouches for every field.
-/

namespace Triage.Webhook.Payload

theorem writable_document (p : Payload) : Json.Writable p.document := by
  refine .obj fun m hm => ?_
  simp only [List.mem_cons, List.not_mem_nil, or_false] at hm
  rcases hm with rfl | rfl | rfl | rfl | rfl | rfl | rfl | rfl | rfl | rfl <;> constructor

theorem document_injective {p q : Payload} (h : p.document = q.document) : p = q := by
  obtain ⟨⟩ := p
  obtain ⟨⟩ := q
  simpa [document] using h

/-- No two payloads have the same bytes. -/
theorem bytes_injective {p q : Payload} (h : p.bytes = q.bytes) : p = q :=
  document_injective (Json.render_injective p.writable_document q.writable_document
    (Text.utf8_injective h))

/-- The bytes that are sent about an alert are UTF-8 for a JSON text, which spells one value only,
an object with the fields of the payload in their order, and no other payload is sent as these
bytes. -/
theorem body_faithful (a : Alert) (status : String) (now : Instant) :
    let p := ofAlert a status now
    let decoded : Json := .obj [
      ("timestamp", .str now.rfc3339), ("alert_name", .str a.ruleName), ("status", .str status),
      ("condition", .str (Rule.conditionName a.condition)),
      ("timeframe", .str (Rule.timeframeName a.timeframe)), ("alert_id", .int a.id),
      ("project_id", .int a.projectId), ("team_id", .int a.teamId),
      ("threshold", .int a.threshold), ("high_priority", .bool a.highPriority)]
    (∃ text, Text.decodeUtf8? p.bytes = some text ∧ Json.parse? text = some decoded ∧
      ∀ j, Json.SpellsText j text ↔ j = decoded) ∧
    ∀ q : Payload, q.bytes = p.bytes → q = p := by
  intro p decoded
  have hSpells : Json.SpellsText decoded p.body :=
    Json.spellsText_render .compact p.writable_document
  refine ⟨⟨p.body, Text.decodeUtf8?_utf8 p.body, hSpells.parse?_eq, fun j => ?_⟩, fun q hSame => ?_⟩
  · exact ⟨fun hOther => hOther.unique hSpells, fun hIs => hIs ▸ hSpells⟩
  · exact bytes_injective hSame

end Triage.Webhook.Payload
