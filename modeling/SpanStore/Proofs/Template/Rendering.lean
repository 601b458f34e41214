import SpanStore.Proofs.Json.Indented
import SpanStore.Proofs.Json.Unambiguous
import SpanStore.Template.IndexTemplate

namespace SpanStore.Template

open Json (Value)

theorem printable_quantityValue {q : Quantity} (h : ∀ f, q = .real f → Binary64.isFinite f = true) :
    (quantityValue q).Printable := by
  cases q with
  | whole n => exact ⟨rfl, trivial⟩
  | real f => exact ⟨rfl, h f rfl⟩

theorem distinct_quantityValue (q : Quantity) : (quantityValue q).distinct = quantityValue q := by
  cases q <;> rfl

namespace IndexTemplate

variable (t : IndexTemplate) (b : Branch)

theorem printable_traceIdMapping : (t.traceIdMapping b).Printable := by
  have htext (s : String) : (Value.text s).Printable := ⟨rfl, trivial⟩
  unfold traceIdMapping
  split <;> cases b <;>
  simp [keyword, Value.printable_object_iff, htext]

theorem printable_render (hshards : ∀ f, t.shards = .real f → Binary64.isFinite f = true)
    (hreplicas : ∀ f, t.replicas = .real f → Binary64.isFinite f = true) :
    (t.render b).Printable := by
  have htext (s : String) : (Value.text s).Printable := ⟨rfl, trivial⟩
  have hbool (c : Bool) : (Value.bool c).Printable := ⟨rfl, trivial⟩
  have hint (n : Int) : (Value.int n).Printable := ⟨rfl, trivial⟩
  have hshards := printable_quantityValue hshards
  have hreplicas := printable_quantityValue hreplicas
  have htrace := t.printable_traceIdMapping b
  cases b <;>
  simp [render, settings, mappings, analysis, dynamicRules, nestedRule, nestedMapping, keyword,
    Value.printable_object_iff, Value.printable_list_iff, htext, hbool, hint, hshards, hreplicas,
    htrace]

theorem distinct_traceIdMapping : (t.traceIdMapping b).distinct = t.traceIdMapping b := by
  unfold traceIdMapping
  split <;> cases b <;> rfl

theorem distinct_render : (t.render b).distinct = t.render b := by
  have hshards := distinct_quantityValue t.shards
  have hreplicas := distinct_quantityValue t.replicas
  have htrace := t.distinct_traceIdMapping b
  cases b <;>
  simp [render, settings, mappings, analysis, dynamicRules, nestedRule, nestedMapping, keyword,
    Value.distinct, Value.distinctItems, Value.distinctMembers, Ordered.ofPairs, Ordered.put,
    hshards, hreplicas, htrace]

theorem render_template : ∃ members, t.render b = .object members ∧
    Ordered.get? "template" members = some (.text t.pattern) := ⟨_, rfl, rfl⟩

variable {t b}

theorem encodes_renderText_iff
    (hshards : ∀ f, t.shards = .real f → Binary64.isFinite f = true)
    (hreplicas : ∀ f, t.replicas = .real f → Binary64.isFinite f = true) {v : Value} :
    Json.Encodes v (Text.Utf8.encode (t.renderText b).toList) ↔ v = t.render b := by
  obtain ⟨hbytes, hfloats⟩ := t.printable_render b hshards hreplicas
  have htext := Json.Printer.valueText_indented .ascii 0 (t.render b) hbytes hfloats
  have hencodes : Json.Encodes (t.render b) (Text.Utf8.encode (t.renderText b).toList) := by
    rw [renderText, String.toList_ofList]
    exact ⟨_, .bare htext, rfl⟩
  constructor
  · intro hv
    exact hv.unique hencodes
  · rintro rfl
    exact hencodes

end IndexTemplate

end SpanStore.Template
