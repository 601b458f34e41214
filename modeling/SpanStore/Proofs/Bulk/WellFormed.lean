import SpanStore.Proofs.Bulk.Lines
import SpanStore.Proofs.Json.WellFormed

namespace SpanStore.Bulk

open Json (Value WellFormed)

theorem documentLine_wellFormed_iff {v : Value} (hv : v.Structured) {line : List UInt8}
    (h : documentLine v = .ok line) :
    WellFormed line ↔ v.AllFloats (Binary64.isFinite ·) := by
  rw [documentLine_structured hv] at h
  split at h
  · cases h
  · rename_i hbytes
    obtain rfl := Except.ok.inj h
    exact Value.wellFormed_compactBytes_iff .unicode (Bool.eq_false_iff.mpr hbytes)

/-- Every line of a body is one JSON text. -/
def Parsable (body : List UInt8) : Prop := ∀ line ∈ (pieces body).dropLast, WellFormed line

theorem Entry.wellFormed_firstLine (typeName : String) (e : Entry) :
    WellFormed (e.firstLine typeName) := by
  have hexact := e.metadata_exact typeName Json.FitsReader
  exact (Value.wellFormed_compactBytes_iff .ascii hexact.holdsBytes_eq).mpr (hexact.allFloats _)

theorem parsable_joined_iff (typeName : String) {es : List Entry}
    (h : ∀ e ∈ es, documentLine e.document = .ok e.secondLine) :
    Parsable (joined (Entry.lines typeName es)) ↔
      ∀ e ∈ es, e.document.AllFloats (Binary64.isFinite ·) := by
  rw [Parsable, pieces_joined (Entry.lines_no_newline typeName es), List.dropLast_concat]
  constructor
  · intro hlines e he
    rw [← documentLine_wellFormed_iff e.structured (h e he)]
    exact hlines _ (List.mem_flatMap.mpr ⟨e, he, by simp⟩)
  · intro hfloats line hline
    obtain ⟨e, he, hmem⟩ := List.mem_flatMap.mp hline
    simp only [List.mem_cons, List.not_mem_nil, or_false] at hmem
    rcases hmem with rfl | rfl
    · exact e.wellFormed_firstLine typeName
    · exact (documentLine_wellFormed_iff e.structured (h e he)).mpr (hfloats e he)

namespace Batch

/-- When every call returns, the line of a document is JSON exactly if all its floating-point
numbers are finite, and the body can be read exactly if that holds of all its documents. -/
theorem addAll_parsable_iff {client : Http.Client} {typeName : String} {pipeline : Option String}
    {flushOnWrites : Bool} {b : Batch}
    (hb : create client typeName pipeline flushOnWrites documentLine = .ok b) {es : List Entry}
    (h : b.AllReturn (es.map Entry.addition)) :
    (∀ v : Value, v.Structured → ∀ line, documentLine v = .ok line →
      (WellFormed line ↔ v.AllFloats (Binary64.isFinite ·))) ∧
    (Parsable (b.addAll (es.map Entry.addition)).body ↔
      ∀ e ∈ es, e.document.AllFloats (Binary64.isFinite ·)) := by
  refine ⟨fun v hv line => documentLine_wellFormed_iff hv, ?_⟩
  unfold create at hb
  split at hb
  · cases hb
  · cases hb
    obtain ⟨hlines, hbody, -⟩ := addAll_lines rfl h
    rw [hbody]
    exact parsable_joined_iff typeName hlines

def unmeasured : Entry where
  index := "spans"
  id := none
  document := .object [("duration", .float (Float.ofBits 0x7FF8000000000000))]
  structured := trivial

theorem unmeasured_not_finite :
    ¬ unmeasured.document.AllFloats (Binary64.isFinite ·) := by
  intro h
  have hduration : Binary64.isFinite (Float.ofBits 0x7FF8000000000000) = true := h.1
  exact absurd hduration (by decide)

theorem addAll_parsable_iff_unmeasured :
    create ⟨"http://localhost:9200", {}⟩ "span" none false documentLine = .ok spans ∧
      spans.AllReturn ([troubled, unmeasured].map Entry.addition) ∧
      ¬ Parsable (spans.addAll ([troubled, unmeasured].map Entry.addition)).body := by
  have hcreate : create ⟨"http://localhost:9200", {}⟩ "span" none false documentLine =
      .ok spans := rfl
  have hreturn : spans.AllReturn ([troubled, unmeasured].map Entry.addition) :=
    ⟨rfl, rfl, trivial⟩
  refine ⟨hcreate, hreturn, fun hbody => unmeasured_not_finite ?_⟩
  exact (addAll_parsable_iff hcreate hreturn).2.mp hbody unmeasured (by simp)

theorem unmeasured_not_wellFormed : unmeasured.document.Structured ∧
    documentLine unmeasured.document = .ok unmeasured.secondLine ∧
    unmeasured.secondLine = Text.Utf8.encode "\x7b\"duration\":NaN\x7d".toList ∧
    ¬ WellFormed unmeasured.secondLine := by
  have hline : documentLine unmeasured.document = .ok unmeasured.secondLine := rfl
  refine ⟨trivial, hline, rfl, fun h => unmeasured_not_finite ?_⟩
  exact (documentLine_wellFormed_iff unmeasured.structured hline).mp h

end Batch

end SpanStore.Bulk
