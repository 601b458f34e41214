import SpanStore.Proofs.Bulk.Addition

namespace SpanStore.Bulk.Batch

open Json (Value)

def pairedBody (b : Batch) (as : List Addition) : List UInt8 :=
  (b.kept as).flatMap (Addition.entry b)

theorem pairedBody_eq_written {b : Batch} {as : List Addition}
    (h : ∀ a ∈ as, ¬ a.Stranded b) : b.pairedBody as = as.flatMap (Addition.written b) := by
  induction as with
  | nil => rfl
  | cons a as ih =>
      have hrest := ih fun c hc => h c (List.mem_cons_of_mem a hc)
      rw [List.flatMap_cons, ← hrest]
      rcases b.addOne_cases a with ⟨-, hw, f, hadd⟩ | ⟨hs, -⟩ | ⟨-, hw, hadd⟩
      · simp [pairedBody, kept, hadd, hw, Except.isOk, Except.toBool]
      · exact absurd hs (h a List.mem_cons_self)
      · simp [pairedBody, kept, hadd, hw, Except.isOk, Except.toBool]

theorem pairedBody_length_le (b : Batch) (as : List Addition) :
    (b.pairedBody as).length ≤ (as.flatMap (Addition.written b)).length := by
  induction as with
  | nil => simp [pairedBody, kept]
  | cons a as ih =>
      simp only [pairedBody, kept] at ih
      rcases b.addOne_cases a with ⟨-, hw, f, hadd⟩ | ⟨-, first, f, -, hw, hadd⟩ | ⟨-, hw, hadd⟩
      · simpa [pairedBody, kept, hadd, hw, Except.isOk, Except.toBool] using ih
      · simp only [pairedBody, kept, List.filter_cons, hadd, Except.isOk, Except.toBool,
          List.flatMap_cons, List.length_append] at ih ⊢
        exact Nat.le_trans ih (Nat.le_add_left _ _)
      · simpa [pairedBody, kept, hadd, hw, Except.isOk, Except.toBool] using ih

theorem pairedBody_length_lt {b : Batch} {as : List Addition} {a : Addition} (ha : a ∈ as)
    (hs : a.Stranded b) :
    (b.pairedBody as).length < (as.flatMap (Addition.written b)).length := by
  obtain ⟨before, after, rfl⟩ := List.append_of_mem ha
  have hbefore := b.pairedBody_length_le before
  have hafter := b.pairedBody_length_le after
  rcases b.addOne_cases a with ⟨hn, -⟩ | ⟨-, first, f, -, hw, hadd⟩ | ⟨hn, -⟩
  · exact absurd hs hn
  · have hnone : b.pairedBody (before ++ a :: after) =
        b.pairedBody before ++ b.pairedBody after := by
      simp [pairedBody, kept, hadd, Except.isOk, Except.toBool]
    simp only [hnone, List.flatMap_append, List.flatMap_cons, List.length_append, hw,
      List.length_singleton]
    omega
  · exact absurd hs hn

theorem pairedBody_eq_written_iff {b : Batch} {as : List Addition} :
    as.flatMap (Addition.written b) = b.pairedBody as ↔ ∀ a ∈ as, ¬ a.Stranded b := by
  constructor
  · intro h a ha hs
    have hlt := pairedBody_length_lt ha hs
    rw [h] at hlt
    exact Nat.lt_irrefl _ hlt
  · exact fun h => (pairedBody_eq_written h).symm

theorem request_body {b : Batch} {r : Http.Request} (h : b.request = .ok r) :
    r.body = some b.body := by
  unfold request at h
  split at h
  · cases h
  · cases h
    rfl

/-- A call that raises leaves the batch as it was exactly if it has not written a first line, and
a request carries exactly the lines of the documents that were added exactly if no call has left
a first line behind. -/
theorem add_restores_iff_not_stranded (b : Batch) :
    (∀ a f, (b.addOne a).1 = .error f →
      (((b.addOne a).2.body = b.body ∧ (b.addOne a).2.actions = b.actions ∧
        (b.addOne a).2.indices = b.indices) ↔ ¬ a.Stranded b)) ∧
    ∀ as r, b.body = [] → b.actions = [] → (b.addAll as).request = .ok r →
      (b.addAll as).actions = (b.kept as).map (Addition.action · b.typeName) ∧
      (r.body = some (b.pairedBody as) ↔ ∀ a ∈ as, ¬ a.Stranded b) := by
  refine ⟨fun a f hf => addOne_restores_iff hf, ?_⟩
  intro as r hbody hactions hr
  refine ⟨by simpa [hactions] using b.addAll_actions as, ?_⟩
  rw [request_body hr, b.addAll_body as, hbody, List.nil_append, Option.some.injEq]
  exact pairedBody_eq_written_iff

def spans : Batch := ⟨⟨"http://localhost:9200", {}⟩, "span", none, false, documentLine, [], []⟩

def rawDocument : Addition := ⟨"traces-a", .object [("key", .bytes [0])], .null⟩

def plainDocument : Addition := ⟨"traces-b", .object [("n", .int 7)], .null⟩

theorem rawDocument_stranded : rawDocument.Stranded spans := by
  refine ⟨by decide, ⟨_, rfl⟩, .bytesInDocument, ?_⟩
  rfl

theorem add_restores_iff_not_stranded_spans :
    (∃ f, (spans.addOne rawDocument).1 = .error f ∧
      ¬ ((spans.addOne rawDocument).2.body = spans.body ∧
        (spans.addOne rawDocument).2.actions = spans.actions ∧
        (spans.addOne rawDocument).2.indices = spans.indices)) ∧
    ∃ r, (spans.addAll [rawDocument, plainDocument]).request = .ok r ∧
      r.body ≠ some (spans.pairedBody [rawDocument, plainDocument]) := by
  have hraises : (spans.addOne rawDocument).1 = .error .bytesInDocument := rfl
  refine ⟨⟨_, hraises, fun h => ?_⟩, _, rfl, fun h => ?_⟩
  · exact ((add_restores_iff_not_stranded spans).1 _ _ hraises).mp h rawDocument_stranded
  · exact (((add_restores_iff_not_stranded spans).2 [rawDocument, plainDocument] _ rfl rfl
      rfl).2.mp h) rawDocument (by simp) rawDocument_stranded

/-- A call that raised has left a first line, and what follows it in the body is not the line of
its document but the first line of the next one. -/
theorem stranded_line_takes_next :
    (∃ f, (spans.addOne rawDocument).1 = .error f) ∧
    (spans.addOne rawDocument).2.body ≠ spans.body ∧
    (spans.addAll [rawDocument, plainDocument]).actions = [plainDocument.action "span"] ∧
    ∃ first next document, (rawDocument.action "span").line = .ok first ∧
      (plainDocument.action "span").line = .ok next ∧
      documentLine plainDocument.document = .ok document ∧
      (spans.addAll [rawDocument, plainDocument]).body =
        first ++ [newline] ++ next ++ [newline] ++ document ++ [newline] := by
  refine ⟨⟨_, rfl⟩, ?_, rfl, _, _, _, rfl, rfl, rfl, rfl⟩
  rcases spans.addOne_cases rawDocument with ⟨hn, -⟩ | ⟨-, first, f, -, -, h⟩ | ⟨hn, -⟩
  · exact absurd rawDocument_stranded hn
  · simp [h]
  · exact absurd rawDocument_stranded hn

end SpanStore.Bulk.Batch
