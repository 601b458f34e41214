import SpanStore.Proofs.Bulk.Lines

namespace SpanStore

open Json (Value)

namespace Bulk

structure Submission where
  index : String
  id : Option String
  document : Value

namespace Submission

def addition (s : Submission) : Addition := ⟨s.index, s.document, s.id.elim .null .text⟩

def heading (s : Submission) : Entry := ⟨s.index, s.id, .null, trivial⟩

def given? (s : Submission) : Option (List UInt8) :=
  match s.document with
  | .text t => some (Text.Utf8.encode t.toList)
  | .bytes bs => some bs
  | _ => none

def secondLine (s : Submission) : List UInt8 :=
  s.given?.getD (s.document.compactBytes .unicode)

theorem action_line (typeName : String) (s : Submission) :
    (s.addition.action typeName).line = .ok (s.heading.firstLine typeName) :=
  s.heading.action_line typeName

theorem documentLine_eq {s : Submission} {line : List UInt8}
    (h : documentLine s.document = .ok line) : line = s.secondLine := by
  obtain ⟨index, id, document⟩ := s
  by_cases hstructured : document.Structured
  · have hline : line = document.compactBytes .unicode :=
      Entry.documentLine_eq (e := ⟨index, id, document, hstructured⟩) h
    cases document <;> first | exact hline | exact hstructured.elim
  · cases document with
    | text t => exact (Except.ok.inj h).symm
    | bytes bs => exact (Except.ok.inj h).symm
    | _ => exact absurd trivial hstructured

theorem newline_mem_secondLine_iff (s : Submission) :
    Batch.newline ∈ s.secondLine ↔ ∃ bs, s.given? = some bs ∧ Batch.newline ∈ bs := by
  unfold secondLine
  cases s.given? with
  | some bs => simp
  | none =>
      have hprinted : Batch.newline ∉ s.document.compactBytes .unicode :=
        fun h => absurd (s.document.compactBytes_no_control .unicode _ h) (by decide)
      simp [hprinted]

def lines (typeName : String) (ss : List Submission) : List (List UInt8) :=
  ss.flatMap fun s => [s.heading.firstLine typeName, s.secondLine]

end Submission

/-- Two newlines for each document, and the whole of each document on its second line. -/
structure Framed (ss : List Submission) (body : List UInt8) : Prop where
  count : body.count Batch.newline = 2 * ss.length
  document : ∀ i s, ss[i]? = some s →
    ∃ line, (pieces body)[2 * i + 1]? = some line ∧ documentLine s.document = .ok line

theorem count_joined (lines : List (List UInt8)) :
    (joined lines).count Batch.newline = lines.length + lines.flatten.count Batch.newline := by
  induction lines with
  | nil => rfl
  | cons line lines ih =>
      rw [joined] at ih ⊢
      simp only [List.flatMap_cons, List.flatten_cons, List.count_append, List.count_singleton_self,
        List.length_cons, ih]
      omega

namespace Batch

theorem written_submission {b : Batch} (hs : b.serialize = documentLine) {s : Submission}
    (h : (b.addOne s.addition).1 = .ok ()) :
    documentLine s.document = .ok s.secondLine ∧
      s.addition.written b = joined [s.heading.firstLine b.typeName, s.secondLine] :=
  written_of_lines hs (s.action_line b.typeName) (fun _ => Submission.documentLine_eq) h

end Batch

theorem Submission.newline_not_mem_lines (typeName : String) {ss : List Submission}
    (h : ∀ s ∈ ss, Batch.newline ∉ s.secondLine) :
    ∀ line ∈ lines typeName ss, Batch.newline ∉ line := by
  intro line hline
  obtain ⟨s, hs, hline⟩ := List.mem_flatMap.mp hline
  simp only [List.mem_cons, List.not_mem_nil, or_false] at hline
  rcases hline with rfl | rfl
  · exact Entry.lines_no_newline typeName [s.heading] _ List.mem_cons_self
  · exact h s hs

theorem framed_of_lines (typeName : String) {ss : List Submission}
    (hdocument : ∀ s ∈ ss, documentLine s.document = .ok s.secondLine)
    (hline : ∀ s ∈ ss, Batch.newline ∉ s.secondLine) :
    Framed ss (joined (Submission.lines typeName ss)) := by
  have hbare := Submission.newline_not_mem_lines typeName hline
  have hlength : (Submission.lines typeName ss).length = 2 * ss.length :=
    length_flatMap_pair _ _ ss
  constructor
  · have hnone : (Submission.lines typeName ss).flatten.count Batch.newline = 0 := by
      rw [List.count_eq_zero, List.mem_flatten]
      rintro ⟨line, hmem, hnewline⟩
      exact hbare line hmem hnewline
    rw [count_joined, hnone, hlength, Nat.add_zero]
  · intro i s hs
    have hi : i < ss.length := (List.getElem?_eq_some_iff.mp hs).1
    refine ⟨s.secondLine, ?_, hdocument s (List.mem_of_getElem? hs)⟩
    rw [pieces_joined hbare, List.getElem?_append_left (by omega), Submission.lines,
      (getElem?_flatMap_pair _ _ ss i).2, hs]
    rfl

theorem newline_not_mem_of_framed {typeName : String} {ss : List Submission}
    (h : Framed ss (joined (Submission.lines typeName ss))) :
    ∀ s ∈ ss, Batch.newline ∉ s.secondLine := by
  intro s hs hnewline
  have hlength : (Submission.lines typeName ss).length = 2 * ss.length :=
    length_flatMap_pair _ _ ss
  have hcount := h.count
  rw [count_joined, hlength] at hcount
  have hnone : Batch.newline ∉ (Submission.lines typeName ss).flatten := by
    rw [← List.count_eq_zero]
    omega
  apply hnone
  refine List.mem_flatten.mpr ⟨s.secondLine, ?_, hnewline⟩
  exact List.mem_flatMap.mpr ⟨s, hs, by simp⟩

namespace Batch

/-- The lines of a batch are two for each document exactly if no text or bytes that were given
for one have a newline, and the request carries them. -/
theorem addAll_framed_iff {client : Http.Client} {typeName : String} {pipeline : Option String}
    {flushOnWrites : Bool} {b : Batch}
    (hb : create client typeName pipeline flushOnWrites documentLine = .ok b)
    {ss : List Submission} (h : b.AllReturn (ss.map Submission.addition)) :
    (Framed ss (b.addAll (ss.map Submission.addition)).body ↔
      ∀ s ∈ ss, ∀ bs, s.given? = some bs → newline ∉ bs) ∧
    (ss ≠ [] → ∃ r, (b.addAll (ss.map Submission.addition)).request = .ok r ∧
      r.body = some (b.addAll (ss.map Submission.addition)).body) := by
  unfold create at hb
  split at hb
  · cases hb
  · cases hb
    have hreturn := allReturn_iff.mp h
    have hwritten : ∀ s ∈ ss, _ :=
      fun s hs => written_submission rfl (hreturn _ (List.mem_map_of_mem hs))
    constructor
    · have hgiven : (∀ s ∈ ss, newline ∉ s.secondLine) ↔
          ∀ s ∈ ss, ∀ bs, s.given? = some bs → newline ∉ bs := by
        simp only [Submission.newline_mem_secondLine_iff, not_exists, not_and]
      rw [addAll_body_of_pairs fun s hs => (hwritten s hs).2, List.nil_append, ← hgiven]
      exact ⟨newline_not_mem_of_framed, framed_of_lines typeName fun s hs => (hwritten s hs).1⟩
    · intro hss
      apply request_ok
      rw [addAll_actions_of_returns hreturn]
      simpa using hss

def forms : List Submission :=
  [⟨"traces-a", none, .object [("n", .text "a\nb")]⟩, ⟨"traces-b", some "1", .text "[1, 2]"⟩,
    ⟨"traces-a", none, .bytes [0x37]⟩]

theorem addAll_framed_iff_forms :
    create ⟨"http://localhost:9200", {}⟩ "span" none false documentLine = .ok spans ∧
      spans.AllReturn (forms.map Submission.addition) ∧
      Framed forms (spans.addAll (forms.map Submission.addition)).body := by
  have hcreate : create ⟨"http://localhost:9200", {}⟩ "span" none false documentLine =
      .ok spans := rfl
  have hreturn : spans.AllReturn (forms.map Submission.addition) := ⟨rfl, rfl, rfl, trivial⟩
  have hgiven : ∀ s ∈ forms, ∀ bs, s.given? = some bs → newline ∉ bs := by
    simp only [forms, List.forall_mem_cons]
    refine ⟨?_, ?_, ?_, List.forall_mem_nil _⟩
    · rintro bs ⟨⟩
    · rintro bs ⟨⟩
      decide
    · rintro bs ⟨⟩
      decide
  exact ⟨hcreate, hreturn, (addAll_framed_iff hcreate hreturn).1.mpr hgiven⟩

def indentedText : List Char := "\x7b\n\"n\":7\n\x7d".toList

def indented : Submission := ⟨"traces", none, .text (String.ofList indentedText)⟩

theorem indented_not_framed :
    Json.Grammar.PaddedText (.object [("n", .int 7)]) indentedText ∧
      spans.AllReturn [indented.addition] ∧
      (spans.addAll [indented.addition]).body.count newline = 4 ∧
      ¬ Framed [indented] (spans.addAll [indented.addition]).body := by
  have hcount : (spans.addAll [indented.addition]).body.count newline = 4 := by decide
  refine ⟨?_, ⟨rfl, trivial⟩, hcount, fun h => ?_⟩
  · have hblank : Json.Grammar.Blank ['\n'] := by simp [Json.Grammar.Blank]
    have hseven : Json.Grammar.Whole ['7'] := ⟨⟨by decide, by simp⟩, by simp⟩
    have hvalue : Json.Grammar.PaddedText (.int 7) ['7', '\n'] :=
      .around .nil (.int (.positive hseven)) hblank
    exact .bare (.object (.one hblank (.quoted (.plain rfl)) .nil hvalue))
  · rw [h.count] at hcount
    exact absurd hcount (by decide)

end Batch

end Bulk

end SpanStore
