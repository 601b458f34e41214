import SpanStore.Proofs.Bulk.Pairing
import SpanStore.Proofs.Json.Printing

namespace SpanStore

open Json (Value)

/-- Neither text nor bytes, which a batch takes as they are. -/
def Json.Value.Structured : Value → Prop
  | text _ => False
  | bytes _ => False
  | _ => True

namespace Bulk

theorem documentLine_structured {v : Value} (h : v.Structured) : documentLine v =
    if v.holdsBytes then .error .bytesInDocument else .ok (v.compactBytes .unicode) := by
  have hbody : Http.valueBody? v =
      if v.holdsBytes then none else some (v.compactBytes .unicode) := by
    cases v with
    | text s => exact h.elim
    | bytes bs => exact h.elim
    | _ => rfl
  rw [documentLine, hbody]
  cases v.holdsBytes with
  | true => rfl
  | false => rfl

section Pairs

variable {α β : Type} (f g : α → β)

theorem length_flatMap_pair (as : List α) :
    (as.flatMap fun a => [f a, g a]).length = 2 * as.length := by
  induction as with
  | nil => rfl
  | cons a as ih =>
      rw [List.flatMap_cons, List.length_append, ih]
      simp [Nat.mul_add, Nat.add_comm]

theorem getElem?_flatMap_pair (as : List α) (i : Nat) :
    (as.flatMap fun a => [f a, g a])[2 * i]? = as[i]?.map f ∧
      (as.flatMap fun a => [f a, g a])[2 * i + 1]? = as[i]?.map g := by
  induction as generalizing i with
  | nil => simp
  | cons a as ih =>
      cases i with
      | zero => exact ⟨rfl, rfl⟩
      | succ i => exact ih i

end Pairs

structure Entry where
  index : String
  id : Option String
  document : Value
  structured : document.Structured

namespace Entry

def addition (e : Entry) : Addition := ⟨e.index, e.document, e.id.elim .null .text⟩

def metadata (typeName : String) (e : Entry) : Value :=
  .object [("index", .object ([("_index", .text e.index), ("_type", .text typeName)] ++
    (e.id.map fun id => ("_id", Value.text id)).toList))]

def firstLine (typeName : String) (e : Entry) : List UInt8 :=
  (e.metadata typeName).compactBytes .ascii

def secondLine (e : Entry) : List UInt8 := e.document.compactBytes .unicode

theorem action_metadata (typeName : String) (e : Entry) :
    (e.addition.action typeName).metadata = e.metadata typeName := by
  obtain ⟨index, id, document, structured⟩ := e
  cases id with
  | none => rfl
  | some id => rfl

theorem metadata_exact (typeName : String) (e : Entry) (P : Int → Prop) :
    (e.metadata typeName).Exact P := by
  obtain ⟨index, id, document, structured⟩ := e
  cases id with
  | none => simp [metadata, Value.Exact, Value.MembersExact]
  | some id => simp [metadata, Value.Exact, Value.MembersExact]

theorem action_line (typeName : String) (e : Entry) :
    (e.addition.action typeName).line = .ok (e.firstLine typeName) := by
  have hbytes := (e.metadata_exact typeName Json.FitsReader).holdsBytes_eq
  rw [Action.line, action_metadata, hbytes]
  rfl

theorem documentLine_eq {e : Entry} {line : List UInt8} (h : documentLine e.document = .ok line) :
    line = e.secondLine := by
  rw [documentLine_structured e.structured] at h
  split at h
  · cases h
  · exact (Except.ok.inj h).symm

def lines (typeName : String) (es : List Entry) : List (List UInt8) :=
  es.flatMap fun e => [e.firstLine typeName, e.secondLine]

theorem lines_length (typeName : String) (es : List Entry) :
    (lines typeName es).length = 2 * es.length :=
  length_flatMap_pair _ _ es

theorem lines_getElem? (typeName : String) (es : List Entry) (i : Nat) :
    (lines typeName es)[2 * i]? = es[i]?.map (firstLine typeName) ∧
      (lines typeName es)[2 * i + 1]? = es[i]?.map secondLine :=
  getElem?_flatMap_pair _ _ es i

theorem lines_no_newline (typeName : String) (es : List Entry) :
    ∀ line ∈ lines typeName es, Batch.newline ∉ line := by
  have hprinted (charset : Json.Charset) (v : Value) : Batch.newline ∉ v.compactBytes charset :=
    fun h => absurd (v.compactBytes_no_control charset _ h) (by decide)
  intro line hline
  obtain ⟨e, -, he⟩ := List.mem_flatMap.mp hline
  simp only [List.mem_cons, List.not_mem_nil, or_false] at he
  rcases he with rfl | rfl
  · exact hprinted .ascii _
  · exact hprinted .unicode _

end Entry

def joined (lines : List (List UInt8)) : List UInt8 := lines.flatMap (· ++ [Batch.newline])

theorem joined_eq_intercalate (lines : List (List UInt8)) :
    joined lines = [Batch.newline].intercalate (lines ++ [[]]) := by
  induction lines with
  | nil => rfl
  | cons line lines ih =>
      have hne : lines ++ [[]] ≠ [] := by simp
      rw [joined, List.flatMap_cons, ← joined, ih, List.cons_append,
        List.intercalate_cons_of_ne_nil hne]

def pieces (body : List UInt8) : List (List UInt8) := body.splitOn Batch.newline

theorem pieces_joined {lines : List (List UInt8)} (h : ∀ line ∈ lines, Batch.newline ∉ line) :
    pieces (joined lines) = lines ++ [[]] := by
  rw [pieces, joined_eq_intercalate]
  apply List.splitOn_intercalate
  · intro line hline
    rcases List.mem_append.mp hline with hline | hline
    · exact h line hline
    · rw [List.mem_singleton.mp hline]
      exact List.not_mem_nil
  · simp

/-- The line is ASCII and a text of the value, and it reads back as the value. -/
structure Announces (v : Value) (line : List UInt8) : Prop where
  ascii : ∀ b ∈ line, b.toNat < 0x80
  text : ∃ t, Json.Grammar.ValueText v t ∧ Text.Utf8.encode t = line
  read : Json.parse? line = some v

/-- The body is two lines for each document, in order, and nothing after the last newline. -/
structure Holds (typeName : String) (es : List Entry) (body : List UInt8) : Prop where
  count : (pieces body).length = 2 * es.length + 1
  last : (pieces body)[2 * es.length]? = some []
  first : ∀ i e, es[i]? = some e →
    ∃ line, (pieces body)[2 * i]? = some line ∧ Announces (e.metadata typeName) line
  second : ∀ i e, es[i]? = some e →
    ∃ line, (pieces body)[2 * i + 1]? = some line ∧ documentLine e.document = .ok line

namespace Batch

def AllReturn (b : Batch) : List Addition → Prop
  | [] => True
  | a :: as => (b.addOne a).1 = .ok () ∧ AllReturn (b.addOne a).2 as

theorem isOk_iff {r : Except Fault Unit} : r.isOk = true ↔ r = .ok () := by
  cases r <;> simp [Except.isOk, Except.toBool]

theorem allReturn_iff {b : Batch} {as : List Addition} :
    b.AllReturn as ↔ ∀ a ∈ as, (b.addOne a).1 = .ok () := by
  induction as generalizing b with
  | nil => simp [AllReturn]
  | cons a as ih =>
      have hcongr (c : Addition) :
          ((b.addOne a).2.addOne c).1 = .ok () ↔ (b.addOne c).1 = .ok () := by
        rw [← isOk_iff, ← isOk_iff, isOk_congr (b.addOne_typeName a) (b.addOne_serialize a)]
      simp only [AllReturn, ih, hcongr, List.forall_mem_cons]

theorem written_of_returns {b : Batch} {a : Addition} (h : (b.addOne a).1 = .ok ()) :
    ∃ first second, (a.action b.typeName).line = .ok first ∧ b.serialize a.document = .ok second ∧
      a.written b = joined [first, second] := by
  simp only [addOne, add] at h
  split at h
  · cases h
  · rename_i hindex
    cases hfirst : (a.action b.typeName).line with
    | error f =>
        rw [Addition.action] at hfirst
        rw [hfirst] at h
        cases h
    | ok first =>
        cases hsecond : b.serialize a.document with
        | error f =>
            rw [Addition.action] at hfirst
            rw [hfirst, hsecond] at h
            cases h
        | ok second =>
            refine ⟨first, second, rfl, rfl, ?_⟩
            simp [Addition.written, hindex, hfirst, hsecond, joined]

theorem written_of_lines {b : Batch} {a : Addition} {first second : List UInt8}
    (hs : b.serialize = documentLine) (hfirst : (a.action b.typeName).line = .ok first)
    (hsecond : ∀ line, documentLine a.document = .ok line → line = second)
    (h : (b.addOne a).1 = .ok ()) :
    documentLine a.document = .ok second ∧ a.written b = joined [first, second] := by
  obtain ⟨first', line, hfirst', hline, hwritten⟩ := written_of_returns h
  rw [hs] at hline
  obtain rfl := Except.ok.inj (hfirst.symm.trans hfirst')
  obtain rfl := hsecond line hline
  exact ⟨hline, hwritten⟩

theorem addAll_actions_of_returns {b : Batch} {as : List Addition}
    (h : ∀ a ∈ as, (b.addOne a).1 = .ok ()) :
    (b.addAll as).actions = b.actions ++ as.map (Addition.action · b.typeName) := by
  have hkept : b.kept as = as := List.filter_eq_self.mpr fun a ha => isOk_iff.mpr (h a ha)
  rw [addAll_actions, hkept]

theorem addAll_body_of_pairs {α : Type} {b : Batch} {addition : α → Addition}
    {first second : α → List UInt8} {as : List α}
    (h : ∀ a ∈ as, (addition a).written b = joined [first a, second a]) :
    (b.addAll (as.map addition)).body =
      b.body ++ joined (as.flatMap fun a => [first a, second a]) := by
  rw [addAll_body, joined, List.flatMap_map, List.flatMap_assoc]
  exact congrArg (b.body ++ ·) (List.flatMap_congr h)

theorem written_entry {b : Batch} (hs : b.serialize = documentLine) {e : Entry}
    (h : (b.addOne e.addition).1 = .ok ()) :
    documentLine e.document = .ok e.secondLine ∧
      e.addition.written b = joined [e.firstLine b.typeName, e.secondLine] :=
  written_of_lines hs (e.action_line b.typeName) (fun _ => Entry.documentLine_eq) h

theorem addAll_lines {b : Batch} (hs : b.serialize = documentLine) {es : List Entry}
    (h : b.AllReturn (es.map Entry.addition)) :
    (∀ e ∈ es, documentLine e.document = .ok e.secondLine) ∧
      (b.addAll (es.map Entry.addition)).body =
        b.body ++ joined (Entry.lines b.typeName es) ∧
      (b.addAll (es.map Entry.addition)).actions =
        b.actions ++ es.map fun e => e.addition.action b.typeName := by
  have hreturn := allReturn_iff.mp h
  have hentry : ∀ e ∈ es, _ := fun e he => written_entry hs (hreturn _ (List.mem_map_of_mem he))
  refine ⟨fun e he => (hentry e he).1, addAll_body_of_pairs fun e he => (hentry e he).2, ?_⟩
  rw [addAll_actions_of_returns hreturn, List.map_map]
  rfl

end Batch

theorem Entry.announces (typeName : String) (e : Entry) :
    Announces (e.metadata typeName) (e.firstLine typeName) where
  ascii := (e.metadata typeName).compactBytes_ascii
  text := ⟨_, Json.Printer.valueText_compact .ascii _ (e.metadata_exact typeName Json.FitsReader),
    rfl⟩
  read := Value.parse?_compactBytes .ascii (e.metadata_exact typeName Json.FitsReader)

theorem holds_joined (typeName : String) {es : List Entry}
    (h : ∀ e ∈ es, documentLine e.document = .ok e.secondLine) :
    Holds typeName es (joined (Entry.lines typeName es)) := by
  have hpieces := pieces_joined (Entry.lines_no_newline typeName es)
  have hlength := Entry.lines_length typeName es
  have hline {k : Nat} (hk : k < 2 * es.length) :
      (pieces (joined (Entry.lines typeName es)))[k]? = (Entry.lines typeName es)[k]? := by
    rw [← hlength] at hk
    rw [hpieces, List.getElem?_append_left hk]
  constructor
  · simp [hpieces, hlength]
  · rw [hpieces, ← hlength]
    simp
  · intro i e he
    have hi : i < es.length := (List.getElem?_eq_some_iff.mp he).1
    refine ⟨e.firstLine typeName, ?_, e.announces typeName⟩
    rw [hline (by omega), (Entry.lines_getElem? typeName es i).1, he]
    rfl
  · intro i e he
    have hi : i < es.length := (List.getElem?_eq_some_iff.mp he).1
    refine ⟨e.secondLine, ?_, h e (List.mem_of_getElem? he)⟩
    rw [hline (by omega), (Entry.lines_getElem? typeName es i).2, he]
    rfl

namespace Batch

theorem request_ok {b : Batch} (h : b.actions ≠ []) :
    ∃ r, b.request = .ok r ∧ r.body = some b.body := by
  obtain ⟨r, hr⟩ : ∃ r, b.request = .ok r := by
    rw [request, List.isEmpty_eq_false_iff.mpr h]
    exact ⟨_, rfl⟩
  exact ⟨r, hr, request_body hr⟩

/-- When every call returns, the body holds all documents, and it is what the request carries. -/
theorem addAll_holds {client : Http.Client} {typeName : String} {pipeline : Option String}
    {flushOnWrites : Bool} {b : Batch}
    (hb : create client typeName pipeline flushOnWrites documentLine = .ok b) {es : List Entry}
    (h : b.AllReturn (es.map Entry.addition)) :
    Holds typeName es (b.addAll (es.map Entry.addition)).body ∧
      (es ≠ [] → ∃ r, (b.addAll (es.map Entry.addition)).request = .ok r ∧
        r.body = some (b.addAll (es.map Entry.addition)).body) := by
  unfold create at hb
  split at hb
  · cases hb
  · cases hb
    obtain ⟨hlines, hbody, hactions⟩ := addAll_lines rfl h
    constructor
    · rw [hbody]
      exact holds_joined typeName hlines
    · intro hes
      apply request_ok
      rw [hactions]
      simpa using hes

def troubled : Entry where
  index := "span\n\"é😀"
  id := none
  document := .object [("tags", .list [.null, .float 0.5, .int (-7), .text "a\nb"])]
  structured := trivial

def identified : Entry := ⟨"spans", some "", .null, trivial⟩

theorem addAll_holds_troubled :
    create ⟨"http://localhost:9200", {}⟩ "span" none false documentLine = .ok spans ∧
      spans.AllReturn ([troubled, identified].map Entry.addition) ∧
      Holds "span" [troubled, identified]
        (spans.addAll ([troubled, identified].map Entry.addition)).body := by
  have hcreate : create ⟨"http://localhost:9200", {}⟩ "span" none false documentLine =
      .ok spans := rfl
  have hreturn : spans.AllReturn ([troubled, identified].map Entry.addition) :=
    ⟨rfl, rfl, trivial⟩
  exact ⟨hcreate, hreturn, (addAll_holds hcreate hreturn).1⟩

end Batch

end Bulk

end SpanStore
