import Mathlib.Data.List.Basic
import SpanStore.Http.Request
import SpanStore.Proofs.Text.Percent
import SpanStore.Proofs.Text.Split

namespace SpanStore

namespace Http

open Text Text.Percent

def readPath? : List Char → Option (List String)
  | '/' :: levels =>
      (levels.splitOn '/').mapM fun level => (decodeSegment? level).map String.ofList
  | _ => none

def readParam? (piece : List Char) : Option (String × String) :=
  match cut (· == '=') piece with
  | (name, some value) =>
      match decodeField? name, decodeField? value with
      | some name, some value => some (String.ofList name, String.ofList value)
      | _, _ => none
  | (_, none) => none

def readQuery? (query : List Char) : Option (List (String × String)) :=
  (query.splitOn '&').mapM readParam?

/-- A target that says these segments and parameters when it is divided at its first `?`. -/
structure Addresses (segments : List String) (params : List (String × String))
    (target : List Char) : Prop where
  ascii : ∀ c ∈ target, c.toNat < 0x80
  no_fragment : '#' ∉ target
  path : readPath? (cut (· == '?') target).1 = some segments
  query_iff : (cut (· == '?') target).2 = none ↔ params = []
  query : ∀ q, (cut (· == '?') target).2 = some q → readQuery? q = some params

theorem Addresses.unique {segments segments' : List String}
    {params params' : List (String × String)} {target : List Char}
    (h : Addresses segments params target) (h' : Addresses segments' params' target) :
    segments = segments' ∧ params = params' := by
  constructor
  · apply Option.some.inj
    rw [← h.path, h'.path]
  · cases hcut : (cut (· == '?') target).2 with
    | none => rw [h.query_iff.mp hcut, h'.query_iff.mp hcut]
    | some q =>
        apply Option.some.inj
        rw [← h.query q hcut, h'.query q hcut]

theorem mapM_map_eq_some {α β : Type} {f : β → Option α} {g : α → β}
    (h : ∀ a, f (g a) = some a) (as : List α) : (as.map g).mapM f = some as := by
  induction as with
  | nil => rfl
  | cons a as ih => simp [h, ih]

namespace Request

def segmentText (s : String) : List Char := encodeSegment s.toList

def paramText (p : String × String) : List Char :=
  encodeField p.1.toList ++ '=' :: encodeField p.2.toList

theorem paramText_cases {p : String × String} {c : Char} (hc : c ∈ paramText p) :
    Undivided c ∨ c = '=' := by
  rcases List.mem_append.mp hc with hc | hc
  · exact .inl (encodeField_undivided _ c hc)
  · rcases List.mem_cons.mp hc with rfl | hc
    · exact .inr rfl
    · exact .inl (encodeField_undivided _ c hc)

theorem readPath?_joinSegments {segments : List String} (h : segments ≠ []) :
    readPath? (joinSegments segments) = some segments := by
  have hbare : ∀ level ∈ segments.map segmentText, '/' ∉ level := by
    rintro level hlevel hslash
    obtain ⟨s, -, rfl⟩ := List.mem_map.mp hlevel
    exact absurd (encodeSegment_undivided _ _ hslash) (by decide)
  have hsplit := List.splitOn_intercalate '/' hbare (by simpa using h)
  change (List.splitOn '/' (['/'].intercalate (segments.map segmentText))).mapM _ = _
  rw [hsplit]
  exact mapM_map_eq_some (fun s => by simp [segmentText]) segments

theorem readParam?_paramText (p : String × String) : readParam? (paramText p) = some p := by
  have hname : ∀ c ∈ encodeField p.1.toList, (c == '=') = false := by
    intro c hc
    simpa using (encodeField_undivided _ c hc).2.2.2.2.2
  rw [readParam?, paramText, cut_append_cons hname rfl]
  simp

theorem readQuery?_encodeForm {params : List (String × String)} (h : params ≠ []) :
    readQuery? (encodeForm params) = some params := by
  have hbare : ∀ piece ∈ params.map paramText, '&' ∉ piece := by
    rintro piece hpiece hamp
    obtain ⟨p, -, rfl⟩ := List.mem_map.mp hpiece
    exact absurd (paramText_cases hamp) (by decide)
  have hsplit := List.splitOn_intercalate '&' hbare (by simpa using h)
  change (List.splitOn '&' (['&'].intercalate (params.map paramText))).mapM _ = _
  rw [hsplit]
  exact mapM_map_eq_some readParam?_paramText params

theorem joinSegments_plain (segments : List String) :
    ∀ c ∈ joinSegments segments, c.toNat < 0x80 ∧ c ≠ '?' ∧ c ≠ '#' := by
  have hsegments : ∀ part ∈ segments.map segmentText,
      ∀ c ∈ part, c.toNat < 0x80 ∧ c ≠ '?' ∧ c ≠ '#' := by
    rintro part hpart c hc
    obtain ⟨s, -, rfl⟩ := List.mem_map.mp hpart
    obtain ⟨hascii, -, hquestion, hhash, -⟩ := encodeSegment_undivided _ c hc
    exact ⟨hascii, hquestion, hhash⟩
  rw [joinSegments, List.forall_mem_cons]
  exact ⟨by decide, forall_mem_intercalate (by decide) hsegments⟩

theorem encodeForm_plain (params : List (String × String)) :
    ∀ c ∈ encodeForm params, c.toNat < 0x80 ∧ c ≠ '#' := by
  have hparams : ∀ part ∈ params.map paramText, ∀ c ∈ part, c.toNat < 0x80 ∧ c ≠ '#' := by
    rintro part hpart c hc
    obtain ⟨p, -, rfl⟩ := List.mem_map.mp hpart
    rcases paramText_cases hc with ⟨hascii, -, -, hhash, -⟩ | rfl
    · exact ⟨hascii, hhash⟩
    · decide
  exact forall_mem_intercalate (by decide) hparams

theorem addresses_of_empty {segments : List String} (h : segments ≠ []) :
    Addresses segments [] (joinSegments segments) := by
  have hplain := joinSegments_plain segments
  have hcut : cut (· == '?') (joinSegments segments) = (joinSegments segments, none) :=
    cut_of_forall fun c hc => by simpa using (hplain c hc).2.1
  exact {
    ascii := fun c hc => (hplain c hc).1
    no_fragment := fun hc => (hplain _ hc).2.2 rfl
    path := by rw [hcut, readPath?_joinSegments h]
    query_iff := by simp [hcut]
    query := by simp [hcut] }

theorem addresses_of_params {segments : List String} {params : List (String × String)}
    (h : segments ≠ []) (hparams : params ≠ []) :
    Addresses segments params (joinSegments segments ++ '?' :: encodeForm params) := by
  have hpath := joinSegments_plain segments
  have hform := encodeForm_plain params
  have hcut : cut (· == '?') (joinSegments segments ++ '?' :: encodeForm params) =
      (joinSegments segments, some (encodeForm params)) :=
    cut_append_cons (fun c hc => by simpa using (hpath c hc).2.1) rfl _
  have hall : ∀ c ∈ joinSegments segments ++ '?' :: encodeForm params,
      c.toNat < 0x80 ∧ c ≠ '#' := by
    rw [List.forall_mem_append, List.forall_mem_cons]
    exact ⟨fun c hc => ⟨(hpath c hc).1, (hpath c hc).2.2⟩, by decide, hform⟩
  exact {
    ascii := fun c hc => (hall c hc).1
    no_fragment := fun hc => (hall _ hc).2 rfl
    path := by rw [hcut, readPath?_joinSegments h]
    query_iff := by simp [hcut, hparams]
    query := by simp [hcut, readQuery?_encodeForm hparams] }

theorem target_addresses {segments : List String} (h : segments ≠ []) (method tag : String)
    (params : List (String × String)) (body : Payload) (contentType : String) :
    Addresses segments params (build method segments tag params body contentType).target := by
  cases params with
  | nil => exact addresses_of_empty h
  | cons p ps => exact addresses_of_params h (List.cons_ne_nil p ps)

/-- A target is read back as the segments and the parameters of its request, and is the target
of no others. -/
theorem target_reads_back (method tag contentType : String) (body : Payload)
    (segments : List String) (params : List (String × String)) (h : segments ≠ []) :
    Addresses segments params (build method segments tag params body contentType).target ∧
      ∀ (method' tag' contentType' : String) (body' : Payload) (segments' : List String)
        (params' : List (String × String)), segments' ≠ [] →
        (build method' segments' tag' params' body' contentType').target =
          (build method segments tag params body contentType).target →
        segments' = segments ∧ params' = params := by
  refine ⟨target_addresses h method tag params body contentType, ?_⟩
  intro method' tag' contentType' body' segments' params' h' heq
  have haddresses := target_addresses h method tag params body contentType
  have haddresses' := target_addresses h' method' tag' params' body' contentType'
  rw [heq] at haddresses'
  exact haddresses'.unique haddresses

theorem target_reads_back_dividers :
    ["a/b?c#d", "é😀,*%2F"] ≠ [] ∧ Addresses ["a/b?c#d", "é😀,*%2F"] [("q&=+ ", "1=2&3"), ("", "")]
      (build "GET" ["a/b?c#d", "é😀,*%2F"] "search" [("q&=+ ", "1=2&3"), ("", "")] .absent
        json).target :=
  ⟨List.cons_ne_nil _ _, (target_reads_back "GET" "search" json .absent _ _
    (List.cons_ne_nil _ _)).1⟩

end Request

end Http

end SpanStore
