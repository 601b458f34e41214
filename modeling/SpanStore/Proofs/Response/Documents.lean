import SpanStore.Proofs.Json.Reading
import SpanStore.Response.Hits

namespace SpanStore

open Json

namespace Json.Reader

theorem foldl_feed_blank {bs : List UInt8} (h : Response.isBlank bs = true) :
    bs.foldl feed start = start := by
  induction bs with
  | nil => rfl
  | cons b bs ih =>
      obtain ⟨hb, hbs⟩ := Bool.and_eq_true_iff.mp h
      have hfeed : start.feed b = start := feed_blank (p := .start) hb
      rw [List.foldl_cons, hfeed]
      exact ih hbs

theorem ofBytes_of_blank {bs : List UInt8} (h : Response.isBlank bs = true) :
    ofBytes bs = start := by
  rw [ofBytes, foldl_feed_blank h]
  rfl

end Json.Reader

namespace Response

def present : Value → Bool
  | .null => false
  | _ => true

namespace HitDecoder

def plain : HitDecoder Value := ⟨.ok, false⟩

variable {α : Type} (decoder : HitDecoder α)

def ofSources (sources : List Value) : Except Fault (Option (List α)) :=
  match (sources.filter present).mapM decoder.document with
  | .ok [] => .ok (if decoder.emptyIsNone then none else some [])
  | .ok documents => .ok (some documents)
  | .error cause => .error (.documentRejected cause)

theorem take_cons {after : Option Fault} {v : Value} (hv : present v = true) (vs : List Value) :
    decoder.take after (v :: vs) =
      match decoder.document v with
      | .error f => ⟨[], some (.documentRejected f)⟩
      | .ok a => ⟨a :: (decoder.take after vs).ready, (decoder.take after vs).fault⟩ := by
  cases v with
  | null => cases hv
  | _ => rfl

theorem take_absent {after : Option Fault} {v : Value} (hv : ¬ present v = true)
    (vs : List Value) : decoder.take after (v :: vs) = decoder.take after vs := by
  cases v with
  | null => rfl
  | _ => exact absurd rfl hv

theorem take_spec (vs : List Value) :
    match (vs.filter present).mapM decoder.document with
    | .ok documents => decoder.take none vs = ⟨documents, none⟩
    | .error cause => (decoder.take none vs).fault = some (.documentRejected cause) := by
  induction vs with
  | nil => rfl
  | cons v vs ih =>
      by_cases hv : present v = true
      · rw [List.filter_cons_of_pos hv, List.mapM_cons, decoder.take_cons hv]
        cases hdocument : decoder.document v with
        | error cause => rfl
        | ok a =>
            cases hrest : (vs.filter present).mapM decoder.document with
            | error cause =>
                rw [hrest] at ih
                simpa [bind, Except.bind] using ih
            | ok documents =>
                rw [hrest] at ih
                simp [bind, Except.bind, pure, Except.pure, ih]
      · rw [List.filter_cons_of_neg hv, decoder.take_absent hv]
        exact ih

theorem kind_of_take {vs : List Value} {f : Fault} (h : (decoder.take none vs).fault = some f) :
    f.kind = .hits := by
  have hspec := decoder.take_spec vs
  split at hspec
  · rw [hspec] at h
    cases h
  · rw [hspec] at h
    obtain rfl := Option.some.inj h
    rfl

theorem ofSources_kind {sources : List Value} {f : Fault}
    (h : decoder.ofSources sources = .error f) : f.kind = .hits := by
  unfold ofSources at h
  split at h
  · cases h
  · cases h
  · cases h
    rfl

theorem take_append (after : Option Fault) (vs ws : List Value) :
    decoder.take after (vs ++ ws) =
      match (decoder.take none vs).fault with
      | some f => ⟨(decoder.take none vs).ready, some f⟩
      | none => ⟨(decoder.take none vs).ready ++ (decoder.take after ws).ready,
          (decoder.take after ws).fault⟩ := by
  induction vs with
  | nil => rfl
  | cons v vs ih =>
      rw [List.cons_append]
      by_cases hv : present v = true
      · rw [decoder.take_cons hv, decoder.take_cons hv]
        cases decoder.document v with
        | error f => rfl
        | ok a =>
            simp only [ih]
            cases (decoder.take none vs).fault <;> rfl
      · rw [decoder.take_absent hv, decoder.take_absent hv]
        exact ih

theorem take_after (after : Option Fault) (vs : List Value) : decoder.take after vs =
    ⟨(decoder.take none vs).ready, (decoder.take none vs).fault.or after⟩ := by
  have hnone := decoder.take_append after vs []
  rw [List.append_nil] at hnone
  rw [hnone]
  cases (decoder.take none vs).fault with
  | some f => rfl
  | none => simp [take]

theorem take_concat {vs : List Value} (hvs : (decoder.take none vs).fault = none) {v : Value}
    (hv : present v = true) :
    decoder.take none (vs ++ [v]) =
      match decoder.document v with
      | .error cause => ⟨(decoder.take none vs).ready, some (.documentRejected cause)⟩
      | .ok a => ⟨(decoder.take none vs).ready ++ [a], none⟩ := by
  rw [take_append, hvs, decoder.take_cons hv]
  cases decoder.document v with
  | error cause => simp
  | ok a => rfl

section Prefix

variable {vs ws : List Value} (hws : (decoder.take none ws).fault = none) (h : vs <+: ws)

include hws h

theorem fault_of_prefix : (decoder.take none vs).fault = none := by
  obtain ⟨more, rfl⟩ := h
  rw [take_append] at hws
  cases hvs : (decoder.take none vs).fault with
  | none => rfl
  | some f => simp [hvs] at hws

theorem ready_of_prefix : (decoder.take none vs).ready <+: (decoder.take none ws).ready := by
  have hvs := decoder.fault_of_prefix hws h
  obtain ⟨more, rfl⟩ := h
  rw [take_append, hvs]
  exact List.prefix_append _ _

end Prefix

theorem ready_documents (body : List UInt8) :
    (decoder.documents body).ready =
      (decoder.take none ((Reader.ofBytes body).select sourcePlace)).ready := by
  cases hblank : isBlank body with
  | true =>
      rw [documents, if_pos hblank, Reader.ofBytes_of_blank hblank]
      rfl
  | false => simp [documents, hblank, decoder.take_after (Option.map _ _)]

theorem fault_documents {body : List UInt8} (h : isBlank body = false) :
    (decoder.documents body).fault =
      (decoder.take none ((Reader.ofBytes body).select sourcePlace)).fault.or
        ((Reader.ofBytes body).flaw?.map (faultOf .malformedHits)) := by
  simp [documents, h, decoder.take_after (Option.map _ _)]

theorem decode_eq_error_iff {body : List UInt8} {f : Fault} :
    decoder.decode body = .error f ↔ (decoder.documents body).fault = some f := by
  rw [decode]
  cases (decoder.documents body).fault with
  | none => simp
  | some g => simp

theorem decode_returns_iff {body : List UInt8} (h : isBlank body = false) :
    (∃ answer, decoder.decode body = .ok answer) ↔
      (decoder.take none ((Reader.ofBytes body).select sourcePlace)).fault = none ∧
        (Reader.ofBytes body).flaw? = none := by
  have hfault := decoder.fault_documents h
  rw [decode, hfault]
  cases (decoder.take none ((Reader.ofBytes body).select sourcePlace)).fault with
  | some f => simp
  | none => cases (Reader.ofBytes body).flaw? <;> simp

theorem take_ok (emptyIsNone : Bool) (vs : List Value) :
    (take ⟨.ok, emptyIsNone⟩ none vs).fault = none := by
  induction vs with
  | nil => rfl
  | cons v vs ih => cases v <;> exact ih

end HitDecoder

end Response

end SpanStore
