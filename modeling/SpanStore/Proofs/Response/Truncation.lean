import SpanStore.Proofs.Json.LastBrace
import SpanStore.Proofs.Response.Documents

namespace SpanStore

open Json

namespace Response

/-- The bytes of a response break off within a number that stands in the place of a document, and
the number as far as it goes is given as one document more. -/
def BreaksNumber {α : Type} (decoder : HitDecoder α) (body part : List UInt8) : Prop :=
  ∃ before digits next rest v a, body = part ++ next :: rest ∧
    CutNumber part next before digits v ∧ decoder.document v = .ok a ∧
    (decoder.documents before).ready <+: (decoder.documents body).ready ∧
    (decoder.documents part).ready = (decoder.documents before).ready ++ [a]

theorem present_of_isNumber {v : Value} (h : v.IsNumber) : present v = true := by
  cases v with
  | int n => rfl
  | float f => rfl
  | _ => exact h.elim

theorem isBlank_of_prefix {part body : List UInt8} (hpart : part <+: body)
    (h : isBlank part = false) : isBlank body = false := by
  obtain ⟨rest, rfl⟩ := hpart
  simp only [isBlank] at h ⊢
  rw [List.all_append, h, Bool.false_and]

theorem flaw?_of_decode {α : Type} {decoder : HitDecoder α} {body : List UInt8}
    {answer : Option (List α)} (hblank : isBlank body = false)
    (h : decoder.decode body = .ok answer) :
    (decoder.take none ((Reader.ofBytes body).select sourcePlace)).fault = none ∧
      (Reader.ofBytes body).flaw = none := by
  obtain ⟨htake, hflaw⟩ := (decoder.decode_returns_iff hblank).mp ⟨_, h⟩
  refine ⟨htake, ?_⟩
  cases hstop : (Reader.ofBytes body).flaw with
  | none => rfl
  | some f => simp [Reader.flaw?, hstop] at hflaw

theorem isBlank_eq_true_iff {body : List UInt8} : isBlank body = true ↔ IsBlank body :=
  List.all_eq_true

structure BreaksOff {α : Type} (decoder : HitDecoder α) (body part : List UInt8) (f : Fault) :
    Prop where
  decode : decoder.decode part = .error f
  fault : (decoder.documents part).fault = some f
  kind : f.kind = .hits
  ready : (decoder.documents part).ready <+: (decoder.documents body).ready ∨
    BreaksNumber decoder body part

theorem breaksOff_of_nested {α : Type} {decoder : HitDecoder α} {part rest : List UInt8}
    {next : UInt8} {answer : Option (List α)} (hblank : isBlank part = false)
    (hdepth : 0 < (Nesting.ofBytes part).depth)
    (hdecode : decoder.decode (part ++ next :: rest) = .ok answer) :
    ∃ f, BreaksOff decoder (part ++ next :: rest) part f := by
  have hwhole : isBlank (part ++ next :: rest) = false :=
    isBlank_of_prefix (List.prefix_append _ _) hblank
  obtain ⟨htake, hflaw⟩ := flaw?_of_decode hwhole hdecode
  -- The end of the response is one blank more.
  have hend : Reader.ofBytes (part ++ next :: rest) =
      Reader.after (part ++ next :: (rest ++ [0x20])) := by
    rw [Reader.ofBytes_eq_feed, ← Reader.after_concat, List.append_assoc, List.cons_append]
  rw [hend] at hflaw
  have hmalformed := Reader.flaw?_of_nested (Reader.flaw_of_after_append hflaw) hdepth
  have hfault := decoder.fault_documents hblank
  rw [hmalformed] at hfault
  have hcut := Reader.select_cut hflaw sourcePlace
  rw [← hend] at hcut
  rcases hcut with hprefix | ⟨start, digits, v, hcut, hprefix, hselect⟩
  · rw [decoder.fault_of_prefix htake hprefix] at hfault
    refine ⟨_, decoder.decode_eq_error_iff.mpr hfault, hfault, rfl, .inl ?_⟩
    rw [decoder.ready_documents, decoder.ready_documents]
    exact decoder.ready_of_prefix htake hprefix
  · have htaken := decoder.take_concat (decoder.fault_of_prefix htake hprefix)
      (present_of_isNumber hcut.isNumber)
    have hstart := decoder.ready_of_prefix htake hprefix
    have hready := decoder.ready_documents part
    rw [hselect, htaken] at hfault hready
    rw [← decoder.ready_documents, ← decoder.ready_documents] at hstart
    rw [← decoder.ready_documents] at hready
    cases hdocument : decoder.document v with
    | error cause =>
        rw [hdocument] at hfault hready
        refine ⟨_, decoder.decode_eq_error_iff.mpr hfault, hfault, rfl, .inl ?_⟩
        rw [hready]
        exact hstart
    | ok a =>
        rw [hdocument] at hfault hready
        refine ⟨_, decoder.decode_eq_error_iff.mpr hfault, hfault, rfl, .inr ?_⟩
        exact ⟨start, digits, next, rest, v, a, rfl, hcut, hdocument, hstart, hready⟩

/-- A response that breaks off before the last brace of its object is refused. The documents before
that are the first ones of the whole response, unless it breaks off within a number that stands in
the place of a document: what there is of the number is given as one more. -/
theorem object_truncated {α : Type} (decoder : HitDecoder α) {body : List UInt8}
    {members : List (String × Value)} (hobject : parse? body = some (.object members))
    {answer : Option (List α)} (hdecode : decoder.decode body = .ok answer) :
    (∃ before, ClosedAfter body before) ∧
      ∀ before, ClosedAfter body before → ∀ part, part <+: before → isBlank part = false →
        ∃ f, BreaksOff decoder body part f := by
  refine ⟨exists_closedAfter hobject, ?_⟩
  intro before hbefore part hpart hblank
  have hdepth : 0 < (Nesting.ofBytes part).depth := by
    refine hbefore.nested part hpart ?_
    rw [← isBlank_eq_true_iff, hblank]
    exact Bool.false_ne_true
  obtain ⟨trail, rfl⟩ := hbefore.brace
  obtain ⟨more, rfl⟩ := hpart
  obtain ⟨next, rest, hnext⟩ : ∃ next rest, more ++ 0x7D :: trail = next :: rest :=
    List.exists_cons_of_ne_nil (by simp)
  have hbody : part ++ more ++ [0x7D] ++ trail = part ++ next :: rest := by simp [← hnext]
  rw [hbody] at hdecode ⊢
  exact breaksOff_of_nested hblank hdepth hdecode

def HitDecoder.whole : HitDecoder Int where
  document
    | .int n => .ok n
    | _ => .error .malformedHits
  emptyIsNone := false

def numberBefore : List UInt8 :=
  Text.Utf8.encode "\x7b\"hits\":\x7b\"hits\":[\x7b\"_source\":123\x7d]\x7d".toList

def numberBody : List UInt8 := numberBefore ++ [0x7D]

def numberPart : List UInt8 :=
  Text.Utf8.encode "\x7b\"hits\":\x7b\"hits\":[\x7b\"_source\":12".toList

theorem numberBody_ready : (HitDecoder.whole.documents numberBody).ready = [123] := by
  decide +kernel

theorem numberBody_decode : HitDecoder.whole.decode numberBody = .ok (some [123]) := by
  have hfault : (HitDecoder.whole.documents numberBody).fault = none := by
    rw [← Option.isNone_iff_eq_none]
    decide +kernel
  simp [HitDecoder.decode, hfault, numberBody_ready]

theorem object_truncated_number :
    (∃ members, parse? numberBody = some (.object members)) ∧
      HitDecoder.whole.decode numberBody = .ok (some [123]) ∧
      (∃ before, ClosedAfter numberBody before) ∧
      ∀ before, ClosedAfter numberBody before → ∀ part, part <+: before → isBlank part = false →
        ∃ f, BreaksOff HitDecoder.whole numberBody part f :=
  ⟨⟨_, rfl⟩, numberBody_decode, object_truncated HitDecoder.whole rfl numberBody_decode⟩

theorem number_truncated :
    (∃ members, parse? numberBody = some (.object members)) ∧
      HitDecoder.whole.decode numberBody = .ok (some [123]) ∧
      ClosedAfter numberBody numberBefore ∧ numberPart <+: numberBefore ∧
      isBlank numberPart = false ∧
      ¬ (HitDecoder.whole.documents numberPart).ready <+:
        (HitDecoder.whole.documents numberBody).ready := by
  have hpart : (HitDecoder.whole.documents numberPart).ready = [12] := by decide +kernel
  refine ⟨⟨_, rfl⟩, numberBody_decode, by decide +kernel, by decide, by decide, ?_⟩
  rw [hpart, numberBody_ready]
  decide

end Response

end SpanStore
