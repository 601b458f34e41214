import SpanStore.Proofs.Failure
import SpanStore.Proofs.Json.Undecodable
import SpanStore.Proofs.Response.Documents
import SpanStore.Response.Buckets

namespace SpanStore

open Json

namespace Response

section Reader

variable {body : List UInt8}

theorem flaw?_undecodable_iff :
    (Reader.ofBytes body).flaw? = some .undecodable ↔ Undecodable body := by
  rw [← Reader.flaw_undecodable_iff, Reader.flaw?]
  cases (Reader.ofBytes body).flaw with
  | some f => rfl
  | none => cases (Reader.ofBytes body).progress.root <;> simp

theorem not_undecodable_of_blank (h : isBlank body = true) : ¬ Undecodable body := by
  rw [← Reader.flaw_undecodable_iff, Reader.ofBytes_of_blank h]
  exact (Option.some_ne_none _).symm

theorem kind_faultOf {malformed : Fault} {flaw : Flaw} (h : ¬ Undecodable body)
    (hflaw : (Reader.ofBytes body).flaw? = some flaw) :
    (faultOf malformed flaw).kind = malformed.kind := by
  cases flaw with
  | malformed => rfl
  | undecodable => exact absurd (flaw?_undecodable_iff.mp hflaw) h

end Reader

theorem read_fails (names : List String) (body : List UInt8) :
    FailsUnless (Undecodable body ∧ (Reader.ofBytes body).select (joinPlace names) = []) .response
      .undecodableText (read names body) := by
  cases hblank : isBlank body with
  | true =>
      have hread : read names body = .ok none := by simp [read, hblank]
      rw [hread]
      exact .of_ok fun h => not_undecodable_of_blank hblank h.1
  | false =>
      cases hselect : (Reader.ofBytes body).select (joinPlace names) with
      | cons v vs =>
          have hread : read names body = .ok (some v) := by simp [read, hblank, hselect]
          rw [hread]
          exact .of_ok fun h => List.cons_ne_nil v vs h.2
      | nil =>
          constructor
          · intro hdecodable f hf
            have hclear : ¬ Undecodable body := fun h => hdecodable ⟨h, rfl⟩
            simp only [read, hblank, hselect, Bool.false_eq_true, if_false] at hf
            split at hf
            · rename_i flaw hflaw
              obtain rfl := Except.error.inj hf
              exact kind_faultOf hclear hflaw
            · cases hf
          · intro h
            have hflaw := flaw?_undecodable_iff.mpr h.1
            simp [read, hblank, hselect, hflaw, faultOf]

theorem bucketKeys_fails (name : String) (nested : Bool) (body : List UInt8) :
    FailsUnless (Undecodable body) .response .undecodableText (bucketKeys name nested body) := by
  cases hblank : isBlank body with
  | true =>
      have hkeys : bucketKeys name nested body = .ok [] := by simp [bucketKeys, hblank]
      rw [hkeys]
      exact .of_ok (not_undecodable_of_blank hblank)
  | false =>
      constructor
      · intro hclear f hf
        simp only [bucketKeys, hblank, Bool.false_eq_true, if_false] at hf
        split at hf
        · rename_i flaw hflaw
          obtain rfl := Except.error.inj hf
          exact kind_faultOf hclear hflaw
        · cases hf
      · intro h
        have hflaw := flaw?_undecodable_iff.mpr h
        simp [bucketKeys, hblank, hflaw, faultOf]

namespace HitDecoder

variable {α : Type} (decoder : HitDecoder α)

/-- Every document that the bytes give, up to where the reading stopped, is taken. -/
def TakesAll (body : List UInt8) : Prop :=
  (decoder.take none ((Reader.ofBytes body).select sourcePlace)).fault = none

theorem decode_fails (body : List UInt8) :
    FailsUnless (Undecodable body ∧ decoder.TakesAll body) .hits .undecodableText
      (decoder.decode body) := by
  cases hblank : isBlank body with
  | true =>
      have hdecode : decoder.decode body = .ok (if decoder.emptyIsNone then none else some []) := by
        simp [decode, documents, hblank]
      rw [hdecode]
      exact .of_ok fun h => not_undecodable_of_blank hblank h.1
  | false =>
      have hfault := decoder.fault_documents hblank
      constructor
      · intro hcondition f hf
        rw [decode_eq_error_iff, hfault] at hf
        rcases Option.or_eq_some_iff.mp hf with htake | ⟨htake, hflaw⟩
        · exact decoder.kind_of_take htake
        · obtain ⟨flaw, hstop, rfl⟩ := Option.map_eq_some_iff.mp hflaw
          exact kind_faultOf (fun h => hcondition ⟨h, htake⟩) hstop
      · rintro ⟨hundecodable, htake⟩
        have hflaw := flaw?_undecodable_iff.mpr hundecodable
        rw [decode_eq_error_iff, hfault, htake, hflaw]
        rfl

end HitDecoder

/-- The readers fail with their own kinds of fault alone, as long as they come to no string that
they cannot decode. The first value at a place may come before such a string, and so may the
document that is rejected. -/
theorem readers_fail (body : List UInt8) :
    (∀ names, FailsUnless (Undecodable body ∧
      (Reader.ofBytes body).select (joinPlace names) = []) .response .undecodableText
      (read names body)) ∧
    (∀ name nested, FailsUnless (Undecodable body) .response .undecodableText
      (bucketKeys name nested body)) ∧
    ∀ {α : Type} (decoder : HitDecoder α),
      FailsUnless (Undecodable body ∧ decoder.TakesAll body) .hits .undecodableText
        (decoder.decode body) :=
  ⟨fun names => read_fails names body, fun name nested => bucketKeys_fails name nested body,
    fun decoder => decoder.decode_fails body⟩

def overlongNote : List UInt8 :=
  Text.Utf8.encode "\x7b\"note\":\"".toList ++ [0xC0, 0x80] ++ Text.Utf8.encode "\"\x7d".toList

theorem overlongNote_irregular :
    (∃ f, read ["status"] overlongNote = .error f ∧ f.kind ≠ .response) ∧
      (∃ f, bucketKeys "status" false overlongNote = .error f ∧ f.kind ≠ .response) ∧
      ∃ f, HitDecoder.plain.decode overlongNote = .error f ∧ f.kind ≠ .hits := by
  have hundecodable : Undecodable overlongNote := by
    rw [← Reader.flaw_undecodable_iff]
    decide +kernel
  have hnothing : (Reader.ofBytes overlongNote).select (joinPlace ["status"]) = [] := by
    rw [← List.isEmpty_iff]
    decide +kernel
  have htakes : HitDecoder.plain.TakesAll overlongNote := by
    rw [HitDecoder.TakesAll, ← Option.isNone_iff_eq_none]
    decide +kernel
  have hread := (read_fails ["status"] overlongNote).irregular ⟨hundecodable, hnothing⟩
  have hkeys := (bucketKeys_fails "status" false overlongNote).irregular hundecodable
  have hdecode := (HitDecoder.plain.decode_fails overlongNote).irregular ⟨hundecodable, htakes⟩
  exact ⟨⟨_, hread, by decide⟩, ⟨_, hkeys, by decide⟩, ⟨_, hdecode, by decide⟩⟩

end Response

end SpanStore
