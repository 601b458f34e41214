import SpanStore.Proofs.Response.Streaming

namespace SpanStore

open Json Json.Grammar Text.Utf8

namespace Response

theorem read_returns_iff {body : List UInt8} (h : isBlank body = false) (names : List String) :
    (∃ answer, read names body = .ok answer) ↔
      (Reader.ofBytes body).select (joinPlace names) ≠ [] ∨ (Reader.ofBytes body).flaw? = none := by
  cases hselect : (Reader.ofBytes body).select (joinPlace names) with
  | cons v vs => simp [read, h, hselect]
  | nil =>
      cases hflaw : (Reader.ofBytes body).flaw? with
      | none => simp [read, h, hselect, hflaw]
      | some f => simp [read, h, hselect, hflaw]

section Tree

variable {s : Tree} {t : List Char} (h : s.Padded t)

include h

theorem select_root_of_not_readable (hs : ¬ s.Readable) :
    (Reader.ofBytes (encode t)).select (joinPlace []) = [] := by
  have hv : s.value? = none := by
    rwa [← s.isSome_value?_iff, Option.not_isSome_iff_eq_none] at hs
  have hroot := (Reader.ofBytes_stopped h hv).root
  rw [Reader.select, hroot]
  cases (Reader.ofBytes (encode t)).progress.frames.reverse with
  | nil => rfl
  | cons f fs => cases f <;> rfl

/-- A valid JSON text has an answer for every question exactly if it is readable. -/
theorem readers_return_iff :
    (∀ emptyIsNone, (∃ answer, HitDecoder.decode ⟨.ok, emptyIsNone⟩ (encode t) = .ok answer) ↔
      s.Readable) ∧
    (∀ name nested, (∃ keys, bucketKeys name nested (encode t) = .ok keys) ↔ s.Readable) ∧
    ((∀ names, ∃ answer, read names (encode t) = .ok answer) ↔ s.Readable) := by
  have hblank := isBlank_tree h
  have hflaw := Reader.flaw?_tree h
  refine ⟨fun emptyIsNone => ?_, fun name nested => ?_, ?_⟩
  · rw [HitDecoder.decode_returns_iff _ hblank, hflaw]
    exact and_iff_right (HitDecoder.take_ok emptyIsNone _)
  · rw [bucketKeys_returns_iff hblank, hflaw]
  · constructor
    · intro hall
      by_contra hs
      rcases (read_returns_iff hblank []).mp (hall []) with hselect | hclear
      · exact hselect (select_root_of_not_readable h hs)
      · exact hs (hflaw.mp hclear)
    · intro hs names
      exact (read_returns_iff hblank names).mpr (.inr (hflaw.mpr hs))

end Tree

def longCount : Tree :=
  .object [("took".toList.map .char, .number (.whole false "9223372036854775808".toList))]

def longCountText : List Char := "\x7b\"took\":9223372036854775808\x7d".toList

theorem longCount_padded : longCount.Padded longCountText := by
  have hnone : Blank [] := .nil
  have hname : Glyph.Quoted ("took".toList.map .char) _ := .quoted (.plain rfl)
  have hwhole : Whole "9223372036854775808".toList := ⟨⟨by decide, by simp⟩, by simp⟩
  have hcount : Tree.Padded (.number (.whole false "9223372036854775808".toList))
      "9223372036854775808".toList := .around .nil (.number (.whole hwhole)) .nil
  have hmember : Tree.Members [_] ([] ++ _ ++ [] ++ ':' :: _) := .one .nil hname .nil hcount
  exact .around hnone (.object hmember) hnone

theorem readers_return_iff_longCount : longCount.Padded longCountText ∧
    (∀ emptyIsNone, (∃ answer,
      HitDecoder.decode ⟨.ok, emptyIsNone⟩ (encode longCountText) = .ok answer) ↔
        longCount.Readable) ∧
    (∀ name nested, (∃ keys, bucketKeys name nested (encode longCountText) = .ok keys) ↔
      longCount.Readable) ∧
    ((∀ names, ∃ answer, read names (encode longCountText) = .ok answer) ↔
      longCount.Readable) :=
  ⟨longCount_padded, readers_return_iff longCount_padded⟩

theorem longCount_malformed : longCount.Padded longCountText ∧
    HitDecoder.plain.decode (encode longCountText) = .error .malformedHits ∧
    bucketKeys "status" false (encode longCountText) = .error .malformedBuckets ∧
    read ["status"] (encode longCountText) = .error (.unreadablePath "status") :=
  ⟨longCount_padded, rfl, rfl, rfl⟩

end Response

end SpanStore
