import SpanStore.Proofs.Json.Exact
import SpanStore.Proofs.Json.Trail
import SpanStore.Proofs.Response.Validity

namespace SpanStore

open Json Json.Grammar Text.Utf8

namespace Response

def sourceWay : List Hop := [.member "hits", .member "hits", .item, .member "_source"]

theorem joinPlace_sourceWay : joinPlace (sourceWay.map Hop.name) = sourcePlace := rfl

theorem plain_of_mem_sourceWay : ∀ hop ∈ sourceWay, hop.Plain := by
  simp [sourceWay, Hop.Plain, itemStep]

/-- No list stands where the hits of a response do. -/
def Hitless (v : Value) : Prop :=
  ∀ items, ¬ Leads [.member "hits", .member "hits"] v (.list items)

/-- Something is spelled as the document of a hit is, and is none. -/
def Disguised (v : Value) : Prop :=
  ∃ hops u, Leads hops v u ∧ present u = true ∧ joinPlace (hops.map Hop.name) = sourcePlace ∧
    ∃ hop ∈ hops, ¬ hop.Plain

theorem Hitless.not_leads {v u : Value} (h : Hitless v) : ¬ Leads sourceWay v u := by
  rintro (_ | _ | ⟨houter, _ | _ | ⟨hinner, hitem⟩⟩)
  cases hitem with
  | item _ _ => exact h _ (.member houter (.member hinner .here))

theorem Hitless.exists_not_plain {v u : Value} (h : Hitless v) {hops : List Hop}
    (hleads : Leads hops v u) (hjoin : joinPlace (hops.map Hop.name) = sourcePlace) :
    ∃ hop ∈ hops, ¬ hop.Plain := by
  by_contra hplain
  have hall : ∀ hop ∈ hops, hop.Plain := by
    intro hop hmem
    by_contra hnot
    exact hplain ⟨hop, hmem, hnot⟩
  have hne : hops ≠ [] := by
    rintro rfl
    exact absurd hjoin (by decide)
  have hway : hops = sourceWay :=
    Hop.eq_of_joinPlace hall plain_of_mem_sourceWay hne (List.cons_ne_nil _ _)
      (hjoin.trans joinPlace_sourceWay.symm)
  rw [hway] at hleads
  exact h.not_leads hleads

theorem present_distinct (v : Value) : present v.distinct = present v := by
  cases v <;> rfl

theorem Hitless.disguised_iff {v : Value} (h : Hitless v) :
    Disguised v ↔ (v.found sourcePlace []).filter present ≠ [] := by
  have hplace : sourcePlace ≠ "" := by decide
  constructor
  · rintro ⟨hops, u, hleads, hpresent, hjoin, -⟩
    have hfound := (Value.mem_found_iff hplace).mpr ⟨hops, u, hleads, hjoin, rfl⟩
    refine List.ne_nil_of_mem (List.mem_filter.mpr ⟨hfound, ?_⟩)
    rwa [present_distinct]
  · intro hne
    obtain ⟨w, hw⟩ := List.exists_mem_of_ne_nil _ hne
    obtain ⟨hfound, hpresent⟩ := List.mem_filter.mp hw
    obtain ⟨hops, u, hleads, hjoin, rfl⟩ := (Value.mem_found_iff hplace).mp hfound
    rw [present_distinct] at hpresent
    exact ⟨hops, u, hleads, hpresent, hjoin, h.exists_not_plain hleads hjoin⟩

namespace HitDecoder

variable {α : Type} (decoder : HitDecoder α)

def empty : Option (List α) := if decoder.emptyIsNone then none else some []

theorem ofSources_eq_empty_iff (sources : List Value) :
    decoder.ofSources sources = .ok decoder.empty ↔ sources.filter present = [] := by
  rw [ofSources, empty]
  cases sources.filter present with
  | nil => exact iff_of_true rfl rfl
  | cons w ws =>
      refine iff_of_false ?_ (List.cons_ne_nil w ws)
      rw [List.mapM_cons]
      cases decoder.document w with
      | error f => simp [bind, Except.bind]
      | ok a =>
          cases ws.mapM decoder.document with
          | error f => simp [bind, Except.bind]
          | ok as => cases decoder.emptyIsNone <;> simp [bind, Except.bind, pure, Except.pure]

end HitDecoder

/-- Of a response without a list of hits every decoder gives its answer for no documents, exactly if
the reader has room for its whole numbers and nothing in it is disguised as a document. -/
theorem decode_hitless {v : Value} {t : List Char} (h : PaddedText v t) (hv : Hitless v)
    {α : Type} (decoder : HitDecoder α) :
    decoder.decode (encode t) = .ok decoder.empty ↔ v.AllInts FitsReader ∧ ¬ Disguised v := by
  by_cases hints : v.AllInts FitsReader
  · rw [decode_text h hints, decoder.ofSources_eq_empty_iff, hv.disguised_iff, not_not]
    exact (and_iff_right hints).symm
  · exact iff_of_false (fun hdecode => hints (allInts_of_decode h hdecode))
      fun hboth => hints hboth.1

def itemHits : Value :=
  .object [("hits", .object [("hits", .object [("item", .object [("_source", .object
    [("n", .int 7)])])])])]

def itemHitsText : List Char :=
  "\x7b\"hits\":\x7b\"hits\":\x7b\"item\":\x7b\"_source\":\x7b\"n\":7\x7d\x7d\x7d\x7d\x7d".toList

theorem itemHits_text : PaddedText itemHits itemHitsText := by
  have hmember {v : Value} {t : List Char} (hv : ValueText v t) (name : String)
      (hname : name.toList.all isPlain = true) :
      ValueText (.object [(name, v)])
        ('\x7b' :: ('\x22' :: name.toList ++ ['\x22'] ++ ':' :: t) ++ ['\x7d']) :=
    .object (.bare (.quoted (.plain hname)) hv)
  have hwhole : Whole ['7'] := ⟨⟨by decide, by simp⟩, by simp⟩
  have hseven : IntText 7 ['7'] := IntText.positive hwhole
  exact .bare (hmember (hmember (hmember (hmember (hmember (.int hseven) "n" rfl)
    "_source" rfl) "item" rfl) "hits" rfl) "hits" rfl)

theorem itemHits_hitless : Hitless itemHits := by
  rintro items (_ | _ | ⟨houter, _ | _ | ⟨hinner, hlist⟩⟩)
  cases hlist
  simp at houter
  obtain rfl := houter
  simp at hinner

theorem decode_hitless_itemHits : PaddedText itemHits itemHitsText ∧ Hitless itemHits ∧
    (HitDecoder.plain.decode (encode itemHitsText) = .ok HitDecoder.plain.empty ↔
      itemHits.AllInts FitsReader ∧ ¬ Disguised itemHits) :=
  ⟨itemHits_text, itemHits_hitless, decode_hitless itemHits_text itemHits_hitless .plain⟩

theorem disguised_itemHits : Disguised itemHits := by
  refine ⟨[.member "hits", .member "hits", .member "item", .member "_source"],
    .object [("n", .int 7)], ?_, rfl, by decide, .member "item", by simp, fun h => h.1 rfl⟩
  exact .member (.head _) (.member (.head _) (.member (.head _) (.member (.head _) .here)))

theorem itemHits_disguised : PaddedText itemHits itemHitsText ∧
    itemHits.Exact (fun n => -(2 ^ 63) ≤ n ∧ n < 2 ^ 63) ∧ Hitless itemHits ∧
    HitDecoder.plain.decode (encode itemHitsText) ≠ .ok HitDecoder.plain.empty := by
  refine ⟨itemHits_text, ?_, itemHits_hitless, ?_⟩
  · simp [itemHits, Value.Exact, Value.MembersExact]
  · have hints : itemHits.AllInts FitsReader := by
      simp [itemHits, Value.AllInts, Value.MembersAllInts, FitsReader]
    rw [decode_text itemHits_text hints, ne_eq, HitDecoder.ofSources_eq_empty_iff]
    exact itemHits_hitless.disguised_iff.mp disguised_itemHits

end Response

end SpanStore
