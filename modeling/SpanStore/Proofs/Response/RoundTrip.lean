import SpanStore.Proofs.Bulk.Lines
import SpanStore.Proofs.Response.Streaming
import SpanStore.Proofs.Traversal

namespace SpanStore

open Json Text.Utf8

namespace Response

/-- Neither null, which counts as no document, nor text or bytes, which are written as they are. -/
structure Stored (P : Int → Prop) (d : Value) : Prop where
  structured : d.Structured
  present : present d = true
  exact : d.Exact P

def hit (d : Value) : Value := .object [("_source", d)]

def response (docs : List Value) : Value :=
  .object [("hits", .object [("hits", .list (docs.map hit))])]

def hitBody (line : List UInt8) : List UInt8 :=
  encode "\x7b\"_source\":".toList ++ line ++ encode "\x7d".toList

/-- A response whose hits have given bytes in the places of their documents. -/
def hitsBody (lines : List (List UInt8)) : List UInt8 :=
  encode "\x7b\"hits\":\x7b\"hits\":[".toList ++
    (encode ",".toList).intercalate (lines.map hitBody) ++ encode "]\x7d\x7d".toList

theorem compactBytes_response (docs : List Value) : (response docs).compactBytes .unicode =
    hitsBody (docs.map fun d => d.compactBytes .unicode) := by
  have hhits : (docs.map fun d => d.compactBytes .unicode).map hitBody =
      (docs.map hit).map fun v => v.compactBytes .unicode := by
    rw [List.map_map, List.map_map]
    exact List.map_congr_left fun d _ => (Value.compactBytes_member .unicode "_source" d).symm
  have hbefore : encode "\x7b\"hits\":\x7b\"hits\":[".toList =
      encode ('\x7b' :: Printer.string .unicode "hits" ++ [':']) ++
        (encode ('\x7b' :: Printer.string .unicode "hits" ++ [':']) ++ encode "[".toList) := rfl
  have hafter : encode "]\x7d\x7d".toList =
      encode "]".toList ++ (encode "\x7d".toList ++ encode "\x7d".toList) := rfl
  rw [response, Value.compactBytes_member, Value.compactBytes_member, Value.compactBytes_list,
    hitsBody, hhits, hbefore, hafter]
  simp only [List.append_assoc]

section Found

variable {place : String} {path : List String} (h : joinPlace path ≠ place)

include h

theorem found_member (name : String) (v : Value) :
    (Value.object [(name, v)]).found place path = v.found place (path ++ [name]) := by
  rw [Value.found, if_neg h, Value.foundMembers, Value.foundMembers, List.append_nil]

theorem found_list (vs : List Value) :
    (Value.list vs).found place path = Value.foundItems place (path ++ [itemStep]) vs := by
  rw [Value.found, if_neg h]

end Found

theorem found_hits (docs : List Value) :
    Value.foundItems sourcePlace ["hits", "hits", "item"] (docs.map hit) =
      docs.map Value.distinct := by
  induction docs with
  | nil => rfl
  | cons d docs ih =>
      have hsource : (hit d).found sourcePlace ["hits", "hits", "item"] = [d.distinct] := by
        rw [hit, found_member (by decide), Value.found.eq_def, if_pos (by decide)]
      rw [List.map_cons, Value.foundItems, ih, hsource]
      rfl

theorem found_response (docs : List Value) :
    (response docs).found sourcePlace [] = docs.map Value.distinct :=
  calc (response docs).found sourcePlace []
      = (Value.object [("hits", .list (docs.map hit))]).found sourcePlace ["hits"] :=
        found_member (by decide) "hits" _
    _ = (Value.list (docs.map hit)).found sourcePlace ["hits", "hits"] :=
        found_member (by decide) "hits" _
    _ = Value.foundItems sourcePlace ["hits", "hits", "item"] (docs.map hit) :=
        found_list (by decide) _
    _ = docs.map Value.distinct := found_hits docs

theorem ofSources_plain {docs : List Value} (h : ∀ d ∈ docs, present d = true) :
    HitDecoder.plain.ofSources docs = .ok (some docs) := by
  have hall : docs.filter present = docs := List.filter_eq_self.mpr h
  have hmap : docs.mapM HitDecoder.plain.document = .ok (docs.map id) := mapM_ok fun _ _ => rfl
  rw [List.map_id] at hmap
  rw [HitDecoder.ofSources, hall, hmap]
  cases docs with
  | nil => rfl
  | cons d docs => rfl

theorem response_exact {P : Int → Prop} {docs : List Value} (h : ∀ d ∈ docs, Stored P d) :
    (response docs).Exact P := by
  have hhits : Value.ItemsExact P (docs.map hit) := by
    rw [Value.itemsExact_iff, List.forall_mem_map]
    intro d hd
    exact ⟨List.nodup_singleton _, (h d hd).exact, trivial⟩
  exact ⟨List.nodup_singleton _, ⟨List.nodup_singleton _, hhits, trivial⟩, trivial⟩

theorem mapM_documentLine {P : Int → Prop} {docs : List Value} (h : ∀ d ∈ docs, Stored P d) :
    docs.mapM Bulk.documentLine = .ok (docs.map fun d => d.compactBytes .unicode) := by
  apply mapM_ok
  intro d hd
  rw [Bulk.documentLine_structured (h d hd).structured, (h d hd).exact.holdsBytes_eq]
  rfl

theorem response_allInts_iff {P : Int → Prop} {docs : List Value} :
    (response docs).AllInts P ↔ ∀ d ∈ docs, d.AllInts P := by
  simp [response, hit, Value.AllInts, Value.MembersAllInts, Value.itemsAllInts_iff]

/-- Documents come back from a search as they were written, exactly if the reader has room for their
whole numbers. -/
theorem decode_hitsBody_iff {P : Int → Prop} {docs : List Value} (h : ∀ d ∈ docs, Stored P d) :
    ∃ lines, docs.mapM Bulk.documentLine = .ok lines ∧
      (HitDecoder.plain.decode (hitsBody lines) = .ok (some docs) ↔
        ∀ d ∈ docs, d.AllInts FitsReader) := by
  have htext := Grammar.PaddedText.bare
    (Printer.valueText_compact .unicode _ (response_exact h))
  have hdistinct : docs.map Value.distinct = docs.map id :=
    List.map_congr_left fun d hd => (h d hd).exact.distinct_eq
  refine ⟨_, mapM_documentLine h, ?_⟩
  -- The bytes around the lines make them the text of one value, which the readers agree on.
  rw [← compactBytes_response, Value.compactBytes, ← response_allInts_iff]
  constructor
  · exact allInts_of_decode htext
  · intro hints
    rw [decode_text htext hints, found_response, hdistinct, List.map_id]
    exact ofSources_plain fun d hd => (h d hd).present

def nested : Value :=
  .object [("_source", .object [("item", .int (2 ^ 63 - 1))]),
    ("hits.hits.item._source", .list [.null, .bool true, .text "\"\n😀"])]

theorem decode_hitsBody_nested : (∀ d ∈ [nested, .int (-7), .list []], Stored FitsReader d) ∧
    ∃ lines, [nested, .int (-7), .list []].mapM Bulk.documentLine = .ok lines ∧
      HitDecoder.plain.decode (hitsBody lines) = .ok (some [nested, .int (-7), .list []]) := by
  have hnested : Stored FitsReader nested :=
    ⟨trivial, rfl, by simp [nested, Value.Exact, Value.MembersExact, Value.ItemsExact, FitsReader]⟩
  have hint : Stored FitsReader (.int (-7)) := ⟨trivial, rfl, by simp [Value.Exact, FitsReader]⟩
  have hlist : Stored FitsReader (.list []) := ⟨trivial, rfl, trivial⟩
  have hall : ∀ d ∈ [nested, .int (-7), .list []], Stored FitsReader d := by
    simp [hnested, hint, hlist]
  obtain ⟨lines, hlines, hdecode⟩ := decode_hitsBody_iff hall
  exact ⟨hall, lines, hlines, hdecode.mpr fun d hd => (hall d hd).exact.allInts⟩

theorem leastLong_not_decoded : Stored (fun n => -(2 ^ 63) ≤ n ∧ n < 2 ^ 63) leastLong ∧
    ∃ line, Bulk.documentLine leastLong = .ok line ∧
      HitDecoder.plain.decode (hitsBody [line]) ≠ .ok (some [leastLong]) := by
  refine ⟨⟨trivial, rfl, ?_⟩, _, rfl, ?_⟩
  · exact ⟨List.nodup_singleton _, ⟨by decide, by decide⟩, trivial⟩
  · have hdecode : HitDecoder.plain.decode (hitsBody [leastLong.compactBytes .unicode]) =
        .error .malformedHits := rfl
    rw [hdecode]
    exact nofun

end Response

end SpanStore
