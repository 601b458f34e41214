import SpanStore.Proofs.Json.Trail
import SpanStore.Proofs.Response.RoundTrip
import SpanStore.Proofs.Response.Validity
import SpanStore.Search.Query

/-!
Responses that answer the aggregations of a search. The keys of one aggregation are told from those
of the others by the dotted place of its buckets alone, and the place of a nested aggregation has
its name twice; so names with dots in them may bring in what other aggregations were answered.
-/
namespace SpanStore

open Json Json.Grammar Text.Utf8

namespace Search

namespace Query

structure Keyed (q : Query) : Prop where
  field : ∀ e ∈ q.aggregations, e.2.field = e.1
  nodup : (q.aggregations.map Prod.fst).Nodup

theorem keyed_ofIndices (indices : List String) (typeName : String) :
    (ofIndices indices typeName).Keyed := ⟨nofun, List.nodup_nil⟩

theorem Keyed.changed {q q' : Query} (hq : q.Keyed) {c : Change} (h : q.changed c = .ok q') :
    q'.Keyed := by
  cases c with
  | aggregate a =>
      obtain rfl := Except.ok.inj h
      refine ⟨fun e he => ?_, Ordered.nodup_put hq.nodup⟩
      rcases Ordered.mem_of_mem_put he with rfl | he
      · rfl
      · exact hq.field e he
  | filters fs =>
      rw [Query.changed] at h
      cases hcs : fs.mapM Filter.clause with
      | error f =>
          rw [hcs] at h
          cases h
      | ok cs =>
          rw [hcs] at h
          obtain rfl := Except.ok.inj h
          exact ⟨hq.field, hq.nodup⟩
  | _ =>
      obtain rfl := Except.ok.inj h
      exact ⟨hq.field, hq.nodup⟩

theorem Keyed.changeAll {q q' : Query} (hq : q.Keyed) {cs : List Change}
    (h : q.changeAll cs = .ok q') : q'.Keyed := by
  induction cs generalizing q with
  | nil =>
      obtain rfl := Except.ok.inj h
      exact hq
  | cons c cs ih =>
      rw [Query.changeAll, List.foldlM_cons] at h
      cases hc : q.changed c with
      | error f =>
          rw [hc] at h
          cases h
      | ok p =>
          rw [hc] at h
          exact ih (hq.changed hc) h

theorem Keyed.nodup_fields {q : Query} (hq : q.Keyed) :
    (q.aggregations.map fun e => e.2.field).Nodup := by
  have hfields : (q.aggregations.map fun e => e.2.field) = q.aggregations.map Prod.fst :=
    List.map_congr_left hq.field
  rw [hfields]
  exact hq.nodup

end Query

namespace Aggregation

def inner (a : Aggregation) : List String := if a.nestedPath.isSome then [a.field] else []

def spelling (a : Aggregation) : String :=
  a.field ++ if a.nestedPath.isSome then "." ++ a.field else ""

end Aggregation

end Search

namespace Response

open Search

def Scalar : Value → Prop
  | .list _ => False
  | .object _ => False
  | _ => True

structure Bucket where
  key : Value
  count : Int
  scalar : Scalar key

def Bucket.toValue (b : Bucket) : Value := .object [("key", b.key), ("doc_count", .int b.count)]

/-- The answers to what an aggregation asks for: the names of the aggregations inside of it, and the
keys of its buckets in order. -/
inductive Answers : Value → List String → List Value → Value → Prop where
  | terms {field : String} {size : Int} (buckets : List Bucket) :
      Answers (single "terms" (.object [("field", .text field), ("size", .int size)])) []
        (buckets.map Bucket.key) (single "buckets" (.list (buckets.map Bucket.toValue)))
  | nested {path name : String} {sub answer : Value} {names : List String} {keys : List Value}
      (count : Int) (h : Answers sub names keys answer) :
      Answers (.object [("nested", single "path" (.text path)), ("aggs", single name sub)])
        (name :: names) keys (.object [("doc_count", .int count), (name, answer)])

theorem Answers.names_of_terms {v answer : Value} {names : List String} {keys : List Value}
    (h : Answers (single "terms" v) names keys answer) : names = [] := by
  generalize hasked : single "terms" v = asked at h
  cases h with
  | terms buckets => rfl
  | nested count h => simp [single] at hasked

theorem Answers.names_eq {a : Aggregation} {names : List String} {keys : List Value}
    {answer : Value} (h : Answers a.toValue names keys answer) : names = a.inner := by
  rw [Aggregation.inner]
  cases hpath : a.nestedPath with
  | none =>
      rw [Aggregation.toValue, hpath] at h
      exact h.names_of_terms
  | some path =>
      generalize hasked : a.toValue = asked at h
      rw [Aggregation.toValue, hpath] at hasked
      cases h with
      | terms buckets => simp [single] at hasked
      | @nested _ name _ _ _ _ count h =>
          obtain ⟨-, rfl, rfl⟩ : _ ∧ a.field = name ∧ _ := by simpa [single] using hasked
          rw [h.names_of_terms]
          rfl

def keyWay : List String := ["buckets", itemStep, "key"]

theorem found_scalar {place : String} {v : Value} (hv : Scalar v) (path : List String) :
    v.found place path = if joinPlace path = place then [v] else [] := by
  cases v with
  | list items => exact hv.elim
  | object members => exact hv.elim
  | _ => exact Value.found.eq_def _ _ _

section Found

variable {place : String} (hplace : place.toList.getLast? = some 'y')

include hplace

theorem joinPlace_ne_of_getLast (path : List String) (name : String)
    (hname : name.toList.getLast?.any (· != 'y')) : joinPlace (path ++ [name]) ≠ place := by
  rintro rfl
  obtain ⟨c, hlast, hc⟩ := (Option.any_eq_true _ _).mp hname
  have hstep : (if path.isEmpty then name.toList else '.' :: name.toList).getLast? = some c := by
    split
    · exact hlast
    · rw [List.getLast?_cons, hlast, Option.getD_some]
  rw [joinPlace_step, List.getLast?_append, hstep, Option.some_or] at hplace
  obtain rfl := Option.some.inj hplace
  exact absurd hc (by decide)

theorem found_bucket (b : Bucket) (path : List String) :
    b.toValue.found place (path ++ [itemStep]) =
      if joinPlace (path ++ [itemStep, "key"]) = place then [b.key] else [] := by
  have hitem := joinPlace_ne_of_getLast hplace path itemStep (by decide)
  have hcount := joinPlace_ne_of_getLast hplace (path ++ [itemStep]) "doc_count" (by decide)
  rw [← List.append_cons] at hcount
  rw [Bucket.toValue, Value.found, if_neg hitem]
  simp [Value.foundMembers, found_scalar b.scalar, Value.found, hcount]

theorem found_buckets (buckets : List Bucket) (path : List String) :
    Value.foundItems place (path ++ [itemStep]) (buckets.map Bucket.toValue) =
      if joinPlace (path ++ [itemStep, "key"]) = place then buckets.map Bucket.key else [] := by
  induction buckets with
  | nil => simp [Value.foundItems]
  | cons b buckets ih =>
      rw [List.map_cons, Value.foundItems, found_bucket hplace, ih]
      split <;> rfl

theorem Answers.found_eq {asked answer : Value} {names : List String} {keys : List Value}
    (h : Answers asked names keys answer) {path : List String}
    (hway : ∀ ns, ns <+: names → joinPlace (path ++ ns) ≠ place) :
    answer.found place path =
      if joinPlace (path ++ names ++ keyWay) = place then keys else [] := by
  induction h generalizing path with
  | terms buckets =>
      have hhere := hway [] (List.prefix_refl _)
      rw [List.append_nil] at hhere ⊢
      have hbuckets := joinPlace_ne_of_getLast hplace path "buckets" (by decide)
      have hkeys : path ++ ["buckets"] ++ [itemStep, "key"] = path ++ keyWay :=
        (List.append_cons path "buckets" _).symm
      rw [single, found_member hhere, found_list hbuckets, found_buckets hplace, hkeys]
  | @nested _ name _ _ names _ count h ih =>
      have hhere := hway [] (List.nil_prefix)
      rw [List.append_nil] at hhere
      have hcount := joinPlace_ne_of_getLast hplace path "doc_count" (by decide)
      have hinner : ∀ ns, ns <+: names → joinPlace (path ++ [name] ++ ns) ≠ place := by
        intro ns hns
        rw [← List.append_cons]
        exact hway (name :: ns) (List.cons_prefix_cons.mpr ⟨rfl, hns⟩)
      rw [Value.found, if_neg hhere]
      simp [Value.foundMembers, Value.found, hcount, ih hinner]

end Found

theorem Answers.exists_leads {asked answer : Value} {names : List String} {keys : List Value}
    (h : Answers asked names keys answer) {ns : List String} (hns : ns <+: names) :
    ∃ u, Leads (ns.map Hop.member) answer u := by
  induction h generalizing ns with
  | terms buckets =>
      obtain rfl := List.prefix_nil.mp hns
      exact ⟨_, .here⟩
  | nested count h ih =>
      cases ns with
      | nil => exact ⟨_, .here⟩
      | cons n ns =>
          obtain ⟨rfl, hrest⟩ := List.cons_prefix_cons.mp hns
          obtain ⟨u, hu⟩ := ih hrest
          exact ⟨u, .member (List.mem_cons_of_mem _ List.mem_cons_self) hu⟩

theorem Answers.found_eq_nil_iff {place : String} (hplace : place.toList.getLast? = some 'y')
    {asked answer : Value} {names : List String} {keys : List Value}
    (h : Answers asked names keys answer) (path : List String) :
    answer.found place path = [] ↔
      (∀ ns, ns <+: names → joinPlace (path ++ ns) ≠ place) ∧
        (joinPlace (path ++ names ++ keyWay) = place → keys = []) := by
  by_cases hway : ∀ ns, ns <+: names → joinPlace (path ++ ns) ≠ place
  · rw [h.found_eq hplace hway, and_iff_right hway]
    by_cases hjoin : joinPlace (path ++ names ++ keyWay) = place
    · rw [if_pos hjoin]
      exact ⟨fun hnone _ => hnone, fun hnone => hnone hjoin⟩
    · rw [if_neg hjoin]
      exact iff_of_true rfl fun h => absurd h hjoin
  · refine iff_of_false (fun hnil => hway fun ns hns hjoin => ?_) (fun hboth => hway hboth.1)
    obtain ⟨u, hu⟩ := h.exists_leads hns
    have hne : place ≠ "" := by
      rintro rfl
      exact absurd hplace (by decide)
    have hnames : (ns.map Hop.member).map Hop.name = ns := by
      rw [List.map_map]
      exact List.map_id ns
    have hmem := Value.mem_found_of_leads hne hu path (by rw [hnames, hjoin])
    rw [hnil] at hmem
    cases hmem

/-- The answer to one aggregation of a search, and the keys of its buckets. -/
structure Reply where
  aggregation : Aggregation
  names : List String
  keys : List Value
  answer : Value
  answers : Answers aggregation.toValue names keys answer

namespace Reply

def member (r : Reply) : String × Value := (r.aggregation.field, r.answer)

def place (r : Reply) : String :=
  keyPlace r.aggregation.field r.aggregation.nestedPath.isSome

/-- Nothing of the answer is spelled as the keys of another one are. -/
structure Apart (s r : Reply) : Prop where
  field : s.aggregation.field ≠ r.aggregation.spelling ++ ".buckets.item.key"
  spelling : s.aggregation.spelling ≠ r.aggregation.spelling ++ ".buckets.item.key"
  keys : s.aggregation.spelling = r.aggregation.spelling → s.keys = []

theorem place_eq (r : Reply) :
    r.place = "aggregations." ++ (r.aggregation.spelling ++ ".buckets.item.key") := by
  have hplace : r.place = "aggregations." ++ r.aggregation.field ++
      (if r.aggregation.nestedPath.isSome then "." ++ r.aggregation.field else "") ++
      ".buckets.item.key" := rfl
  rw [hplace, Aggregation.spelling, String.append_assoc, String.append_assoc, String.append_assoc]

theorem joinPlace_way (r : Reply) :
    joinPlace (["aggregations", r.aggregation.field] ++ r.names) =
      "aggregations." ++ r.aggregation.spelling := by
  rw [r.answers.names_eq, Aggregation.inner, Aggregation.spelling]
  split <;> simp [joinPlace, String.append_assoc]

theorem joinPlace_keys (r : Reply) :
    joinPlace (["aggregations", r.aggregation.field] ++ r.names ++ keyWay) = r.place := by
  rw [joinPlace, String.intercalate_append_of_ne_nil (by simp) (by simp [keyWay]), ← joinPlace,
    joinPlace_way, place_eq, String.append_assoc, String.append_assoc]
  rfl

theorem getLast?_place (r : Reply) : r.place.toList.getLast? = some 'y' := by
  rw [place_eq, String.toList_append, String.toList_append, List.getLast?_append,
    List.getLast?_append]
  rfl

theorem place_ne (r : Reply) : r.place ≠ "" := by
  intro h
  have hlast := r.getLast?_place
  rw [h] at hlast
  exact absurd hlast (by decide)

theorem found_self (r : Reply) :
    r.answer.found r.place ["aggregations", r.aggregation.field] = r.keys := by
  have hway : ∀ ns, ns <+: r.names →
      joinPlace (["aggregations", r.aggregation.field] ++ ns) ≠ r.place := by
    rintro ns ⟨rest, hrest⟩
    obtain ⟨name, names, hnames⟩ : ∃ name names, rest ++ keyWay = name :: names :=
      List.exists_cons_of_ne_nil (by simp [keyWay])
    have hjoin : joinPlace (["aggregations", r.aggregation.field] ++ ns ++ name :: names) =
        r.place := by
      rw [← hnames, ← List.append_assoc, List.append_assoc _ ns, hrest]
      exact r.joinPlace_keys
    exact joinPlace_ne_of_append r.place_ne hjoin
  rw [r.answers.found_eq r.getLast?_place hway, if_pos r.joinPlace_keys]

theorem eq_nil_or_eq_of_prefix (r : Reply) {ns : List String} (h : ns <+: r.names) :
    ns = [] ∨ ns = r.names := by
  rw [r.answers.names_eq, Aggregation.inner] at h ⊢
  split at h
  · rename_i hnested
    rw [if_pos hnested]
    rcases List.prefix_cons_iff.mp h with rfl | ⟨ns, rfl, hns⟩
    · exact .inl rfl
    · rw [List.prefix_nil.mp hns]
      exact .inr rfl
  · exact .inl (List.prefix_nil.mp h)

theorem found_eq_nil_iff (s r : Reply) :
    s.answer.found r.place ["aggregations", s.aggregation.field] = [] ↔ s.Apart r := by
  have hplace (name : String) : "aggregations." ++ name = r.place ↔
      name = r.aggregation.spelling ++ ".buckets.item.key" := by
    rw [r.place_eq, String.append_right_inj]
  have hfield : joinPlace (["aggregations", s.aggregation.field] ++ []) =
      "aggregations." ++ s.aggregation.field := by simp [joinPlace]
  have hkeys : s.place = r.place ↔ s.aggregation.spelling = r.aggregation.spelling := by
    rw [s.place_eq, hplace, String.append_left_inj]
  rw [s.answers.found_eq_nil_iff r.getLast?_place, s.joinPlace_keys, hkeys]
  constructor
  · rintro ⟨hway, hnone⟩
    refine ⟨fun h => ?_, fun h => ?_, hnone⟩
    · exact hway [] List.nil_prefix (hfield.trans ((hplace _).mpr h))
    · exact hway s.names (List.prefix_refl _) (s.joinPlace_way.trans ((hplace _).mpr h))
  · rintro ⟨hshort, hlong, hnone⟩
    refine ⟨fun ns hns h => ?_, hnone⟩
    rcases s.eq_nil_or_eq_of_prefix hns with rfl | rfl
    · exact hshort ((hplace _).mp (hfield.symm.trans h))
    · exact hlong ((hplace _).mp (s.joinPlace_way.symm.trans h))

end Reply

def aggregated (before : List (String × Value)) (replies : List Reply)
    (after : List (String × Value)) : Value :=
  .object (before ++ ("aggregations", .object (replies.map Reply.member)) :: after)

theorem around_eq_self_iff {α : Type} (ks before after : List α) :
    before ++ (ks ++ after) = ks ↔ before = [] ∧ after = [] := by
  constructor
  · intro h
    have hlength := congrArg List.length h
    rw [List.length_append, List.length_append] at hlength
    exact ⟨List.length_eq_zero_iff.mp (by omega), List.length_eq_zero_iff.mp (by omega)⟩
  · rintro ⟨rfl, rfl⟩
    exact List.append_nil ks

theorem found_answers (replies : List Reply) (r : Reply) :
    (Value.object (replies.map Reply.member)).found r.place ["aggregations"] =
      replies.flatMap fun s => s.answer.found r.place ["aggregations", s.aggregation.field] := by
  have hhere : joinPlace ["aggregations"] ≠ r.place :=
    joinPlace_ne_of_getLast r.getLast?_place [] "aggregations" (by decide)
  rw [Value.found, if_neg hhere, Value.foundMembers_eq_flatMap, List.flatMap_map]
  rfl

theorem found_members (ms : List (String × Value)) (r : Reply) :
    (Value.object ms).found r.place [] = ms.flatMap fun m => m.2.found r.place [m.1] := by
  have hroot : joinPlace [] ≠ r.place := r.place_ne.symm
  rw [Value.found, if_neg hroot, Value.foundMembers_eq_flatMap]
  rfl

/-- The keys of an answer stand in the response, and no others are found exactly if no other
answer and nothing outside of the answers has something in their place. -/
theorem found_aggregated_eq_iff {before after : List (String × Value)} {replies : List Reply}
    {r : Reply} (hfields : (replies.map fun s => s.aggregation.field).Nodup) (hr : r ∈ replies) :
    (aggregated before replies after).found r.place [] = r.keys ↔
      (∀ s ∈ replies, s.aggregation.field ≠ r.aggregation.field → s.Apart r) ∧
        ∀ hops u, Leads hops (.object (before ++ after)) u →
          joinPlace (hops.map Hop.name) ≠ r.place := by
  obtain ⟨first, last, rfl⟩ := List.append_of_mem hr
  rw [List.map_append, List.map_cons, List.nodup_middle, List.nodup_cons, ← List.map_append,
    List.mem_map] at hfields
  have hothers (s : Reply) : s ∈ first ++ last ↔
      s ∈ first ++ r :: last ∧ s.aggregation.field ≠ r.aggregation.field := by
    rw [List.mem_append, List.mem_append, List.mem_cons]
    constructor
    · intro hs
      exact ⟨hs.imp id .inr, fun h => hfields.1 ⟨s, List.mem_append.mpr hs, h⟩⟩
    · rintro ⟨hs | rfl | hs, hne⟩
      · exact .inl hs
      · exact absurd rfl hne
      · exact .inr hs
  have hapart : (∀ s ∈ first ++ r :: last, s.aggregation.field ≠ r.aggregation.field →
      s.Apart r) ↔ ∀ s ∈ first ++ last,
        s.answer.found r.place ["aggregations", s.aggregation.field] = [] := by
    simp only [hothers, Reply.found_eq_nil_iff, and_imp]
  rw [hapart, ← Value.found_root_eq_nil_iff r.place_ne, aggregated, found_members, found_members,
    List.flatMap_append, List.flatMap_append, List.flatMap_cons]
  simp only [found_answers, List.flatMap_append, List.flatMap_cons, r.found_self]
  rw [List.append_assoc, List.append_assoc, ← List.append_assoc, around_eq_self_iff,
    ← List.flatMap_eq_nil_iff, List.flatMap_append]
  simp only [List.append_eq_nil_iff]
  tauto

theorem nodup_fields {indices : List String} {typeName : String} {cs : List Change} {q : Query}
    (hq : (Query.ofIndices indices typeName).changeAll cs = .ok q) {replies : List Reply}
    (hreplies : (replies.map Reply.aggregation).Perm (q.aggregations.map Prod.snd)) :
    (replies.map fun s => s.aggregation.field).Nodup := by
  have hkeyed := (Query.keyed_ofIndices indices typeName).changeAll hq
  have hfields := (hreplies.map Aggregation.field).nodup_iff
  rw [List.map_map, List.map_map] at hfields
  exact hfields.mpr hkeyed.nodup_fields

/-- Of the answers to all aggregations of a search every decoder gives the keys of its own, exactly
if the reader has room for the whole numbers of the response, no other answer is spelled as these
keys, and nothing outside of the answers is. -/
theorem bucketKeys_answered {indices : List String} {typeName : String} {cs : List Change}
    {q : Query} (hq : (Query.ofIndices indices typeName).changeAll cs = .ok q)
    {replies : List Reply}
    (hreplies : (replies.map Reply.aggregation).Perm (q.aggregations.map Prod.snd))
    {before after : List (String × Value)} {t : List Char}
    (ht : PaddedText (aggregated before replies after) t) {r : Reply} (hr : r ∈ replies) :
    bucketKeys r.aggregation.field r.aggregation.nestedPath.isSome (encode t) = .ok r.keys ↔
      (aggregated before replies after).AllInts FitsReader ∧
        (∀ s ∈ replies, s.aggregation.field ≠ r.aggregation.field → s.Apart r) ∧
        ∀ hops u, Leads hops (.object (before ++ after)) u →
          joinPlace (hops.map Hop.name) ≠ r.place := by
  by_cases hints : (aggregated before replies after).AllInts FitsReader
  · rw [bucketKeys_text ht hints, Except.ok.injEq, and_iff_right hints]
    exact found_aggregated_eq_iff (nodup_fields hq hreplies) hr
  · exact iff_of_false (fun hkeys => hints ((bucketKeys_text_returns_iff ht _ _).mp ⟨_, hkeys⟩))
      fun hall => hints hall.1

def Bucket.ofText (s : String) : Bucket := ⟨.text s, 1, trivial⟩

def nestedReply : Reply where
  aggregation := { field := "a", nestedPath := some "tags" }
  names := ["a"]
  keys := [.text "x"]
  answer := .object [("doc_count", .int 1),
    ("a", single "buckets" (.list [(Bucket.ofText "x").toValue]))]
  answers := .nested 1 (.terms [.ofText "x"])

def flatReply : Reply where
  aggregation := { field := "a.a" }
  names := []
  keys := [.text "y"]
  answer := single "buckets" (.list [(Bucket.ofText "y").toValue])
  answers := .terms [.ofText "y"]

def doubled : Query :=
  { Query.ofIndices ["spans"] "span" with
    aggregations := [("a", nestedReply.aggregation), ("a.a", flatReply.aggregation)] }

theorem changeAll_doubled : (Query.ofIndices ["spans"] "span").changeAll
    [.aggregate nestedReply.aggregation, .aggregate flatReply.aggregation] = .ok doubled := rfl

def doubledAnswer : Value := aggregated [] [nestedReply, flatReply] []

def doubledText : List Char :=
  "\x7b\"aggregations\":\x7b\"a\":\x7b\"doc_count\":1,\"a\":\x7b\"buckets\":".toList ++
    "[\x7b\"key\":\"x\",\"doc_count\":1\x7d]\x7d\x7d,".toList ++
    "\"a.a\":\x7b\"buckets\":[\x7b\"key\":\"y\",\"doc_count\":1\x7d]\x7d\x7d\x7d".toList

theorem doubled_text : PaddedText doubledAnswer doubledText := by
  have hfloats : doubledAnswer.AllFloats (Binary64.isFinite ·) := by
    simp [doubledAnswer, aggregated, Reply.member, nestedReply, flatReply, single, Bucket.toValue,
      Bucket.ofText, Value.AllFloats, Value.MembersAllFloats, Value.ItemsAllFloats]
  have hprinted : Printer.compact .ascii doubledAnswer = doubledText := by cbv
  have htext := Printer.valueText_finite .ascii doubledAnswer rfl hfloats
  rw [hprinted] at htext
  exact .bare htext

theorem bucketKeys_answered_doubled :
    (Query.ofIndices ["spans"] "span").changeAll
        [.aggregate nestedReply.aggregation, .aggregate flatReply.aggregation] = .ok doubled ∧
      ([nestedReply, flatReply].map Reply.aggregation).Perm (doubled.aggregations.map Prod.snd) ∧
      PaddedText doubledAnswer doubledText ∧
      (bucketKeys flatReply.aggregation.field flatReply.aggregation.nestedPath.isSome
          (encode doubledText) = .ok flatReply.keys ↔
        doubledAnswer.AllInts FitsReader ∧
          (∀ s ∈ [nestedReply, flatReply], s.aggregation.field ≠ flatReply.aggregation.field →
            s.Apart flatReply) ∧
          ∀ hops u, Leads hops (.object ([] ++ [])) u →
            joinPlace (hops.map Hop.name) ≠ flatReply.place) := by
  have hmem : flatReply ∈ [nestedReply, flatReply] := List.mem_cons_of_mem _ List.mem_cons_self
  have hall : ([nestedReply, flatReply].map Reply.aggregation).Perm
      (doubled.aggregations.map Prod.snd) := .refl _
  refine ⟨changeAll_doubled, hall, doubled_text, ?_⟩
  exact bucketKeys_answered changeAll_doubled hall doubled_text hmem

theorem doubled_mixed :
    (Query.ofIndices ["spans"] "span").changeAll
        [.aggregate nestedReply.aggregation, .aggregate flatReply.aggregation] = .ok doubled ∧
      ([nestedReply, flatReply].map Reply.aggregation).Perm (doubled.aggregations.map Prod.snd) ∧
      PaddedText doubledAnswer doubledText ∧
      bucketKeys "a.a" false (encode doubledText) = .ok [.text "x", .text "y"] ∧
      bucketKeys "a.a" false (encode doubledText) ≠ .ok flatReply.keys := by
  have hints : doubledAnswer.AllInts FitsReader := by
    simp [doubledAnswer, aggregated, Reply.member, nestedReply, flatReply, single, Bucket.toValue,
      Bucket.ofText, Value.AllInts, Value.MembersAllInts, Value.ItemsAllInts, FitsReader]
  have hkeys : bucketKeys "a.a" false (encode doubledText) = .ok [.text "x", .text "y"] := by
    rw [bucketKeys_text doubled_text hints]
    rfl
  refine ⟨changeAll_doubled, .refl _, doubled_text, hkeys, ?_⟩
  rw [hkeys, flatReply]
  simp

end Response

end SpanStore
