import SpanStore.Proofs.Ordered
import SpanStore.Proofs.Search.Naming
import SpanStore.Proofs.Traversal

namespace SpanStore.Search

open Json (Value)

namespace Change

/-- The clause that a change sets the query to, or why it cannot be built; none for an
aggregation. -/
def clause : Change → Except Fault (Option Clause)
  | .term field v => .ok (some (.term field v))
  | .terms field vs => .ok (some (.terms field vs))
  | .service name => .ok (some (.service name))
  | .filters fs => (fs.mapM Filter.clause).map fun cs => some (.all cs)
  | .aggregate _ => .ok none

def clause? (c : Change) : Option Clause := c.clause.toOption.join

def aggregation? : Change → Option Aggregation
  | .aggregate a => some a
  | _ => none

def isQuery (c : Change) : Bool := c.aggregation?.isNone

def lastClause (cs : List Change) : Option Clause := (cs.filterMap clause?).getLast?

def added (cs : List Change) : List Aggregation := cs.filterMap aggregation?

theorem lastClause_concat (cs : List Change) (c : Change) :
    lastClause (cs ++ [c]) = c.clause?.or (lastClause cs) := by
  rw [lastClause, List.filterMap_append, List.getLast?_append, lastClause]
  cases h : c.clause? <;> simp [h]

theorem added_concat (cs : List Change) (c : Change) :
    added (cs ++ [c]) = added cs ++ c.aggregation?.toList := by
  rw [added, List.filterMap_append, added]
  cases h : c.aggregation? <;> simp [h]

theorem lastClause_filter (cs : List Change) : lastClause (cs.filter isQuery) = lastClause cs := by
  have hquery (c : Change) : (if c.isQuery then c.clause? else none) = c.clause? := by
    cases c <;> rfl
  simp only [lastClause, List.filterMap_filter, hquery]

theorem added_filter (cs : List Change) :
    added (cs.filter fun c => !c.isQuery) = added cs := by
  have hother (c : Change) :
      (if !c.isQuery then c.aggregation? else none) = c.aggregation? := by
    cases c <;> rfl
  simp only [added, List.filterMap_filter, hother]

end Change

theorem Clause.nestedTerms_eq_error_iff {terms : List (String × Value)} {f : Fault} :
    nestedTerms terms = .error f ↔ terms = [] ∧ f = .noNestedTerms := by
  by_cases h : terms = []
  · subst h
    simpa [nestedTerms, Ordered.ofPairs] using eq_comm
  · obtain ⟨path, hok, -⟩ := nestedTerms_ok h
    simp [hok, h]

theorem Filter.clause_eq_error_iff {filter : Filter} {f : Fault} :
    filter.clause = .error f ↔ filter = .nested [] ∧ f = .noNestedTerms := by
  cases filter with
  | nested terms => simp [clause, Clause.nestedTerms_eq_error_iff]
  | _ => simp [clause]

theorem Change.clause_eq_error_iff {c : Change} {f : Fault} : c.clause = .error f ↔
    (∃ fs, c = .filters fs ∧ Filter.nested [] ∈ fs) ∧ f = .noNestedTerms := by
  cases c with
  | filters fs =>
      have hfs : (Change.filters fs).clause = .error f ↔ fs.mapM Filter.clause = .error f := by
        rw [clause]
        cases fs.mapM Filter.clause <;> simp [Except.map]
      rw [hfs, mapM_eq_error_iff]
      constructor
      · rintro ⟨before, filter, after, rfl, -, hfilter⟩
        obtain ⟨rfl, rfl⟩ := Filter.clause_eq_error_iff.mp hfilter
        exact ⟨⟨_, rfl, by simp⟩, rfl⟩
      · rintro ⟨⟨_, heq, hmem⟩, rfl⟩
        obtain rfl := Change.filters.inj heq
        rw [← mapM_eq_error_iff]
        cases hclauses : fs.mapM Filter.clause with
        | error f =>
            obtain ⟨-, filter, -, -, -, hfilter⟩ := mapM_eq_error_iff.mp hclauses
            rw [(Filter.clause_eq_error_iff.mp hfilter).2]
        | ok cs =>
            -- the clause of the empty terms would be among the others
            have hok := List.mem_map_of_mem (f := Filter.clause) hmem
            rw [mapM_eq_ok_iff.mp hclauses] at hok
            obtain ⟨c, -, hc⟩ := List.mem_map.mp hok
            cases hc
  | _ => simp [clause]

namespace Query

theorem change_eq (q : Query) (c : Change) : q.change c = (c.clause.map fun _ => (),
    ⟨q.indices, q.typeName, c.clause?.or q.clause,
      c.aggregation?.elim q.aggregations fun a => Ordered.put a.field a q.aggregations⟩) := by
  cases c with
  | filters fs =>
      rw [change, changed, Change.clause?, Change.clause]
      cases fs.mapM Filter.clause <;> rfl
  | _ => rfl

/-- A search after changes, of which those that fail are passed over. -/
def after (q : Query) (cs : List Change) : Query := cs.foldl (fun q c => (q.change c).2) q

theorem after_concat (q : Query) (cs : List Change) (c : Change) :
    q.after (cs ++ [c]) = ((q.after cs).change c).2 := by
  rw [after, List.foldl_append]
  rfl

theorem after_eq (indices : List String) (typeName : String) (cs : List Change) :
    (ofIndices indices typeName).after cs = ⟨indices, typeName, Change.lastClause cs,
      Ordered.ofPairs ((Change.added cs).map fun a => (a.field, a))⟩ := by
  induction cs using List.reverseRecOn with
  | nil => rfl
  | append_singleton cs c ih =>
      rw [after_concat, change_eq, ih, Change.lastClause_concat, Change.added_concat]
      cases c.aggregation? with
      | none => simp
      | some a => simp [Ordered.ofPairs_concat]

/-- Each field that was added once, where it first came, with the aggregation that came last. -/
structure Tabulates (as : List Aggregation) (table : List (String × Value)) : Prop where
  fields : table.map Prod.fst = (as.map Aggregation.field).eraseDups
  last : ∀ e ∈ table, ∃ before a after, as = before ++ a :: after ∧
    (∀ a' ∈ after, a'.field ≠ a.field) ∧ e = (a.field, a.toValue)

theorem tabulates_ofPairs (as : List Aggregation) : Tabulates as
    ((Ordered.ofPairs (as.map fun a => (a.field, a))).map fun e => (e.1, e.2.toValue)) := by
  constructor
  · have hkeys := Ordered.keys_ofPairs (as.map fun a => (a.field, a))
    rw [List.map_map] at hkeys ⊢
    exact hkeys
  · intro e he
    obtain ⟨p, hp, rfl⟩ := List.mem_map.mp he
    obtain ⟨before, after, hsplit, hafter⟩ := Ordered.mem_ofPairs_iff.mp hp
    obtain ⟨bs, rest, rfl, -, hrest⟩ := List.map_eq_append_iff.mp hsplit
    obtain ⟨a, as, rfl, rfl, rfl⟩ := List.map_eq_cons_iff.mp hrest
    refine ⟨bs, a, as, rfl, fun a' ha' => ?_, rfl⟩
    exact hafter _ (List.mem_map_of_mem ha')

/-- What a search is sent with, given the clause that it has and the aggregations that were added:
a number of documents or else the wish for none, the query if there is one, and the table of
aggregations if there are any. -/
structure Body (clause : Option Clause) (as : List Aggregation) (q : Query) : Prop where
  tag : q.tag = if as = [] then "search" else "aggregation"
  names : (members q.toValue).map Prod.fst ⊆ ["size", "_source", "query", "aggs"]
  nodup : ((members q.toValue).map Prod.fst).Nodup
  size : (members q.toValue).lookup "size" = if as = [] then some (.int 10000) else none
  source : (members q.toValue).lookup "_source" = if as = [] then none else some (.bool false)
  query : (members q.toValue).lookup "query" =
    clause.map fun c => single "bool" (single "filter" (.list [c.toValue]))
  aggregations : if as = [] then (members q.toValue).lookup "aggs" = none
    else ∃ table, Tabulates as table ∧ (members q.toValue).lookup "aggs" = some (.object table)
  text : (∀ c, clause = some c → ∀ p ∈ c.fields, p.2.Printable) →
    ∃ t, Json.Grammar.ValueText q.toValue t ∧ q.toJson = Text.Utf8.encode t

theorem printable_toValue {q : Query}
    (h : ∀ c, q.clause = some c → ∀ p ∈ c.fields, p.2.Printable) : q.toValue.Printable := by
  cases hclause : q.clause with
  | some c =>
      have hset : q.setClause c = q := by rw [setClause, ← hclause]
      rw [← hset]
      exact printable_setClause (h c hclause)
  | none =>
      have haggregations :
          (Value.object (q.aggregations.map fun a => (a.1, a.2.toValue))).Printable := by
        rw [Value.printable_object_iff, List.forall_mem_map]
        exact fun a _ => printable_aggregation a.2
      have hone (b : Bool) : (Value.bool b).Printable := ⟨rfl, trivial⟩
      have htwo (n : Int) : (Value.int n).Printable := ⟨rfl, trivial⟩
      rw [toValue, hclause]
      split <;> simp [Value.printable_object_iff, hone, htwo, haggregations]

theorem body_of_tables (q : Query) (as : List Aggregation)
    (h : q.aggregations = Ordered.ofPairs (as.map fun a => (a.field, a))) :
    Body q.clause as q := by
  have hempty : q.aggregations.isEmpty = as.isEmpty := by
    rw [h]
    cases as with
    | nil => rfl
    | cons a as => simpa using Ordered.ofPairs_ne_nil (List.cons_ne_nil _ _)
  have htext (hq : ∀ c, q.clause = some c → ∀ p ∈ c.fields, p.2.Printable) :
      ∃ t, Json.Grammar.ValueText q.toValue t ∧ q.toJson = Text.Utf8.encode t := by
    have hprintable := printable_toValue hq
    exact ⟨_, Json.Printer.valueText_finite .ascii _ hprintable.1 hprintable.2, rfl⟩
  have htable := tabulates_ofPairs as
  rw [← h] at htable
  obtain ⟨indices, typeName, clause, aggregations⟩ := q
  cases as with
  | nil =>
      refine ⟨?_, ?_, ?_, ?_, ?_, ?_, ?_, htext⟩
      all_goals cases clause <;>
        simp [tag, toValue, members, List.lookup, hempty, boolean, single, resultWindow]
  | cons a as =>
      refine ⟨?_, ?_, ?_, ?_, ?_, ?_, ?_, htext⟩
      all_goals cases clause <;>
        simp [tag, toValue, members, List.lookup, hempty, boolean, single, htable]

theorem after_body (indices : List String) (typeName : String) (cs : List Change) :
    Body (Change.lastClause cs) (Change.added cs) ((ofIndices indices typeName).after cs) := by
  have htables : ((ofIndices indices typeName).after cs).aggregations =
      Ordered.ofPairs ((Change.added cs).map fun a => (a.field, a)) := by
    rw [after_eq]
  have hclause : ((ofIndices indices typeName).after cs).clause = Change.lastClause cs := by
    rw [after_eq]
  rw [← hclause]
  exact body_of_tables _ _ htables

/-- Two searches that differ at most in where they look. -/
structure AsksAlike (q q' : Query) : Prop where
  tag : q.tag = q'.tag
  value : q.toValue = q'.toValue
  json : q.toJson = q'.toJson

theorem after_alike (indices indices' : List String) (typeName typeName' : String)
    {cs cs' : List Change} (hclause : Change.lastClause cs = Change.lastClause cs')
    (hadded : Change.added cs = Change.added cs') :
    AsksAlike ((ofIndices indices typeName).after cs)
      ((ofIndices indices' typeName').after cs') := by
  rw [after_eq, after_eq, hclause, hadded]
  exact ⟨rfl, rfl, rfl⟩

/-- What a change does to a search: it succeeds or fails for what it is given alone, it fails only
for nested terms of which there are none, and then the search is as it was. -/
structure Changeable (q : Query) : Prop where
  outcome : ∀ c, (q.change c).1 = c.clause.map fun _ => ()
  fails : ∀ c f, (q.change c).1 = .error f ↔
    (∃ fs, c = .filters fs ∧ Filter.nested [] ∈ fs) ∧ f = .noNestedTerms
  unchanged : ∀ c f, (q.change c).1 = .error f → (q.change c).2 = q

theorem changeable (q : Query) : Changeable q := by
  have hfails (c : Change) (f : Fault) : (q.change c).1 = .error f ↔ c.clause = .error f := by
    rw [change_eq]
    cases c.clause <;> simp [Except.map]
  refine ⟨fun c => by rw [change_eq], fun c f => ?_, fun c f hf => ?_⟩
  · rw [hfails, Change.clause_eq_error_iff]
  · have hclause := (hfails c f).mp hf
    obtain ⟨⟨fs, rfl, -⟩, -⟩ := Change.clause_eq_error_iff.mp hclause
    rw [change_eq, Change.clause?, hclause]
    rfl

/-- A search after any changes has the query that was set last and the aggregations that were
added. All changes with the same of these, and so all that mix the same changes of the query with
the same aggregations, give one body and one tag. -/
theorem after_interleaved (indices : List String) (typeName : String) (cs : List Change) :
    Body (Change.lastClause cs) (Change.added cs) ((ofIndices indices typeName).after cs) ∧
    Changeable ((ofIndices indices typeName).after cs) ∧
    (∀ indices' typeName' cs', Change.lastClause cs = Change.lastClause cs' →
      Change.added cs = Change.added cs' →
      AsksAlike ((ofIndices indices typeName).after cs)
        ((ofIndices indices' typeName').after cs')) ∧
    ∀ cs', cs.filter Change.isQuery = cs'.filter Change.isQuery →
      (cs.filter fun c => !c.isQuery) = (cs'.filter fun c => !c.isQuery) →
      AsksAlike ((ofIndices indices typeName).after cs)
        ((ofIndices indices typeName).after cs') := by
  refine ⟨after_body indices typeName cs, changeable _, ?_, ?_⟩
  · intro indices' typeName' cs' hclause hadded
    exact after_alike indices indices' typeName typeName' hclause hadded
  · intro cs' hquery hother
    apply after_alike
    · rw [← Change.lastClause_filter cs, hquery, Change.lastClause_filter]
    · rw [← Change.added_filter cs, hother, Change.added_filter]

def mixedChanges : List Change :=
  [.aggregate ⟨"name", 10, none⟩, .term "kind" (.text "client"),
    .aggregate ⟨"annotations.value", 5, some "annotations"⟩, .term "kind" (.text "server"),
    .aggregate ⟨"name", 20, none⟩, .filters [.term "kind" .null, .nested []]]

def sortedChanges : List Change :=
  [.term "kind" (.text "client"), .term "kind" (.text "server"),
    .filters [.term "kind" .null, .nested []], .aggregate ⟨"name", 10, none⟩,
    .aggregate ⟨"annotations.value", 5, some "annotations"⟩, .aggregate ⟨"name", 20, none⟩]

theorem after_interleaved_mixed :
    AsksAlike ((ofIndices ["spans"] "span").after mixedChanges)
      ((ofIndices ["spans"] "span").after sortedChanges) ∧
    ((ofIndices ["spans"] "span").after mixedChanges).toValue = .object [("_source", .bool false),
      ("query", boolean "filter" [single "term" (single "kind" (.text "server"))]),
      ("aggs", .object [
        ("name", single "terms" (.object [("field", .text "name"), ("size", .int 20)])),
        ("annotations.value", .object [("nested", single "path" (.text "annotations")),
          ("aggs", single "annotations.value" (single "terms"
            (.object [("field", .text "annotations.value"), ("size", .int 5)])))])])] := by
  obtain ⟨-, -, -, hmixed⟩ := after_interleaved ["spans"] "span" mixedChanges
  exact ⟨hmixed sortedChanges rfl rfl, rfl⟩

end Query

end SpanStore.Search
