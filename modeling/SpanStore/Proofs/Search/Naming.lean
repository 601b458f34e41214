import SpanStore.Proofs.Json.Printing
import SpanStore.Proofs.Text.Split
import SpanStore.Search.Query

/-!
Which fields a query asks for. Two underscores in a row in the name of a field become a dot, and
`from_` becomes `from`; the path of a nested query keeps its underscores, so it may not be the
beginning of its own fields. All other names stand in the body as they were given.
-/
namespace SpanStore

namespace Search

open Json (Value)

def Doubled (s : List Char) : Prop := ['_', '_'] <:+: s

instance (s : List Char) : Decidable (Doubled s) := inferInstanceAs (Decidable (_ <:+: _))

def Kept (field : String) : Prop := ¬ Doubled field.toList ∧ field ≠ "from_"

instance (field : String) : Decidable (Kept field) :=
  inferInstanceAs (Decidable (¬ Doubled field.toList ∧ field ≠ "from_"))

theorem doubled_cons_iff {c : Char} {rest : List Char}
    (h : ∀ rest', c = '_' → rest = '_' :: rest' → False) :
    Doubled (c :: rest) ↔ Doubled rest := by
  have hfirst : ¬ ['_', '_'] <+: c :: rest := by
    rintro ⟨rest', heq⟩
    obtain ⟨rfl, hrest⟩ := List.cons.inj heq
    exact h rest' rfl hrest.symm
  rw [Doubled, Doubled, List.infix_cons_iff]
  simp [hfirst]

theorem doubled_pair (rest : List Char) : Doubled ('_' :: '_' :: rest) := ⟨[], rest, rfl⟩

theorem dotted_eq_self_iff (s : List Char) : dotted s = s ↔ ¬ Doubled s := by
  fun_induction dotted s with
  | case1 rest =>
      refine iff_of_false (fun h => ?_) (not_not.mpr (doubled_pair rest))
      exact absurd (List.cons.inj h).1 (by decide)
  | case2 c rest hpair ih => rw [List.cons.injEq, ih, doubled_cons_iff hpair, and_iff_right rfl]
  | case3 => exact iff_of_true rfl (by decide)

/-- Underscores are not joined across a dot. -/
theorem dotted_append (s t : List Char) : dotted (s ++ '.' :: t) = dotted s ++ '.' :: dotted t := by
  fun_induction dotted s with
  | case1 rest ih => exact congrArg ('.' :: ·) ih
  | case2 c rest hpair ih =>
      have hrest : ∀ rest', c = '_' → rest ++ '.' :: t = '_' :: rest' → False := by
        intro rest' hc heq
        cases rest with
        | nil => exact absurd (List.cons.inj heq).1 (by decide)
        | cons d rest => exact hpair rest hc (by rw [(List.cons.inj heq).1])
      rw [List.cons_append, dotted, ih, List.cons_append]
      exact hrest
  | case3 => exact dotted.eq_2 _ _ nofun

theorem prefix_dotted_iff (s t : List Char) :
    s ++ ['.'] <+: dotted s ++ '.' :: t ↔ ¬ Doubled s := by
  fun_induction dotted s with
  | case1 rest =>
      refine iff_of_false (fun h => ?_) (not_not.mpr (doubled_pair rest))
      exact absurd (List.cons_prefix_cons.mp h).1 (by decide)
  | case2 c rest hpair ih =>
      rw [List.cons_append, List.cons_append, List.cons_prefix_cons, ih, doubled_cons_iff hpair,
        and_iff_right rfl]
  | case3 => exact iff_of_true ⟨t, rfl⟩ (by decide)

theorem fieldName_eq_self_iff (field : String) : fieldName field = field ↔ Kept field := by
  have hdotted : String.ofList (dotted field.toList) = field ↔ ¬ Doubled field.toList := by
    rw [← dotted_eq_self_iff, ← String.toList_inj, String.toList_ofList]
  simp only [fieldName, Kept]
  rw [← hdotted]
  split
  · rename_i hfrom
    constructor
    · rintro rfl
      exact absurd hfrom (by decide)
    · rintro ⟨heq, hne⟩
      exact absurd (heq.symm.trans hfrom) hne
  · rename_i hfrom
    exact ⟨fun heq => ⟨heq, fun h => hfrom (heq.trans h)⟩, And.left⟩

/-- A field and what stands for it, under the name that a query knows the field by. -/
def renamed (p : String × Value) : String × Value := (fieldName p.1, p.2)

theorem map_renamed_eq_self_iff (ps : List (String × Value)) :
    ps.map renamed = ps ↔ ∀ p ∈ ps, Kept p.1 := by
  have hid : ps.map renamed = ps.map id ↔ ∀ p ∈ ps, renamed p = p := List.map_inj_left
  rw [List.map_id] at hid
  simpa only [renamed, Prod.ext_iff, fieldName_eq_self_iff, and_true] using hid

section Reading

def fieldKinds : List String := ["term", "terms", "range"]

def members : Value → List (String × Value)
  | .object ms => ms
  | _ => []

def member (name : String) (v : Value) : Value := ((members v).lookup name).getD .null

mutual

/-- The fields that the clauses in a value ask for, with what stands for them, in order. -/
def asked : Value → List (String × Value)
  | .list items => itemsAsked items
  | .object ms => membersAsked ms
  | _ => []

def itemsAsked : List Value → List (String × Value)
  | [] => []
  | v :: vs => asked v ++ itemsAsked vs

def membersAsked : List (String × Value) → List (String × Value)
  | [] => []
  | m :: ms => (if m.1 ∈ fieldKinds then members m.2 else asked m.2) ++ membersAsked ms

end

mutual

/-- The nested queries in a value: the path of each and the fields that it asks for. -/
def nestings : Value → List (String × List (String × Value))
  | .list items => itemsNestings items
  | .object ms => membersNestings ms
  | _ => []

def itemsNestings : List Value → List (String × List (String × Value))
  | [] => []
  | v :: vs => nestings v ++ itemsNestings vs

def membersNestings : List (String × Value) → List (String × List (String × Value))
  | [] => []
  | m :: ms =>
      (if m.1 ∈ fieldKinds then []
      else if m.1 = "nested" then
        (member "path" m.2).text?.toList.map fun path => (path, asked (member "query" m.2))
      else nestings m.2) ++ membersNestings ms

end

end Reading

namespace Clause

mutual

def fields : Clause → List (String × Value)
  | term field v => [(field, v)]
  | terms field vs => [(field, .list vs)]
  | range field least most =>
      [(field, .object (("gte", least) :: most.toList.map fun v => ("lte", v)))]
  | nested _ c => fields c
  | all clauses => allFields clauses
  | any clauses => allFields clauses

def allFields : List Clause → List (String × Value)
  | [] => []
  | c :: cs => fields c ++ allFields cs

end

theorem bool_not_mem_fieldKinds : "bool" ∉ fieldKinds := by decide

theorem asked_boolean (kind : String) (vs : List Value) (hkind : kind ∉ fieldKinds) :
    asked (boolean kind vs) = itemsAsked vs := by
  cases vs with
  | nil => rfl
  | cons v vs => simp [boolean, single, asked, membersAsked, itemsAsked, hkind, bool_not_mem_fieldKinds]

mutual

theorem asked_toValue (c : Clause) : asked c.toValue = c.fields.map renamed := by
  cases c with
  | term field v => rfl
  | terms field vs => rfl
  | range field least most => rfl
  | nested path c => simpa [toValue, single, asked, membersAsked, fieldKinds, fields] using asked_toValue c
  | all clauses => exact (asked_boolean _ _ (by decide)).trans (itemsAsked_toValues clauses)
  | any clauses => exact (asked_boolean _ _ (by decide)).trans (itemsAsked_toValues clauses)

theorem itemsAsked_toValues (cs : List Clause) :
    itemsAsked (toValues cs) = (allFields cs).map renamed := by
  cases cs with
  | nil => rfl
  | cons c cs =>
      rw [toValues, itemsAsked, asked_toValue c, itemsAsked_toValues cs, allFields, List.map_append]

end

mutual

def nests : Clause → List (String × List (String × Value))
  | nested path c => [(path, c.fields.map renamed)]
  | all clauses => allNests clauses
  | any clauses => allNests clauses
  | _ => []

def allNests : List Clause → List (String × List (String × Value))
  | [] => []
  | c :: cs => nests c ++ allNests cs

end

theorem nestings_boolean (kind : String) (vs : List Value) (hkind : kind ∉ fieldKinds)
    (hnested : kind ≠ "nested") : nestings (boolean kind vs) = itemsNestings vs := by
  cases vs with
  | nil => rfl
  | cons v vs =>
      simp [boolean, single, nestings, membersNestings, itemsNestings, hkind, hnested,
        bool_not_mem_fieldKinds]

mutual

theorem nestings_toValue (c : Clause) : nestings c.toValue = c.nests := by
  cases c with
  | term field v => rfl
  | terms field vs => rfl
  | range field least most => rfl
  | nested path c =>
      have hquery : nestings (toValue (.nested path c)) = [(path, asked c.toValue)] := rfl
      rw [hquery, asked_toValue, nests]
  | all clauses =>
      exact (nestings_boolean _ _ (by decide) (by decide)).trans (itemsNestings_toValues clauses)
  | any clauses =>
      exact (nestings_boolean _ _ (by decide) (by decide)).trans (itemsNestings_toValues clauses)

theorem itemsNestings_toValues (cs : List Clause) :
    itemsNestings (toValues cs) = allNests cs := by
  cases cs with
  | nil => rfl
  | cons c cs =>
      rw [toValues, itemsNestings, nestings_toValue c, itemsNestings_toValues cs, allNests]

end

theorem allNests_eq_flatMap (cs : List Clause) : allNests cs = cs.flatMap nests := by
  induction cs with
  | nil => rfl
  | cons c cs ih => rw [allNests, ih, List.flatMap_cons]

theorem allFields_terms (ts : List (String × Value)) :
    allFields (ts.map fun t => term t.1 t.2) = ts := by
  induction ts with
  | nil => rfl
  | cons t ts ih => rw [List.map_cons, allFields, fields, ih]; rfl

theorem printable_boolean_iff (kind : String) (vs : List Value) :
    (boolean kind vs).Printable ↔ ∀ v ∈ vs, v.Printable := by
  cases vs with
  | nil => simp [boolean, single, Value.printable_object_iff]
  | cons v vs => simp [boolean, single, Value.printable_object_iff, Value.printable_list_iff]

mutual

theorem printable_toValue_iff (c : Clause) :
    c.toValue.Printable ↔ ∀ p ∈ c.fields, p.2.Printable := by
  have htext (s : String) : (Value.text s).Printable := ⟨rfl, trivial⟩
  cases c with
  | term field v => simp [toValue, single, fields, Value.printable_object_iff]
  | terms field vs => simp [toValue, single, fields, Value.printable_object_iff]
  | range field least most => simp [toValue, single, fields, Value.printable_object_iff]
  | nested path c =>
      simpa [toValue, single, fields, Value.printable_object_iff, htext]
        using printable_toValue_iff c
  | all clauses => exact (printable_boolean_iff _ _).trans (printable_toValues_iff clauses)
  | any clauses => exact (printable_boolean_iff _ _).trans (printable_toValues_iff clauses)

theorem printable_toValues_iff (cs : List Clause) :
    (∀ v ∈ toValues cs, v.Printable) ↔ ∀ p ∈ allFields cs, p.2.Printable := by
  cases cs with
  | nil => exact iff_of_true (List.forall_mem_nil _) (List.forall_mem_nil _)
  | cons c cs =>
      rw [toValues, allFields, List.forall_mem_cons, List.forall_mem_append,
        printable_toValue_iff c, printable_toValues_iff cs]

end

end Clause

def Filter.fields : Filter → List (String × Value)
  | range field least most =>
      [(field, .object (("gte", least) :: most.toList.map fun v => ("lte", v)))]
  | term field v => [(field, v)]
  | service name => (Clause.service name).fields
  | nested terms => Ordered.ofPairs terms

/-- The terms of a nested query all begin with the same step. -/
def Rooted (path : String) (terms : List (String × Value)) : Prop :=
  '.' ∉ path.toList ∧ ∀ t ∈ terms, ∃ rest, t.1 = path ++ "." ++ rest

namespace Clause

theorem nestedTerms_ok {terms : List (String × Value)} (h : terms ≠ []) :
    ∃ path, nestedTerms terms =
        .ok (nested path (all ((Ordered.ofPairs terms).map fun t => term t.1 t.2))) ∧
      ∀ root, Rooted root terms → path = root := by
  obtain ⟨last, hlast⟩ : ∃ last, (Ordered.ofPairs terms).getLast? = some last :=
    ⟨_, List.getLast?_eq_some_getLast (Ordered.ofPairs_ne_nil h)⟩
  refine ⟨String.ofList (Text.cut (· == '.') last.1.toList).1,
    by simp only [nestedTerms, hlast], fun root hroot => ?_⟩
  obtain ⟨rest, hrest⟩ :=
    hroot.2 last (Ordered.mem_of_mem_ofPairs (List.mem_of_getLast? hlast))
  rw [hrest, String.toList_append, String.toList_append, List.append_assoc]
  have hroot' : ∀ c ∈ root.toList, (c == '.') = false :=
    fun c hc => beq_eq_false_iff_ne.mpr fun hdot => hroot.1 (hdot ▸ hc)
  have hcut := Text.cut_append_cons hroot' (beq_self_eq_true '.') rest.toList
  exact (congrArg (String.ofList ·.1) hcut).trans String.ofList_toList

end Clause

theorem prefix_renamed_iff (path rest : String) (v : Value) :
    (path ++ ".").toList <+: (renamed (path ++ "." ++ rest, v)).1.toList ↔
      ¬ Doubled path.toList := by
  have hdotted : dotted (path ++ "." ++ rest).toList =
      dotted path.toList ++ '.' :: dotted rest.toList := by
    rw [String.toList_append, String.toList_append, List.append_assoc]
    exact dotted_append _ _
  have hname : fieldName (path ++ "." ++ rest) =
      String.ofList (dotted path.toList ++ '.' :: dotted rest.toList) := by
    simp only [fieldName, hdotted]
    refine if_neg fun h => ?_
    have hdot : '.' ∈ "from_".toList := by
      rw [← h, String.toList_ofList]
      simp
    exact absurd hdot (by decide)
  rw [renamed, hname, String.toList_ofList, String.toList_append]
  exact prefix_dotted_iff _ _

theorem Rooted.prefix_renamed_iff {path : String} {terms : List (String × Value)}
    (h : Rooted path terms) (hne : terms ≠ []) :
    (∀ t ∈ (Ordered.ofPairs terms).map renamed, (path ++ ".").toList <+: t.1.toList) ↔
      ¬ Doubled path.toList := by
  have hterm : ∀ t ∈ Ordered.ofPairs terms,
      (path ++ ".").toList <+: (renamed t).1.toList ↔ ¬ Doubled path.toList := by
    intro t ht
    obtain ⟨rest, hrest⟩ := h.2 t (Ordered.mem_of_mem_ofPairs ht)
    rw [← Search.prefix_renamed_iff path rest t.2, ← hrest]
  rw [List.forall_mem_map]
  obtain ⟨t, ht⟩ := List.exists_mem_of_ne_nil _ (Ordered.ofPairs_ne_nil hne)
  exact ⟨fun hall => (hterm t ht).mp (hall t ht), fun hpath t' ht' => (hterm t' ht').mpr hpath⟩

namespace Filter

def Complete : Filter → Prop
  | nested terms => terms ≠ []
  | _ => True

theorem exists_clause {f : Filter} (h : f.Complete) :
    ∃ c, f.clause = .ok c ∧ c.fields = f.fields := by
  cases f with
  | nested terms =>
      obtain ⟨path, hclause, -⟩ := Clause.nestedTerms_ok h
      exact ⟨_, hclause, Clause.allFields_terms _⟩
  | _ => exact ⟨_, rfl, rfl⟩

theorem exists_clauses {fs : List Filter} (h : ∀ f ∈ fs, f.Complete) :
    ∃ cs, fs.mapM clause = .ok cs ∧ Clause.allFields cs = fs.flatMap fields ∧
      ∀ f ∈ fs, ∃ c ∈ cs, f.clause = .ok c := by
  induction fs with
  | nil => exact ⟨[], rfl, rfl, fun _ hf => absurd hf List.not_mem_nil⟩
  | cons f fs ih =>
      obtain ⟨hf, hfs⟩ := List.forall_mem_cons.mp h
      obtain ⟨c, hc, hfields⟩ := exists_clause hf
      obtain ⟨cs, hcs, hall, hmem⟩ := ih hfs
      refine ⟨c :: cs, ?_, ?_, ?_⟩
      · rw [List.mapM_cons, hc, hcs]
        rfl
      · rw [Clause.allFields, hfields, hall, List.flatMap_cons]
      · rw [List.forall_mem_cons]
        refine ⟨⟨c, List.mem_cons_self, hc⟩, fun g hg => ?_⟩
        obtain ⟨d, hd, hclause⟩ := hmem g hg
        exact ⟨d, List.mem_cons_of_mem c hd, hclause⟩

end Filter

namespace Change

def fields : Change → List (String × Value)
  | term field v => [(field, v)]
  | terms field vs => [(field, .list vs)]
  | service name => (Clause.service name).fields
  | filters fs => fs.flatMap Filter.fields
  | aggregate _ => []

def Sets : Change → Prop
  | filters fs => ∀ f ∈ fs, f.Complete
  | aggregate _ => False
  | _ => True

/-- Names that the parts of a query take for parameters of their own, so that they name no field. -/
def reserved : List String := ["self", "name_or_query", "_expand__to_dot", "_field", "_value"]

structure Asks (c : Change) : Prop where
  sets : c.Sets
  unreserved : ∀ p ∈ c.fields, p.1 ∉ reserved

end Change

namespace Query

/-- The body of a search is JSON, unless a value cannot be printed, and its clauses name the fields
in order. -/
structure Asks (q : Query) (ps : List (String × Value)) : Prop where
  text : (∀ p ∈ ps, p.2.Printable) →
    ∃ t, Json.Grammar.ValueText q.toValue t ∧ Text.Utf8.encode t = q.toJson
  read : (∀ p ∈ ps, p.2.Printable) → q.toValue.AllInts Json.FitsReader →
    Json.parse? q.toJson = some q.toValue
  named : asked (member "query" q.toValue) = ps.map renamed
  kept : asked (member "query" q.toValue) = ps ↔ ∀ p ∈ ps, Kept p.1

theorem member_query (q : Query) (c : Clause) :
    member "query" (q.setClause c).toValue = boolean "filter" [c.toValue] := by
  by_cases hempty : q.aggregations.isEmpty = true
  · simp [toValue, setClause, member, members, List.lookup, hempty]
  · simp [toValue, setClause, member, members, List.lookup, hempty]

theorem printable_aggregation (a : Aggregation) : a.toValue.Printable := by
  have htext (s : String) : (Value.text s).Printable := ⟨rfl, trivial⟩
  have hint (n : Int) : (Value.int n).Printable := ⟨rfl, trivial⟩
  rw [Aggregation.toValue]
  cases a.nestedPath <;> simp [single, Value.printable_object_iff, htext, hint]

theorem printable_setClause {q : Query} {c : Clause} (h : ∀ p ∈ c.fields, p.2.Printable) :
    (q.setClause c).toValue.Printable := by
  have hquery : (boolean "filter" [c.toValue]).Printable := by
    rw [Clause.printable_boolean_iff, List.forall_mem_singleton]
    exact c.printable_toValue_iff.mpr h
  have haggregations :
      (Value.object (q.aggregations.map fun a => (a.1, a.2.toValue))).Printable := by
    rw [Value.printable_object_iff, List.forall_mem_map]
    exact fun a _ => printable_aggregation a.2
  by_cases hempty : (q.setClause c).aggregations.isEmpty = true
  · simp only [toValue, if_pos hempty, Value.printable_object_iff, List.forall_mem_append]
    exact ⟨⟨List.forall_mem_singleton.mpr ⟨rfl, trivial⟩, List.forall_mem_singleton.mpr hquery⟩,
      List.forall_mem_nil _⟩
  · simp only [toValue, if_neg hempty, Value.printable_object_iff, List.forall_mem_append]
    exact ⟨⟨List.forall_mem_singleton.mpr ⟨rfl, trivial⟩, List.forall_mem_singleton.mpr hquery⟩,
      List.forall_mem_singleton.mpr haggregations⟩

theorem setClause_asks (q : Query) (c : Clause) : (q.setClause c).Asks c.fields := by
  have hnamed : asked (member "query" (q.setClause c).toValue) = c.fields.map renamed := by
    rw [member_query, Clause.asked_boolean _ _ (by decide), itemsAsked, itemsAsked,
      Clause.asked_toValue, List.append_nil]
  constructor
  · intro h
    have hprintable := printable_setClause (q := q) h
    exact ⟨_, Json.Printer.valueText_finite .ascii _ hprintable.1 hprintable.2, rfl⟩
  · intro h hints
    have hprintable := printable_setClause (q := q) h
    exact Value.parse?_compactBytes_finite .ascii hprintable.1 hprintable.2 hints
  · exact hnamed
  · rw [hnamed, map_renamed_eq_self_iff]

theorem mem_nestings_of_mem (q : Query) {path : String} {ts : List (String × Value)}
    {cs : List Clause} (h : .nested path (.all (ts.map fun t => .term t.1 t.2)) ∈ cs) :
    (path, ts.map renamed) ∈ nestings (member "query" (q.setClause (.all cs)).toValue) := by
  rw [member_query, Clause.nestings_boolean _ _ (by decide) (by decide), itemsNestings,
    itemsNestings, Clause.nestings_toValue, Clause.nests, Clause.allNests_eq_flatMap,
    List.append_nil]
  refine List.mem_flatMap.mpr ⟨_, h, ?_⟩
  rw [Clause.nests, Clause.fields, Clause.allFields_terms]
  exact List.mem_singleton_self _

/-- A change of the query names the fields that it was given, in order, unless two underscores in a
row occur in one of the names or it is `from_`. The fields of nested terms with one first step
begin with the path of their query unless two underscores in a row occur in that step. -/
theorem changed_asks (q : Query) {c : Change} (h : c.Asks) :
    ∃ q', q.changed c = .ok q' ∧ q'.Asks c.fields ∧
      ∀ fs, c = .filters fs → ∀ terms, .nested terms ∈ fs → ∀ path, Rooted path terms →
        (path, (Ordered.ofPairs terms).map renamed) ∈ nestings (member "query" q'.toValue) ∧
        ((∀ t ∈ (Ordered.ofPairs terms).map renamed, (path ++ ".").toList <+: t.1.toList) ↔
          ¬ Doubled path.toList) := by
  have hsets := h.sets
  cases c with
  | aggregate a => exact hsets.elim
  | filters fs =>
      obtain ⟨cs, hcs, hfields, hmem⟩ := Filter.exists_clauses hsets
      refine ⟨q.setClause (.all cs), ?_, ?_, ?_⟩
      · rw [changed, hcs]
        rfl
      · have hasks := q.setClause_asks (.all cs)
        rwa [Clause.fields, hfields] at hasks
      · intro fs' heq terms hterms path hroot
        obtain rfl := Change.filters.inj heq
        have hne : terms ≠ [] := hsets _ hterms
        obtain ⟨c, hc, hclause⟩ := hmem _ hterms
        obtain ⟨path', hok, hpath⟩ := Clause.nestedTerms_ok hne
        obtain rfl := hpath path hroot
        obtain rfl := Except.ok.inj (hclause.symm.trans hok)
        exact ⟨q.mem_nestings_of_mem hc, hroot.prefix_renamed_iff hne⟩
  | _ => exact ⟨_, rfl, q.setClause_asks _, nofun⟩

def underscoredTerms : List (String × Value) :=
  [("binary__annotations.key", .text "http.path"), ("binary__annotations.value", .text "/")]

def underscored : Change :=
  .filters [.term "span__kind" (.text "client"), .nested underscoredTerms]

theorem changed_asks_underscored : underscored.Asks ∧
    ∃ q', (ofIndices ["spans"] "span").changed underscored = .ok q' ∧ q'.Asks underscored.fields ∧
      asked (member "query" q'.toValue) ≠ underscored.fields ∧
      Rooted "binary__annotations" underscoredTerms ∧
      ¬ ∀ t ∈ (Ordered.ofPairs underscoredTerms).map renamed,
        "binary__annotations.".toList <+: t.1.toList := by
  have hasks : underscored.Asks := by
    refine ⟨?_, by decide⟩
    simp [Change.Sets, underscored, Filter.Complete, underscoredTerms]
  have hroot : Rooted "binary__annotations" underscoredTerms :=
    ⟨by decide, List.forall_mem_cons.mpr ⟨⟨"key", rfl⟩, List.forall_mem_singleton.mpr ⟨"value", rfl⟩⟩⟩
  obtain ⟨q', hchanged, hq', hnested⟩ := (ofIndices ["spans"] "span").changed_asks hasks
  refine ⟨hasks, q', hchanged, hq', fun hkept => ?_, hroot, fun hprefix => ?_⟩
  · exact absurd (hq'.kept.mp hkept ("span__kind", .text "client") List.mem_cons_self) (by decide)
  · obtain ⟨-, hiff⟩ := hnested _ rfl underscoredTerms (by simp) _ hroot
    exact absurd (hiff.mp hprefix) (by decide)

theorem term_renamed :
    ∃ q', (ofIndices ["spans"] "span").changed (.term "span__kind" (.text "client")) = .ok q' ∧
      q'.toJson = Text.Utf8.encode ("\x7b\"size\":10000,\"query\":\x7b\"bool\":\x7b\"filter\":[" ++
        "\x7b\"term\":\x7b\"span.kind\":\"client\"\x7d\x7d]\x7d\x7d\x7d").toList ∧
      asked (member "query" q'.toValue) = [("span.kind", .text "client")] ∧
      asked (member "query" q'.toValue) ≠ [("span__kind", .text "client")] := by
  refine ⟨_, rfl, rfl, rfl, fun h => ?_⟩
  exact absurd (congrArg (List.map Prod.fst) h) (by decide)

end Query

end Search

end SpanStore
