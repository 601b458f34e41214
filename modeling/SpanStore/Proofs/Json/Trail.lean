import SpanStore.Proofs.Json.Place

namespace SpanStore.Json

inductive Hop where
  | item
  | member (name : String)

namespace Hop

def name : Hop → String
  | item => itemStep
  | member name => name

/-- Spelled as a single step of its kind. -/
def Plain : Hop → Prop
  | item => True
  | member name => name ≠ itemStep ∧ '.' ∉ name.toList

theorem Plain.dotless {h : Hop} (hh : h.Plain) : '.' ∉ h.name.toList := by
  cases h with
  | item => decide
  | member name => exact hh.2

theorem Plain.eq_of_name {h k : Hop} (hh : h.Plain) (hk : k.Plain) (hname : h.name = k.name) :
    h = k := by
  cases h with
  | item =>
      cases k with
      | item => rfl
      | member name => exact absurd hname.symm hk.1
  | member name =>
      cases k with
      | item => exact absurd hname hh.1
      | member name' => exact congrArg member hname

theorem eq_of_names {hs ks : List Hop} (hhs : ∀ h ∈ hs, h.Plain) (hks : ∀ k ∈ ks, k.Plain)
    (hnames : hs.map name = ks.map name) : hs = ks := by
  induction hs generalizing ks with
  | nil => exact (List.map_eq_nil_iff.mp hnames.symm).symm
  | cons h hs ih =>
      obtain ⟨k, ks, rfl, hname, hrest⟩ := List.map_eq_cons_iff.mp hnames.symm
      obtain ⟨hh, hhs⟩ := List.forall_mem_cons.mp hhs
      obtain ⟨hk, hks⟩ := List.forall_mem_cons.mp hks
      rw [hh.eq_of_name hk hname.symm, ih hhs hks hrest.symm]

end Hop

theorem splitOn_joinPlace (names : List String) (hne : names ≠ [])
    (h : ∀ name ∈ names, '.' ∉ name.toList) :
    (joinPlace names).toList.splitOn '.' = names.map String.toList := by
  rw [joinPlace, String.toList_intercalate]
  refine List.splitOn_intercalate '.' ?_ (by simpa using hne)
  simpa using h

theorem Hop.eq_of_joinPlace {hs ks : List Hop} (hhs : ∀ h ∈ hs, h.Plain)
    (hks : ∀ k ∈ ks, k.Plain) (hne : hs ≠ []) (kne : ks ≠ [])
    (h : joinPlace (hs.map name) = joinPlace (ks.map name)) : hs = ks := by
  have hsplit (ls : List Hop) (hls : ∀ l ∈ ls, l.Plain) (lne : ls ≠ []) :=
    splitOn_joinPlace (ls.map name) (by simpa using lne)
      (by simpa using fun l hl => (hls l hl).dotless)
  have hnames : (hs.map name).map String.toList = (ks.map name).map String.toList := by
    rw [← hsplit hs hhs hne, ← hsplit ks hks kne, h]
  exact eq_of_names hhs hks ((List.map_inj_right fun _ _ => String.toList_inj.mp).mp hnames)

/-- The steps lead from a value to a part of it. -/
inductive Leads : List Hop → Value → Value → Prop where
  | here {v : Value} : Leads [] v v
  | item {hops : List Hop} {items : List Value} {v u : Value} (hv : v ∈ items)
      (h : Leads hops v u) : Leads (.item :: hops) (.list items) u
  | member {hops : List Hop} {members : List (String × Value)} {name : String} {v u : Value}
      (hv : (name, v) ∈ members) (h : Leads hops v u) :
      Leads (.member name :: hops) (.object members) u

theorem joinPlace_prefix_append (path names : List String) :
    (joinPlace path).toList <+: (joinPlace (path ++ names)).toList := by
  induction names generalizing path with
  | nil => simp
  | cons name names ih =>
      rw [List.append_cons]
      exact (joinPlace_prefix_step path name).trans (ih (path ++ [name]))

theorem joinPlace_ne_of_append {place : String} (hplace : place ≠ "") {path : List String}
    {name : String} {names : List String} (h : joinPlace (path ++ name :: names) = place) :
    joinPlace path ≠ place := by
  rintro rfl
  have hpath : path.isEmpty = false := by
    cases path with
    | nil => exact absurd rfl hplace
    | cons n path => rfl
  have hlonger := (joinPlace_prefix_append (path ++ [name]) names).length_le
  rw [← List.append_cons, h, joinPlace_step, hpath, List.length_append, if_neg Bool.false_ne_true,
    List.length_cons] at hlonger
  omega

namespace Value

section Found

variable {place : String}

theorem mem_foundItems {path : List String} {v w : Value} {vs : List Value} (hv : v ∈ vs)
    (hw : w ∈ v.found place path) : w ∈ foundItems place path vs := by
  induction vs with
  | nil => cases hv
  | cons u vs ih =>
      rw [foundItems, List.mem_append]
      rcases List.mem_cons.mp hv with rfl | hv
      · exact .inl hw
      · exact .inr (ih hv)

theorem mem_foundMembers {path : List String} {name : String} {v w : Value}
    {ms : List (String × Value)} (hv : (name, v) ∈ ms)
    (hw : w ∈ v.found place (path ++ [name])) : w ∈ foundMembers place path ms := by
  induction ms with
  | nil => cases hv
  | cons m ms ih =>
      rw [foundMembers, List.mem_append]
      rcases List.mem_cons.mp hv with rfl | hv
      · exact .inl hw
      · exact .inr (ih hv)

theorem mem_found_of_leads (hplace : place ≠ "") {hops : List Hop} {v u : Value}
    (h : Leads hops v u) (path : List String)
    (hjoin : joinPlace (path ++ hops.map Hop.name) = place) :
    u.distinct ∈ v.found place path := by
  induction h generalizing path with
  | here =>
      rw [List.map_nil, List.append_nil] at hjoin
      rw [found.eq_def, if_pos hjoin]
      exact List.mem_singleton_self _
  | @item hops items v u hv _ ih =>
      have hrest : joinPlace ((path ++ [itemStep]) ++ hops.map Hop.name) = place := by
        rwa [← List.append_cons]
      rw [found.eq_def, if_neg (joinPlace_ne_of_append hplace hjoin)]
      exact mem_foundItems hv (ih (path ++ [itemStep]) hrest)
  | @member hops members name v u hv _ ih =>
      have hrest : joinPlace ((path ++ [name]) ++ hops.map Hop.name) = place := by
        rwa [← List.append_cons]
      rw [found.eq_def, if_neg (joinPlace_ne_of_append hplace hjoin)]
      exact mem_foundMembers hv (ih (path ++ [name]) hrest)

mutual

theorem leads_of_mem_found {path : List String} {v w : Value} (h : w ∈ v.found place path) :
    ∃ hops u, Leads hops v u ∧ joinPlace (path ++ hops.map Hop.name) = place ∧ u.distinct = w := by
  rw [found.eq_def] at h
  split at h
  · rename_i hhere
    refine ⟨[], v, .here, ?_, (List.mem_singleton.mp h).symm⟩
    rwa [List.map_nil, List.append_nil]
  · cases v with
    | list items =>
        obtain ⟨v, hv, hops, u, hleads, hjoin, hw⟩ := leads_of_mem_foundItems h
        refine ⟨.item :: hops, u, .item hv hleads, ?_, hw⟩
        rwa [List.map_cons, List.append_cons]
    | object members =>
        obtain ⟨name, v, hv, hops, u, hleads, hjoin, hw⟩ := leads_of_mem_foundMembers h
        refine ⟨.member name :: hops, u, .member hv hleads, ?_, hw⟩
        rwa [List.map_cons, List.append_cons]
    | _ => cases h

theorem leads_of_mem_foundItems {path : List String} {w : Value} {vs : List Value}
    (h : w ∈ foundItems place path vs) :
    ∃ v ∈ vs, ∃ hops u,
      Leads hops v u ∧ joinPlace (path ++ hops.map Hop.name) = place ∧ u.distinct = w := by
  cases vs with
  | nil => cases h
  | cons v vs =>
      rw [foundItems, List.mem_append] at h
      rcases h with h | h
      · exact ⟨v, List.mem_cons_self, leads_of_mem_found h⟩
      · obtain ⟨u, hu, hleads⟩ := leads_of_mem_foundItems h
        exact ⟨u, List.mem_cons_of_mem v hu, hleads⟩

theorem leads_of_mem_foundMembers {path : List String} {w : Value} {ms : List (String × Value)}
    (h : w ∈ foundMembers place path ms) :
    ∃ name v, (name, v) ∈ ms ∧ ∃ hops u,
      Leads hops v u ∧ joinPlace ((path ++ [name]) ++ hops.map Hop.name) = place ∧
        u.distinct = w := by
  cases ms with
  | nil => cases h
  | cons m ms =>
      rw [foundMembers, List.mem_append] at h
      rcases h with h | h
      · exact ⟨m.1, m.2, List.mem_cons_self, leads_of_mem_found h⟩
      · obtain ⟨name, v, hv, hleads⟩ := leads_of_mem_foundMembers h
        exact ⟨name, v, List.mem_cons_of_mem m hv, hleads⟩

end

/-- At a place is found what the ways spelled as the place lead to. -/
theorem mem_found_iff (hplace : place ≠ "") {v w : Value} :
    w ∈ v.found place [] ↔
      ∃ hops u, Leads hops v u ∧ joinPlace (hops.map Hop.name) = place ∧ u.distinct = w := by
  constructor
  · exact leads_of_mem_found
  · rintro ⟨hops, u, hleads, hjoin, rfl⟩
    exact mem_found_of_leads hplace hleads [] hjoin

theorem found_root_eq_nil_iff (hplace : place ≠ "") {v : Value} :
    v.found place [] = [] ↔
      ∀ hops u, Leads hops v u → joinPlace (hops.map Hop.name) ≠ place := by
  rw [List.eq_nil_iff_forall_not_mem]
  constructor
  · intro hnone hops u hleads hjoin
    exact hnone u.distinct ((mem_found_iff hplace).mpr ⟨hops, u, hleads, hjoin, rfl⟩)
  · intro hnone w hw
    obtain ⟨hops, u, hleads, hjoin, -⟩ := (mem_found_iff hplace).mp hw
    exact hnone hops u hleads hjoin

end Found

end Value

end SpanStore.Json
