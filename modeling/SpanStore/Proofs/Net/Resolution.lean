import SpanStore.Net.Pool
import SpanStore.Proofs.Net.Endpoints

namespace SpanStore.Net

structure Inquiry where
  name : String
  answer : Answer

namespace Inquiry

def found (i : Inquiry) : List String :=
  match i.answer with
  | .ok addresses => addresses
  | .error _ => []

def Fails (i : Inquiry) (f : Fault) : Prop :=
  i.answer = .error f ∨ i.answer = .ok [] ∧ f = .noAddress i.name

end Inquiry

inductive Asks (lookup : Lookup) : Directory → List Inquiry → Directory → Prop where
  | nil (d : Directory) : Asks lookup d [] d
  | cons {d d' d'' : Directory} {name : String} {answer : Answer} {later : List Inquiry}
      (h : lookup d name = (answer, d')) (hlater : Asks lookup d' later d'') :
      Asks lookup d (⟨name, answer⟩ :: later) d''

def Records (lookup : Lookup) : Prop :=
  ∀ d name, (lookup d name).2.queries = d.queries ++ [name]

theorem records_systemLookup : Records systemLookup := fun _ _ => rfl

namespace Asks

variable {lookup : Lookup} {d d' d'' : Directory} {is js : List Inquiry}

theorem append (h : Asks lookup d is d') (h' : Asks lookup d' js d'') :
    Asks lookup d (is ++ js) d'' := by
  induction h with
  | nil => exact h'
  | cons hfirst _ ih => exact .cons hfirst (ih h')

theorem queries (h : Asks lookup d is d') (hlookup : Records lookup) :
    d'.queries = d.queries ++ is.map Inquiry.name := by
  induction h with
  | nil => simp
  | @cons d _ _ name _ _ hfirst _ ih =>
      have hrecord := hlookup d name
      rw [hfirst] at hrecord
      rw [ih, hrecord]
      simp

end Asks

/-- A round of lookups for some names, and the addresses that it finds. It ends at the first name
that has none. -/
inductive Round (names : List String) : List Inquiry → Answer → Prop where
  | complete {is : List Inquiry} (hnames : is.map Inquiry.name = names)
      (hfound : ∀ i ∈ is, i.found ≠ []) : Round names is (.ok (is.flatMap Inquiry.found))
  | stopped (is : List Inquiry) {last : Inquiry} {later : List String} {f : Fault}
      (hnames : is.map Inquiry.name ++ last.name :: later = names)
      (hfound : ∀ i ∈ is, i.found ≠ []) (hfails : last.Fails f) :
      Round names (is ++ [last]) (.error f)

theorem Round.cons {names : List String} {is : List Inquiry} {r : Answer} (h : Round names is r)
    {i : Inquiry} (hi : i.found ≠ []) :
    Round (i.name :: names) (i :: is) (r.map (i.found ++ ·)) := by
  cases h with
  | complete hnames hfound =>
      exact .complete (congrArg (i.name :: ·) hnames) (List.forall_mem_cons.mpr ⟨hi, hfound⟩)
  | stopped _ hnames hfound hfails =>
      exact .stopped (i :: _) (congrArg (i.name :: ·) hnames)
        (List.forall_mem_cons.mpr ⟨hi, hfound⟩) hfails

theorem Round.exists_found {names : List String} {is : List Inquiry} {found : List String}
    (h : Round names is (.ok found)) {name : String} (hname : name ∈ names) :
    ∃ i ∈ is, i.name = name ∧ ∃ a, a ∈ i.found := by
  cases h with
  | complete hnames hfound =>
      obtain ⟨i, hi, hasked⟩ := List.mem_map.mp (hnames ▸ hname)
      exact ⟨i, hi, hasked, List.exists_mem_of_ne_nil _ (hfound i hi)⟩

theorem Round.of_no_names {is : List Inquiry} {r : Answer} (h : Round [] is r) : is = [] := by
  cases h with
  | complete hnames _ => exact List.map_eq_nil_iff.mp hnames
  | stopped _ hnames _ _ => simp at hnames

namespace Cluster

theorem lookupAll_round (lookup : Lookup) (names : List String) (d : Directory) :
    ∃ is, Asks lookup d is (lookupAll lookup d names).2 ∧
      Round names is (lookupAll lookup d names).1 := by
  induction names generalizing d with
  | nil => exact ⟨[], .nil d, .complete rfl (List.forall_mem_nil _)⟩
  | cons name names ih =>
      have hstopped {answer : Answer} {f : Fault} (h : Inquiry.Fails ⟨name, answer⟩ f) :
          Round (name :: names) [⟨name, answer⟩] (.error f) :=
        .stopped [] rfl (List.forall_mem_nil _) h
      rw [lookupAll]
      cases hlookup : lookup d name with
      | mk answer d' =>
          cases answer with
          | error f => exact ⟨_, .cons hlookup (.nil d'), hstopped (.inl rfl)⟩
          | ok found =>
              cases found with
              | nil => exact ⟨_, .cons hlookup (.nil d'), hstopped (.inr ⟨rfl, rfl⟩)⟩
              | cons a as =>
                  obtain ⟨is, hasks, hround⟩ := ih d'
                  exact ⟨_, .cons hlookup hasks, hround.cons (i := ⟨name, .ok (a :: as)⟩)
                    (List.cons_ne_nil a as)⟩

theorem resolve_round (c : Cluster) (lookup : Lookup) (d : Directory) :
    ∃ is r, Asks lookup d is (c.resolve lookup d).2 ∧ Round c.names is r ∧
      (c.resolve lookup d).1 = r.map (c.addresses ++ ·) := by
  obtain ⟨is, hasks, hround⟩ := lookupAll_round lookup c.names d
  exact ⟨is, _, hasks, hround, rfl⟩

end Cluster

def Bracketed (host : String) : Prop := '[' ∈ host.toList ∨ ']' ∈ host.toList

namespace Node

def ofAddress (e : Endpoint) (address : String) : Node :=
  ⟨e.scheme, address, e.port, normalPath e.pathPrefix⟩

theorem ofHost_of_bracketed {host : String} (e : Endpoint) (h : Bracketed host) :
    ofHost e host = .error .bracketedHost := by
  rw [Bracketed, ← List.contains_iff_mem, ← List.contains_iff_mem, ← Bool.or_eq_true] at h
  rw [ofHost, if_pos h]

theorem ofHost_of_not_bracketed {host : String} (e : Endpoint) (h : ¬ Bracketed host) :
    ofHost e host = .ok (ofAddress e host) := by
  rw [Bracketed, ← List.contains_iff_mem, ← List.contains_iff_mem, ← Bool.or_eq_true] at h
  rw [ofHost, if_neg h, ofAddress]

theorem mapM_ofHost (e : Endpoint) {hosts : List String} (h : ∀ host ∈ hosts, ¬ Bracketed host) :
    hosts.mapM (ofHost e) = .ok (hosts.map (ofAddress e)) :=
  mapM_ok fun host hhost => ofHost_of_not_bracketed e (h host hhost)

theorem mapM_ofHost_of_bracketed (e : Endpoint) {hosts : List String} {host : String}
    (hhost : host ∈ hosts) (h : Bracketed host) :
    hosts.mapM (ofHost e) = .error .bracketedHost := by
  cases hnodes : hosts.mapM (ofHost e) with
  | ok nodes =>
      have hmem : ofHost e host ∈ nodes.map .ok := by
        rw [← mapM_eq_ok_iff.mp hnodes]
        exact List.mem_map_of_mem hhost
      obtain ⟨n, -, hn⟩ := List.mem_map.mp hmem
      cases hn.trans (ofHost_of_bracketed e h)
  | error f =>
      -- the first host that fails may be another one, but it fails for the same cause
      obtain ⟨-, other, -, -, -, hother⟩ := mapM_eq_error_iff.mp hnodes
      by_cases hb : Bracketed other
      · obtain rfl := Except.error.inj (hother.symm.trans (ofHost_of_bracketed e hb))
        rfl
      · cases hother.symm.trans (ofHost_of_not_bracketed e hb)

end Node

namespace Cluster

/-- The nodes of a round. A round that found every name has a node for each address of the cluster
and each that was answered, unless one of them is no host. -/
inductive Gathers (c : Cluster) (is : List Inquiry) : Except Fault (List Node) → Prop where
  | nodes {found : List String} (hround : Round c.names is (.ok found))
      (hhosts : ∀ address ∈ c.addresses ++ found, ¬ Bracketed address) :
      Gathers c is (.ok ((c.addresses ++ found).eraseDups.map (Node.ofAddress c.base)))
  | bracketed {found : List String} (hround : Round c.names is (.ok found)) {address : String}
      (haddress : address ∈ c.addresses ++ found) (hbracketed : Bracketed address) :
      Gathers c is (.error .bracketedHost)
  | failed {f : Fault} (hround : Round c.names is (.error f)) : Gathers c is (.error f)

theorem nodes_gathers (c : Cluster) (lookup : Lookup) (d : Directory) :
    ∃ is, Asks lookup d is (c.nodes lookup d).2 ∧ c.Gathers is (c.nodes lookup d).1 := by
  obtain ⟨is, r, hasks, hround, hresolve⟩ := c.resolve_round lookup d
  refine ⟨is, ?_⟩
  rw [nodes]
  cases hresolved : c.resolve lookup d with
  | mk answer d' =>
      rw [hresolved] at hasks hresolve
      obtain rfl : answer = r.map (c.addresses ++ ·) := hresolve
      cases r with
      | error f => exact ⟨hasks, .failed hround⟩
      | ok found =>
          refine ⟨hasks, ?_⟩
          change c.Gathers is ((c.addresses ++ found).eraseDups.mapM (Node.ofHost c.base))
          by_cases h : ∃ address ∈ c.addresses ++ found, Bracketed address
          · obtain ⟨address, haddress, hbracketed⟩ := h
            rw [Node.mapM_ofHost_of_bracketed c.base (List.mem_eraseDups.mpr haddress) hbracketed]
            exact .bracketed hround haddress hbracketed
          · have hhosts : ∀ address ∈ c.addresses ++ found, ¬ Bracketed address :=
              fun address haddress hbracketed => h ⟨address, haddress, hbracketed⟩
            rw [Node.mapM_ofHost c.base fun host hhost => hhosts host (List.mem_eraseDups.mp hhost)]
            exact .nodes hround hhosts

def rounds (c : Cluster) (lookup : Lookup) :
    Nat → Directory → List (Except Fault (List Node)) × Directory
  | 0, d => ([], d)
  | n + 1, d =>
      let (nodes, d) := c.nodes lookup d
      let (later, d) := c.rounds lookup n d
      (nodes :: later, d)

theorem rounds_gather (c : Cluster) (lookup : Lookup) (n : Nat) (d : Directory) :
    ∃ logs : List (List Inquiry), logs.length = n ∧
      Asks lookup d logs.flatten (c.rounds lookup n d).2 ∧
      List.Forall₂ c.Gathers logs (c.rounds lookup n d).1 := by
  induction n generalizing d with
  | zero => exact ⟨[], rfl, .nil d, .nil⟩
  | succ n ih =>
      obtain ⟨is, hasks, hgathers⟩ := c.nodes_gathers lookup d
      obtain ⟨logs, hlength, hlater, hlogs⟩ := ih (c.nodes lookup d).2
      exact ⟨is :: logs, congrArg (· + 1) hlength, hasks.append hlater, .cons hgathers hlogs⟩

theorem Gathers.node_eq {c : Cluster} {is : List Inquiry} {nodes : List Node}
    (h : c.Gathers is (.ok nodes)) {n : Node} (hn : n ∈ nodes) :
    n = Node.ofAddress c.base n.host := by
  cases h with
  | nodes _ _ =>
      obtain ⟨a, -, rfl⟩ := List.mem_map.mp hn
      rfl

/-- The hosts of nodes are the addresses of a cluster and those found in a round, each once. -/
structure LiveUnion (c : Cluster) (is : List Inquiry) (nodes : List Node) : Prop where
  nonempty : nodes ≠ []
  distinct : (nodes.map Node.host).Nodup
  mem_iff : ∀ a, a ∈ nodes.map Node.host ↔ a ∈ c.addresses ∨ ∃ i ∈ is, a ∈ i.found

theorem Gathers.liveUnion {c : Cluster} {is : List Inquiry} {nodes : List Node}
    (h : c.Gathers is (.ok nodes)) (hhosts : c.addresses ≠ [] ∨ c.names ≠ []) :
    c.LiveUnion is nodes := by
  cases h with
  | nodes hround _ =>
      cases hround with
      | complete hnames hfound =>
          have hmap (addresses : List String) :
              (addresses.map (Node.ofAddress c.base)).map Node.host = addresses := by
            rw [List.map_map]
            exact List.map_id _
          refine ⟨fun hnil => ?_, ?_, fun a => ?_⟩
          · have hempty := eraseDups_eq_nil_iff.mp (List.map_eq_nil_iff.mp hnil)
            obtain ⟨hno, hnone⟩ := List.append_eq_nil_iff.mp hempty
            -- a name of the cluster was asked for, and its answer has an address
            refine hhosts.elim (absurd hno) fun hsome => hsome ?_
            rw [← hnames, List.map_eq_nil_iff, List.eq_nil_iff_forall_not_mem]
            exact fun i hi => hfound i hi (List.flatMap_eq_nil_iff.mp hnone i hi)
          · rw [hmap]
            exact nodup_eraseDups _
          · rw [hmap, List.mem_eraseDups, List.mem_append, List.mem_flatMap]

theorem mem_addresses {base : Endpoint} {endpoints : List Endpoint} {a : String} :
    a ∈ (ofEndpoints base endpoints).addresses ↔
      ∃ e ∈ endpoints, canonicalAddress? e.host = some a := by
  simp only [ofEndpoints, List.mem_eraseDups, List.mem_filterMap, List.mem_map,
    exists_exists_and_eq_and]

theorem mem_names {base : Endpoint} {endpoints : List Endpoint} {name : String} :
    name ∈ (ofEndpoints base endpoints).names ↔
      (∃ e ∈ endpoints, e.host = name) ∧ canonicalAddress? name = none := by
  simp only [ofEndpoints, List.mem_eraseDups, List.mem_filter, List.mem_map,
    Option.isNone_iff_eq_none]

theorem ofEndpoints_hosts {base : Endpoint} {endpoints : List Endpoint} (h : endpoints ≠ []) :
    (ofEndpoints base endpoints).addresses ≠ [] ∨ (ofEndpoints base endpoints).names ≠ [] := by
  obtain ⟨e, he⟩ := List.exists_mem_of_ne_nil endpoints h
  cases hliteral : canonicalAddress? e.host with
  | some a => exact .inl (List.ne_nil_of_mem (mem_addresses.mpr ⟨e, he, hliteral⟩))
  | none => exact .inr (List.ne_nil_of_mem (mem_names.mpr ⟨⟨e, he, rfl⟩, hliteral⟩))

/-- How a cluster of some endpoints resolves. Its hosts are split into the addresses, in printed
form, and the names, each in order of first appearance. Every round is one of its own, whatever
became of those before; the nodes of one that succeeds are a live union, so from a round to a later
one exactly those addresses are dropped that are neither hosts nor found any longer. -/
structure Resolves (c : Cluster) (endpoints : List Endpoint) (lookup : Lookup) : Prop where
  addresses : c.addresses = (endpoints.filterMap fun e => canonicalAddress? e.host).eraseDups
  names : c.names =
    ((endpoints.map Endpoint.host).filter fun h => (canonicalAddress? h).isNone).eraseDups
  resolve : ∀ d, ∃ is r, Asks lookup d is (c.resolve lookup d).2 ∧ Round c.names is r ∧
    (c.resolve lookup d).1 = r.map (c.addresses ++ ·)
  rounds : ∀ n d, ∃ logs : List (List Inquiry), logs.length = n ∧
    Asks lookup d logs.flatten (c.rounds lookup n d).2 ∧
    (Records lookup →
      (c.rounds lookup n d).2.queries = d.queries ++ logs.flatten.map Inquiry.name) ∧
    List.Forall₂ c.Gathers logs (c.rounds lookup n d).1
  live : ∀ is nodes, c.Gathers is (.ok nodes) → c.LiveUnion is nodes
  drops : ∀ is is' nodes nodes', c.Gathers is (.ok nodes) → c.Gathers is' (.ok nodes') →
    ∀ a ∈ nodes.map Node.host,
      (a ∉ nodes'.map Node.host ↔ a ∉ c.addresses ∧ ∀ i ∈ is', a ∉ i.found)
  static : c.names = [] → ∀ is result, c.Gathers is result → is = []

theorem Gathers.round {c : Cluster} {is : List Inquiry} {result : Except Fault (List Node)}
    (h : c.Gathers is result) : ∃ r, Round c.names is r := by
  cases h with
  | nodes hround _ => exact ⟨_, hround⟩
  | bracketed hround _ _ => exact ⟨_, hround⟩
  | failed hround => exact ⟨_, hround⟩

theorem ofEndpoints_resolves (base : Endpoint) {endpoints : List Endpoint} (h : endpoints ≠ [])
    (lookup : Lookup) :
    (ofEndpoints base endpoints).Resolves endpoints lookup where
  addresses := by
    rw [ofEndpoints, List.filterMap_map]
    rfl
  names := rfl
  resolve := resolve_round _ lookup
  rounds n d := by
    obtain ⟨logs, hlength, hasks, hgather⟩ := rounds_gather (ofEndpoints base endpoints) lookup n d
    exact ⟨logs, hlength, hasks, hasks.queries, hgather⟩
  live _ _ hgather := hgather.liveUnion (ofEndpoints_hosts h)
  drops _ _ _ _ _ hlater a _ := by
    rw [(hlater.liveUnion (ofEndpoints_hosts h)).mem_iff]
    simp only [not_or, not_exists, not_and]
  static hnone _ _ hgather := by
    obtain ⟨r, hround⟩ := hgather.round
    rw [hnone] at hround
    exact Round.of_no_names hround

end Cluster

namespace Pool

theorem connect_several {urls : List String} {c : Cluster} (h : Cluster.ofUrls urls = .ok c)
    (hseveral : c.endpoints.length ≠ 1) (config : ConnectionConfig) (lookup : Lookup)
    (d : Directory) :
    connect urls config lookup d =
      ((c.nodes lookup d).1.map fun nodes =>
        ⟨c.base, nodes, if config.refreshOnFailure ∧ c.names ≠ [] then some c else none⟩,
        (c.nodes lookup d).2) := by
  have hchange : (config.refreshOnFailure && !c.isStatic) = true ↔
      config.refreshOnFailure ∧ c.names ≠ [] := by
    rw [Bool.and_eq_true, Cluster.isStatic, Bool.not_eq_true', List.isEmpty_eq_false_iff]
  rw [connect, h]
  simp only [if_neg hseveral, hchange]
  cases c.nodes lookup d with
  | mk result d' => cases result <;> rfl

/-- Several endpoints connect to the nodes of a first round of their cluster. Only if it has names
is the cluster kept for later rounds. -/
theorem connect_resolves {urls : List String} {endpoints : List Endpoint}
    (hurls : Endpoint.parseAll urls = .ok endpoints) (hseveral : 2 ≤ endpoints.length)
    (config : ConnectionConfig) (lookup : Lookup) :
    ∃ c, Cluster.ofUrls urls = .ok c ∧ c.Resolves endpoints lookup ∧ ∀ d,
      connect urls config lookup d =
        ((c.nodes lookup d).1.map fun nodes =>
          ⟨c.base, nodes, if config.refreshOnFailure ∧ c.names ≠ [] then some c else none⟩,
          (c.nodes lookup d).2) := by
  rcases Cluster.ofUrls_cases urls with ⟨f, hf, -⟩ | ⟨base, others, hparse, hcluster⟩
  · cases hf.symm.trans hurls
  · obtain rfl := Except.ok.inj (hparse.symm.trans hurls)
    have hne : base :: others ≠ [] := List.cons_ne_nil base others
    refine ⟨_, hcluster, Cluster.ofEndpoints_resolves base hne lookup, ?_⟩
    exact connect_several hcluster (Nat.ne_of_gt hseveral) config lookup

def mixed : List String :=
  ["http://10.0.0.1:9200", "http://ES-A:9200", "http://[0:0::1]:9200", "http://es-b:9200/",
    "http://[::1]:9200/x"]

def moving : Directory :=
  ⟨[("es-a", [.ok ["10.0.0.2", "10.0.0.1"], .error (.raised .resolution ""), .ok ["10.0.0.3"]]),
    ("es-b", [.ok ["10.0.0.4"]])], []⟩

def mixedCluster : Cluster :=
  let base : Endpoint := ⟨"http", "10.0.0.1", 9200, ""⟩
  ⟨[base, ⟨"http", "es-a", 9200, ""⟩, ⟨"http", "0:0::1", 9200, ""⟩, ⟨"http", "es-b", 9200, ""⟩,
    ⟨"http", "::1", 9200, "/x"⟩], base, ["10.0.0.1", "::1"], ["es-a", "es-b"]⟩

theorem connect_resolves_mixed :
    mixedCluster.Resolves mixedCluster.endpoints systemLookup ∧
    ((connect mixed {} systemLookup moving).1.map fun pool =>
      (pool.nodes.map Node.host, pool.refreshed)).toOption =
        some (["10.0.0.1", "::1", "10.0.0.2", "10.0.0.4"], some mixedCluster) ∧
    (∀ n, ∃ logs : List (List Inquiry), logs.length = n ∧
      (mixedCluster.rounds systemLookup n moving).2.queries =
        logs.flatten.map Inquiry.name) ∧
    (mixedCluster.rounds systemLookup 3 moving).1.map (·.toOption.map (·.map Node.host)) =
      [some ["10.0.0.1", "::1", "10.0.0.2", "10.0.0.4"], none,
        some ["10.0.0.1", "::1", "10.0.0.3", "10.0.0.4"]] ∧
    (mixedCluster.rounds systemLookup 3 moving).2.queries =
      ["es-a", "es-b", "es-a", "es-a", "es-b"] := by
  have hparsed : mixed.map Endpoint.parse = mixedCluster.endpoints.map .ok := rfl
  have hurls : Endpoint.parseAll mixed = .ok mixedCluster.endpoints := by
    rw [Endpoint.parseAll, mapM_eq_ok_iff.mpr hparsed]
    rfl
  have hcluster : Cluster.ofUrls mixed = .ok mixedCluster := by
    rw [Cluster.ofUrls, hurls]
    rfl
  obtain ⟨c, hc, hresolves, hconnect⟩ := connect_resolves hurls (by decide) {} systemLookup
  obtain rfl : c = mixedCluster := Except.ok.inj (hc.symm.trans hcluster)
  refine ⟨hresolves, ?_, fun n => ?_, ?_, ?_⟩
  · rw [hconnect]
    rfl
  · obtain ⟨logs, hlength, -, hqueries, -⟩ := hresolves.rounds n moving
    exact ⟨logs, hlength, hqueries records_systemLookup⟩
  · rfl
  · rfl

def zoned : List String := ["http://[fe80::1%[x]:9200", "http://10.0.0.1:9200"]

theorem connect_zoned : ∃ endpoints c, Endpoint.parseAll zoned = .ok endpoints ∧
    2 ≤ endpoints.length ∧ Cluster.ofUrls zoned = .ok c ∧ c.names = [] ∧ ∀ config lookup d,
      c.resolve lookup d = (.ok ["fe80::1%[x", "10.0.0.1"], d) ∧
      connect zoned config lookup d = (.error .bracketedHost, d) := by
  have hparsed : zoned.map Endpoint.parse = [⟨"http", "fe80::1%[x", 9200, ""⟩,
      ⟨"http", "10.0.0.1", 9200, ""⟩].map .ok := rfl
  have hurls : Endpoint.parseAll zoned = .ok [⟨"http", "fe80::1%[x", 9200, ""⟩,
      ⟨"http", "10.0.0.1", 9200, ""⟩] := by
    rw [Endpoint.parseAll, mapM_eq_ok_iff.mpr hparsed]
    rfl
  have hcluster : Cluster.ofUrls zoned = .ok ⟨[⟨"http", "fe80::1%[x", 9200, ""⟩,
      ⟨"http", "10.0.0.1", 9200, ""⟩], ⟨"http", "fe80::1%[x", 9200, ""⟩,
      ["fe80::1%[x", "10.0.0.1"], []⟩ := by
    have hzone : canonicalAddress? "fe80::1%[x" = some "fe80::1%[x" := rfl
    have hplain : canonicalAddress? "10.0.0.1" = some "10.0.0.1" := rfl
    rw [Cluster.ofUrls, hurls]
    simp [Cluster.ofEndpoints, hzone, hplain, List.eraseDups_cons]
  refine ⟨_, _, hurls, by decide, hcluster, rfl, fun config lookup d => ⟨rfl, ?_⟩⟩
  rw [connect_several hcluster (by decide)]
  rfl

end Pool

end SpanStore.Net
