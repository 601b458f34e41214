import SpanStore.Proofs.Net.Resolution

/-!
Where the nodes of a pool come from. Every address that an endpoint stands for has a node with the
scheme and port of the endpoint. The path prefix is that of the first endpoint, so the nodes are
those of the endpoints exactly if these agree on it.
-/
namespace SpanStore.Net

/-- An address that an endpoint stands for: the one that its host is, in printed form, or one that
a lookup found for its name. -/
inductive Endpoint.StandsFor (log : List Inquiry) (e : Endpoint) : String → Prop where
  | literal {a : String} (h : canonicalAddress? e.host = some a) : StandsFor log e a
  | found {a : String} {i : Inquiry} (hname : canonicalAddress? e.host = none) (hi : i ∈ log)
      (hhost : i.name = e.host) (ha : a ∈ i.found) : StandsFor log e a

/-- The host of a node is an address, perhaps in another spelling. -/
def Node.IsAt (n : Node) (address : String) : Prop :=
  n.host = address ∨ canonicalAddress? n.host = some address

/-- Each address that an endpoint stands for has a node with all that the endpoint says. -/
def Kept (endpoints : List Endpoint) (log : List Inquiry) (nodes : List Node) : Prop :=
  ∀ e ∈ endpoints, ∀ a, e.StandsFor log a → ∃ n ∈ nodes, n.IsAt a ∧
    n.scheme = e.scheme ∧ n.port = e.port ∧ n.pathPrefix = Node.normalPath e.pathPrefix

structure Stems (endpoints : List Endpoint) (base : Endpoint) (log : List Inquiry)
    (nodes : List Node) : Prop where
  base_like : ∀ n ∈ nodes, n = Node.ofAddress base n.host
  reached : ∀ e ∈ endpoints, ∀ a, e.StandsFor log a →
    ∃ n ∈ nodes, n.IsAt a ∧ n.scheme = e.scheme ∧ n.port = e.port
  kept_iff : Kept endpoints log nodes ↔
    ∀ e ∈ endpoints, Node.normalPath e.pathPrefix = Node.normalPath base.pathPrefix

namespace Cluster.Gathers

variable {base : Endpoint} {endpoints : List Endpoint} {log : List Inquiry} {nodes : List Node}
  (h : (ofEndpoints base endpoints).Gathers log (.ok nodes)) {e : Endpoint} (he : e ∈ endpoints)

include h he

theorem exists_standsFor : ∃ a, e.StandsFor log a := by
  cases hliteral : canonicalAddress? e.host with
  | some a => exact ⟨a, .literal hliteral⟩
  | none =>
      cases h with
      | nodes hround _ =>
          have hname : e.host ∈ (ofEndpoints base endpoints).names :=
            mem_names.mpr ⟨⟨e, he, rfl⟩, hliteral⟩
          obtain ⟨i, hi, hhost, a, ha⟩ := hround.exists_found hname
          exact ⟨a, .found hliteral hi hhost ha⟩

theorem mem_of_standsFor {a : String} (ha : e.StandsFor log a) : Node.ofAddress base a ∈ nodes := by
  have hhost : a ∈ nodes.map Node.host := by
    rw [(h.liveUnion (ofEndpoints_hosts (List.ne_nil_of_mem he))).mem_iff]
    cases ha with
    | literal hliteral => exact .inl (mem_addresses.mpr ⟨e, he, hliteral⟩)
    | found _ hi _ ha => exact .inr ⟨_, hi, ha⟩
  obtain ⟨n, hn, rfl⟩ := List.mem_map.mp hhost
  rw [h.node_eq hn] at hn
  exact hn

omit he in
theorem stems (hshared : ∀ e ∈ endpoints, base.scheme = e.scheme ∧ base.port = e.port) :
    Stems endpoints base log nodes where
  base_like _ hn := h.node_eq hn
  reached e he a ha := ⟨_, h.mem_of_standsFor he ha, .inl rfl, hshared e he⟩
  kept_iff := by
    constructor
    · -- some address of the endpoint has a node, and its path is that of the first endpoint
      intro hkept e he
      obtain ⟨a, ha⟩ := h.exists_standsFor he
      obtain ⟨n, hn, -, -, -, hpath⟩ := hkept e he a ha
      rw [← hpath, h.node_eq hn]
      rfl
    · intro hsame e he a ha
      exact ⟨_, h.mem_of_standsFor he ha, .inl rfl, (hshared e he).1, (hshared e he).2,
        (hsame e he).symm⟩

end Cluster.Gathers

theorem Stems.lone (e : Endpoint) : Stems [e] e [] [Node.ofAddress e e.host] := by
  have hat {a : String} (ha : e.StandsFor [] a) : (Node.ofAddress e e.host).IsAt a := by
    cases ha with
    | literal hliteral => exact .inr hliteral
    | found _ hi _ _ => cases hi
  refine ⟨?_, ?_, ?_⟩
  · exact List.forall_mem_singleton.mpr rfl
  · exact List.forall_mem_singleton.mpr fun a ha => ⟨_, List.mem_singleton_self _, hat ha, rfl, rfl⟩
  · refine iff_of_true ?_ (List.forall_mem_singleton.mpr rfl)
    exact List.forall_mem_singleton.mpr fun a ha =>
      ⟨_, List.mem_singleton_self _, hat ha, rfl, rfl, rfl⟩

namespace Pool

theorem connect_lone {urls : List String} {base : Endpoint}
    (h : Cluster.ofUrls urls = .ok (Cluster.ofEndpoints base [base])) (config : ConnectionConfig)
    (lookup : Lookup) (d : Directory) :
    connect urls config lookup d =
      ((Node.ofHost base base.host).map fun n => ⟨base, [n], none⟩, d) := by
  rw [connect, h]
  simp only [Cluster.ofEndpoints, List.length_singleton, if_true]
  cases Node.ofHost base base.host <;> rfl

/-- The nodes that a pool connects to, and all that a later round gives it, keep what its endpoints
say exactly if these agree on the path prefix. Of several endpoints each stands for some address,
and every such address is the host of a node; a lone endpoint is not looked up. -/
theorem connect_stems {urls : List String} {config : ConnectionConfig} {lookup : Lookup}
    {d d' : Directory} {pool : Pool} (h : connect urls config lookup d = (.ok pool, d')) :
    ∃ endpoints log, Endpoint.parseAll urls = .ok endpoints ∧ endpoints.head? = some pool.base ∧
      Asks lookup d log d' ∧ Stems endpoints pool.base log pool.nodes ∧
      (endpoints.length = 1 → log = [] ∧ pool.nodes.map Node.host = [pool.base.host]) ∧
      (2 ≤ endpoints.length → ∀ e ∈ endpoints, (∃ a, e.StandsFor log a) ∧
        ∀ a, e.StandsFor log a → a ∈ pool.nodes.map Node.host) ∧
      ∀ c, pool.refreshed = some c → ∀ later nodes, c.Gathers later (.ok nodes) →
        Stems endpoints pool.base later nodes := by
  rcases Cluster.ofUrls_cases urls with ⟨f, -, hf⟩ | ⟨base, others, hurls, hcluster⟩
  · rw [connect, hf] at h
    cases h
  · refine ⟨base :: others, ?_⟩
    by_cases hlone : others = []
    · subst hlone
      rw [connect_lone hcluster] at h
      by_cases hhost : Bracketed base.host
      · rw [Node.ofHost_of_bracketed base hhost] at h
        cases h
      · rw [Node.ofHost_of_not_bracketed base hhost] at h
        obtain ⟨hpool, rfl⟩ := Prod.mk.inj h
        obtain rfl := Except.ok.inj hpool
        exact ⟨[], hurls, rfl, .nil d, .lone base, fun _ => ⟨rfl, rfl⟩, by simp, fun _ hc => by cases hc⟩
    · have hseveral : 2 ≤ (base :: others).length :=
        Nat.succ_le_succ (List.length_pos_iff.mpr hlone)
      have hshared : ∀ e ∈ base :: others, base.scheme = e.scheme ∧ base.port = e.port :=
        fun e he => Endpoint.parseAll_shared hurls List.mem_cons_self he
      rw [connect_several hcluster (Nat.ne_of_gt hseveral)] at h
      obtain ⟨log, hasks, hgathers⟩ :=
        (Cluster.ofEndpoints base (base :: others)).nodes_gathers lookup d
      obtain ⟨hpool, rfl⟩ := Prod.mk.inj h
      cases hnodes : ((Cluster.ofEndpoints base (base :: others)).nodes lookup d).1 with
      | error f =>
          rw [hnodes] at hpool
          cases hpool
      | ok nodes =>
          rw [hnodes] at hpool hgathers
          obtain rfl := Except.ok.inj hpool
          refine ⟨log, hurls, rfl, hasks, hgathers.stems hshared, by simp [hlone], ?_, ?_⟩
          · exact fun _ e he => ⟨hgathers.exists_standsFor he, fun a ha =>
              List.mem_map.mpr ⟨_, hgathers.mem_of_standsFor he ha, rfl⟩⟩
          · intro c hc later nodes hlater
            split_ifs at hc
            obtain rfl := Option.some.inj hc
            exact hlater.stems hshared

def samePath : List String := ["http://10.0.0.1:9200/es", "http://ES-A:9200//es/"]

theorem connect_stems_samePath : ∃ endpoints log pool d',
    connect samePath {} Directory.lookup moving = (.ok pool, d') ∧
    Endpoint.parseAll samePath = .ok endpoints ∧ Asks Directory.lookup moving log d' ∧
    Kept endpoints log pool.nodes ∧
    pool.nodes.map Node.host = ["10.0.0.1", "10.0.0.2"] := by
  have hcluster : Cluster.ofUrls samePath = .ok ⟨[⟨"http", "10.0.0.1", 9200, "/es"⟩,
      ⟨"http", "es-a", 9200, "//es"⟩], ⟨"http", "10.0.0.1", 9200, "/es"⟩, ["10.0.0.1"],
      ["es-a"]⟩ := rfl
  have hurls : Endpoint.parseAll samePath = .ok [⟨"http", "10.0.0.1", 9200, "/es"⟩,
      ⟨"http", "es-a", 9200, "//es"⟩] := rfl
  have hconnect := connect_several hcluster (by decide) {} Directory.lookup moving
  obtain ⟨endpoints, log, hparse, hbase, hasks, hstems, -⟩ := connect_stems hconnect
  obtain rfl := Except.ok.inj (hurls.symm.trans hparse)
  refine ⟨_, log, _, _, hconnect, hurls, hasks, hstems.kept_iff.mpr ?_, rfl⟩
  exact List.forall_mem_cons.mpr ⟨rfl, List.forall_mem_singleton.mpr rfl⟩

def ownPaths : List String := ["http://10.0.0.1:9200/a", "http://10.0.0.2:9200/b"]

theorem connect_ownPaths : ∃ endpoints, Endpoint.parseAll ownPaths = .ok endpoints ∧
    ∀ config lookup d, ∃ pool, connect ownPaths config lookup d = (.ok pool, d) ∧
      pool.nodes = [⟨"http", "10.0.0.1", 9200, "/a"⟩, ⟨"http", "10.0.0.2", 9200, "/a"⟩] ∧
      ∀ log, ¬ Kept endpoints log pool.nodes := by
  have hurls : Endpoint.parseAll ownPaths =
      .ok [⟨"http", "10.0.0.1", 9200, "/a"⟩, ⟨"http", "10.0.0.2", 9200, "/b"⟩] := rfl
  have hcluster : Cluster.ofUrls ownPaths = .ok ⟨[⟨"http", "10.0.0.1", 9200, "/a"⟩,
      ⟨"http", "10.0.0.2", 9200, "/b"⟩], ⟨"http", "10.0.0.1", 9200, "/a"⟩,
      ["10.0.0.1", "10.0.0.2"], []⟩ := rfl
  refine ⟨_, hurls, fun config lookup d => ?_⟩
  refine ⟨_, connect_several hcluster (by decide) config lookup d, rfl, fun log hkept => ?_⟩
  have hliteral : canonicalAddress? "10.0.0.2" = some "10.0.0.2" := rfl
  obtain ⟨n, hn, -, -, -, hpath⟩ :=
    hkept ⟨"http", "10.0.0.2", 9200, "/b"⟩ (by simp) _ (.literal hliteral)
  have hnodes : n.pathPrefix = "/a" := by
    rcases List.mem_cons.mp hn with rfl | hn
    · rfl
    · rw [List.mem_singleton.mp hn]
      rfl
  exact absurd (hnodes.symm.trans hpath) (by decide)

end Pool

end SpanStore.Net
