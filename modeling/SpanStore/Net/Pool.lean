import SpanStore.Net.Cluster

/-!
Connection settings and the pool of nodes that requests go to. A single endpoint is one node;
of several endpoints each address is a node, and the names may be resolved again after a node
fails.
-/
namespace SpanStore.Net

structure ConnectionConfig where
  maxRequests : Quantity := .whole 64
  requestTimeout : Quantity := .real 10.0
  compress : Bool := false
  refreshOnFailure : Bool := true

def ConnectionConfig.check (c : ConnectionConfig) : Except Fault ConnectionConfig :=
  if c.maxRequests.below 1 then .error (.tooFewRequests c.maxRequests)
  else if c.requestTimeout.atMostZero then .error (.timeoutNotPositive c.requestTimeout)
  else .ok c

structure Node where
  scheme : String
  host : String
  port : Nat
  pathPrefix : String

namespace Node

/-- A path with one slash at its start and none at its end, or no path. -/
def normalPath (path : String) : String :=
  if path.isEmpty then path
  else
    String.ofList
      ('/' :: ((path.toList.dropWhile (· == '/')).reverse.dropWhile (· == '/')).reverse)

def ofHost (e : Endpoint) (host : String) : Except Fault Node :=
  if host.toList.contains '[' || host.toList.contains ']' then .error .bracketedHost
  else .ok ⟨e.scheme, host, e.port, normalPath e.pathPrefix⟩

end Node

def Cluster.nodes (c : Cluster) (lookup : Lookup) (d : Directory) :
    Except Fault (List Node) × Directory :=
  match c.resolve lookup d with
  | (.error f, d) => (.error f, d)
  | (.ok addresses, d) => (addresses.eraseDups.mapM (Node.ofHost c.base), d)

/-- Nodes to connect to; a cluster to resolve again if that can change them. -/
structure Pool where
  base : Endpoint
  nodes : List Node
  refreshed : Option Cluster

def Pool.connect (urls : List String) (config : ConnectionConfig) (lookup : Lookup)
    (d : Directory) : Except Fault Pool × Directory :=
  match Cluster.ofUrls urls with
  | .error f => (.error f, d)
  | .ok c =>
      if c.endpoints.length = 1 then
        match Node.ofHost c.base c.base.host with
        | .error f => (.error f, d)
        | .ok n => (.ok ⟨c.base, [n], none⟩, d)
      else
        match c.nodes lookup d with
        | (.error f, d) => (.error f, d)
        | (.ok nodes, d) =>
            let mayChange := config.refreshOnFailure && !c.isStatic
            (.ok ⟨c.base, nodes, if mayChange then some c else none⟩, d)

end SpanStore.Net
