import SpanStore.Net.Directory
import SpanStore.Net.Endpoint

namespace SpanStore.Net

/-- The endpoints, the distinct addresses among their hosts in printed form, and the distinct
names, each in order of first appearance. -/
structure Cluster where
  endpoints : List Endpoint
  base : Endpoint
  addresses : List String
  names : List String

namespace Cluster

def ofEndpoints (base : Endpoint) (endpoints : List Endpoint) : Cluster :=
  let hosts := endpoints.map Endpoint.host
  ⟨endpoints, base, (hosts.filterMap canonicalAddress?).eraseDups,
    (hosts.filter fun h => (canonicalAddress? h).isNone).eraseDups⟩

def ofUrls (urls : List String) : Except Fault Cluster :=
  match Endpoint.parseAll urls with
  | .error f => .error f
  | .ok [] => .error .noEndpoints
  | .ok (e :: es) => .ok (ofEndpoints e (e :: es))

def isStatic (c : Cluster) : Bool := c.names.isEmpty

/-- The answers for names in order, up to the first name that has none. -/
def lookupAll (lookup : Lookup) (d : Directory) : List String → Answer × Directory
  | [] => (.ok [], d)
  | name :: names =>
      match lookup d name with
      | (.error f, d) => (.error f, d)
      | (.ok [], d) => (.error (.noAddress name), d)
      | (.ok found, d) =>
          let (rest, d) := lookupAll lookup d names
          (rest.map (found ++ ·), d)

def resolve (c : Cluster) (lookup : Lookup) (d : Directory) : Answer × Directory :=
  let (found, d) := lookupAll lookup d c.names
  (found.map (c.addresses ++ ·), d)

def describe (c : Cluster) : String :=
  if c.isStatic then "HostResolver(static=" ++ Text.quotedList c.addresses ++ ")"
  else
    "HostResolver(addresses=" ++ Text.quotedList c.addresses ++ ", hostnames=" ++
      Text.quotedList c.names ++ ")"

end Cluster

end SpanStore.Net
