import SpanStore.Bulk.Batch
import SpanStore.Calendar.IndexName
import SpanStore.Response.Hits
import SpanStore.Search.Query
import SpanStore.Store.Config
import SpanStore.Template.Schema

/-!
A store of spans in a cluster. Nothing is sent before the first operation; whatever writes or
searches first makes sure of the schema. Flushing, clearing and checking do without it.
-/
namespace SpanStore.Store

open Http (Call Client Link Request Target Wire)
open Json (Value)
open Template (Schema)

structure Storage where
  config : Config
  schema : Schema
  link : Link

/-- The health of a cluster, with the fault that explains why it is bad. -/
inductive Health where
  | good
  | bad (f : Fault)

abbrev Operation (α : Type) := Storage → Except Fault α × Storage

def deleteRequest (indices : String) : Request := Request.plain "DELETE" [indices] "delete-index"

def healthRequest (indices : String) : Request :=
  Request.plain "GET" ["_cluster", "health", indices] "get-cluster-health"

/-- The text is the word for the worst health in letters of either case. -/
def isRed (status : String) : Bool := status.toList.map Char.toUpper == ['R', 'E', 'D']

def readHealth (body : List UInt8) : Except Fault Health :=
  match Response.read ["status"] body with
  | .error f => .error f
  | .ok v =>
      match v.bind Value.text? with
      | none => .error (.healthUnreadable body)
      | some status => if isRed status then .error .healthRed else .ok .good

namespace Storage

def targetOf (c : Config) : Target := ⟨c.hosts, c.connection, Net.systemLookup⟩

def create (c : Config) (wire : Wire) (directory : Net.Directory) : Storage :=
  ⟨c,
    Schema.create (targetOf c) ⟨c.index, c.shards, c.replicas, c.strictTraceId⟩ none,
    ⟨.fresh, ⟨wire, directory, []⟩⟩⟩

def target (s : Storage) : Target := targetOf s.config

def naming (s : Storage) : Calendar.IndexNaming := ⟨s.config.index⟩

def onLink {α : Type} (f : Link → Except Fault α × Link) : Operation α := fun s =>
  let (r, link) := f s.link
  (r, { s with link := link })

def ensure : Operation Unit := fun s =>
  let (r, schema, link) := s.schema.ensure s.link
  (r, { s with schema := schema, link := link })

def client : Operation Client := fun s =>
  match s.ensure with
  | (.error f, s) => (.error f, s)
  | (.ok (), s) => s.onLink (Link.reach s.target)

def batch (typeName : String) (serialize : Value → Except Fault (List UInt8)) :
    Operation Bulk.Batch := fun s =>
  match s.client with
  | (.error f, s) => (.error f, s)
  | (.ok c, s) =>
      (Bulk.Batch.create c typeName s.config.pipeline s.config.flushOnWrites serialize, s)

def onWire {α : Type} (call : Call α) : Operation α := onLink fun l => l.onWire call

def write (b : Bulk.Batch) : Operation Bulk.Result := onWire b.execute

def search {α : Type} (q : Search.Query) (convert : List UInt8 → Call α) : Operation α := fun s =>
  match s.client with
  | (.error f, s) => (.error f, s)
  | (.ok c, s) => s.onWire (Search.execute c q convert)

/-- Submit a search. Without a client nothing is submitted, and the callback is not told. -/
def submitSearch {κ α : Type} (q : Search.Query) (convert : List UInt8 → Call α)
    (callback : Option (Http.Callback κ α)) (k : κ) : Operation (Except Fault α × κ) := fun s =>
  match s.client with
  | (.error f, s) => (.error f, s)
  | (.ok c, s) =>
      s.onWire fun w =>
        let (r, w) := Search.submit c q convert callback k w
        (.ok r, w)

def flush (index : String) : Operation Unit := fun s =>
  s.onLink (Link.call s.target fun c => Bulk.flush c index)

def clear : Operation Unit := fun s =>
  s.onLink (Link.call s.target fun c w =>
    match c.execute (deleteRequest s.naming.all) Call.ignore w with
    | (.error f, w) => (.error f, w)
    | (.ok (), w) => Bulk.flush c s.naming.all w)

/-- Report the health of the cluster. The store's own faults are part of the report. -/
def check : Operation Health := fun s =>
  match s.onLink (Link.call s.target fun c =>
      c.execute (healthRequest s.naming.all) (Call.ofConversion readHealth)) with
  | (.ok h, s) => (.ok h, s)
  | (.error f, s) => if f.kind.isOwn then (.ok (.bad f), s) else (.error f, s)

def close (s : Storage) : Storage :=
  if s.link.client.isReady then (s.onWire fun w => (.ok (), w.close)).2 else s

def describe (s : Storage) : String :=
  "HttpStorage(" ++ s.config.hosts.headD "" ++ ", index=" ++ Text.quoted s.config.index ++ ")"

end Storage

end SpanStore.Store
