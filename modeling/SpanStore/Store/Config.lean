import SpanStore.Net.Pool

namespace SpanStore.Store

structure Config where
  hosts : List String := ["http://localhost:9200"]
  index : String := "zipkin"
  shards : Quantity := .whole 5
  replicas : Quantity := .whole 1
  pipeline : Option String := none
  flushOnWrites : Bool := false
  maxRequests : Quantity := .whole 64
  strictTraceId : Bool := true
  requestTimeout : Quantity := .real 10.0

namespace Config

def connection (c : Config) : Net.ConnectionConfig :=
  { maxRequests := c.maxRequests, requestTimeout := c.requestTimeout }

/-- A fault of the connection settings is one of the store's. -/
def reword (f : Fault) : Fault :=
  if f.kind = .connection then .invalidStorage f else f

def check (c : Config) : Except Fault Config :=
  match Net.Endpoint.parseAll c.hosts with
  | .error f => .error (reword f)
  | .ok _ =>
      if c.index.isEmpty then .error .emptyStorageIndex
      else if c.shards.below 1 then .error (.tooFewShards c.shards)
      else if c.replicas.below 0 then .error (.tooFewReplicas c.replicas)
      else
        match c.connection.check with
        | .error f => .error (reword f)
        | .ok _ => .ok c

end Config

end SpanStore.Store
