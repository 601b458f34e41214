import SpanStore.Http.Client
import SpanStore.Once

namespace SpanStore.Http

structure Target where
  urls : List String
  config : Net.ConnectionConfig
  lookup : Net.Lookup

structure Surroundings where
  wire : Wire
  directory : Net.Directory
  pools : List Net.Pool

/-- A link to the cluster. -/
structure Link where
  client : Once Client
  surroundings : Surroundings

namespace Link

def ofClient (c : Client) (wire : Wire) : Link := ⟨.ofValue c, ⟨wire, ⟨[], []⟩, []⟩⟩

def wire (l : Link) : Wire := l.surroundings.wire

def connect (t : Target) : Once.Computation Surroundings Client := fun _ s =>
  match Net.Pool.connect t.urls t.config t.lookup s.directory with
  | (.error f, directory) => (.error f, { s with directory := directory })
  | (.ok pool, directory) =>
      (.ok ⟨pool.base.url, t.config⟩,
        { s with directory := directory, pools := s.pools ++ [pool] })

def reach (t : Target) (l : Link) : Except Fault Client × Link :=
  let (r, client, s) := l.client.get (connect t) l.surroundings
  (r, ⟨client, s⟩)

def onWire {α : Type} (call : Call α) (l : Link) : Except Fault α × Link :=
  let (r, wire) := call l.wire
  (r, { l with surroundings := { l.surroundings with wire := wire } })

def call {α : Type} (t : Target) (f : Client → Call α) (l : Link) : Except Fault α × Link :=
  match l.reach t with
  | (.error e, l) => (.error e, l)
  | (.ok c, l) => l.onWire (f c)

end Link

end SpanStore.Http
