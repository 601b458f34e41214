import SpanStore.Http.Client

/-!
Batches of documents for one bulk request. Each document takes two lines of the body: one that
names its index, its type and perhaps its identifier, and one that holds the document.
-/
namespace SpanStore.Bulk

open Json (Value)
open Http (Call Client Request)

def flushRequest (index : String) : Request :=
  Request.build "POST" [index, "_flush"] "flush-index" [] (.bytes []) Http.json

def flush (c : Client) (index : String) : Call Unit :=
  c.execute (flushRequest index) Call.ignore

/-- A document as its line: bytes as they are, text in UTF-8, and all else as JSON, which cannot
hold bytes. -/
def documentLine (document : Value) : Except Fault (List UInt8) :=
  match Http.valueBody? document with
  | some bs => .ok bs
  | none => .error .bytesInDocument

/-- Where one document goes. An identifier of null leaves the choice to the cluster. -/
structure Action where
  index : String
  typeName : String
  id : Value

namespace Action

def metadata (a : Action) : Value :=
  let id : List (String × Value) :=
    match a.id with
    | .null => []
    | id => [("_id", id)]
  .object [("index", .object (("_index", .text a.index) :: ("_type", .text a.typeName) :: id))]

def line (a : Action) : Except Fault (List UInt8) :=
  if a.metadata.holdsBytes then .error .bytesInDocument else .ok (a.metadata.compactBytes .ascii)

end Action

structure Batch where
  client : Client
  typeName : String
  pipeline : Option String
  flushOnWrites : Bool
  serialize : Value → Except Fault (List UInt8)
  body : List UInt8
  actions : List Action

/-- How a batch was received: its size, its indices in order of first appearance, whether they
were flushed, and the bytes of the answer. -/
structure Result where
  total : Nat
  indices : List String
  flushed : Bool
  response : List UInt8

namespace Batch

def create (client : Client) (typeName : String) (pipeline : Option String)
    (flushOnWrites : Bool) (serialize : Value → Except Fault (List UInt8)) :
    Except Fault Batch :=
  if typeName.isEmpty then .error .emptyTypeName
  else .ok ⟨client, typeName, pipeline, flushOnWrites, serialize, [], []⟩

def tag (b : Batch) : String := "index-" ++ b.typeName

def indices (b : Batch) : List String := (b.actions.map Action.index).eraseDups

def size (b : Batch) : Nat := b.actions.length

def newline : UInt8 := 0x0A

/-- Add a document. The first line stays in the body even if the document has no second. -/
def add (b : Batch) (index : String) (document id : Value) : Except Fault Unit × Batch :=
  if index.isEmpty then (.error .emptyIndexName, b)
  else
    let action : Action := ⟨index, b.typeName, id⟩
    match action.line with
    | .error f => (.error f, b)
    | .ok first =>
        let body := b.body ++ first ++ [newline]
        match b.serialize document with
        | .error f => (.error f, { b with body := body })
        | .ok second =>
            let body := body ++ second ++ [newline]
            (.ok (), { b with body := body, actions := b.actions ++ [action] })

def request (b : Batch) : Except Fault Request :=
  if b.actions.isEmpty then .error (.emptyBatch b.tag)
  else
    let params :=
      match b.pipeline with
      | some pipeline => if pipeline.isEmpty then [] else [("pipeline", pipeline)]
      | none => []
    .ok (Request.build "POST" ["_bulk"] b.tag params (.bytes b.body) Http.jsonLines)

def conclude (b : Batch) (response : List UInt8) : Call Result := fun wire =>
  let result (flushed : Bool) : Result := ⟨b.size, b.indices, flushed, response⟩
  if b.flushOnWrites && !b.indices.isEmpty then
    match flush b.client (String.intercalate "," b.indices) wire with
    | (.error f, wire) => (.error f, wire)
    | (.ok (), wire) => (.ok (result true), wire)
  else (.ok (result false), wire)

def execute (b : Batch) : Call Result := fun wire =>
  match b.request with
  | .error f => (.error f, wire)
  | .ok r => b.client.execute r b.conclude wire

/-- Submit the batch. The answer is concluded by the batch as it stands when the answer comes,
which is `later`. -/
def submit {κ : Type} (b later : Batch) (callback : Option (Http.Callback κ Result)) (k : κ) :
    Http.Wire → (Except Fault Result × κ) × Http.Wire := fun wire =>
  match b.request with
  | .error f => ((.error f, k), wire)
  | .ok r => b.client.submit r later.conclude callback k wire

def describe (b : Batch) : String :=
  "BulkWriter(type=" ++ Text.quoted b.typeName ++ ", size=" ++ toString b.size ++ ")"

end Batch

end SpanStore.Bulk
