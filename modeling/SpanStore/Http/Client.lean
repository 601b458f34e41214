import SpanStore.Http.Callback
import SpanStore.Http.Wire
import SpanStore.Json.Printer
import SpanStore.Net.Pool

/-!
Calls to the cluster. A call sends one request and converts the bytes of a successful answer.
A submitted call also tells its callback how it ended, once.
-/
namespace SpanStore.Http

structure Client where
  baseUrl : String
  config : Net.ConnectionConfig

/-- What a call gives, and the wire after it. -/
abbrev Call (α : Type) := Wire → Except Fault α × Wire

def Call.ofConversion {α : Type} (convert : List UInt8 → Except Fault α) : List UInt8 → Call α :=
  fun body w => (convert body, w)

def Call.ignore : List UInt8 → Call Unit := fun _ w => (.ok (), w)

namespace Client

def describe (c : Client) : String := "CallFactory(" ++ c.baseUrl ++ ")"

def wireFault (tag : String) (f : Fault) : Fault :=
  if f.kind = .connectionTimeout then .timedOut tag f
  else if f.kind.isTransport then .notSent tag f
  else f

def perform (c : Client) (r : Request) : Call (List UInt8) := fun w =>
  if w.isClosed then (.error (.closedToCalls r.tag), w)
  else
    match w.exchange (r.toSent c.config.requestTimeout) with
    | (.fault f, w) => (.error (wireFault r.tag f), w)
    | (.response status body, w) =>
        if 200 ≤ status ∧ status < 300 then (.ok body.toBytes, w)
        else (.error (.refused r.tag status body.toBytes), w)

def conversionFault (tag : String) (f : Fault) : Fault :=
  if f.kind.isOwn then f else .notConverted tag f

def execute {α : Type} (c : Client) (r : Request) (convert : List UInt8 → Call α) : Call α :=
  fun w =>
    match c.perform r w with
    | (.error f, w) => (.error f, w)
    | (.ok body, w) =>
        match convert body w with
        | (.error f, w) => (.error (conversionFault r.tag f), w)
        | (.ok a, w) => (.ok a, w)

/-- Submit a call. A closed client refuses it without telling the callback. -/
def submit {κ α : Type} (c : Client) (r : Request) (convert : List UInt8 → Call α)
    (callback : Option (Callback κ α)) (k : κ) : Wire → (Except Fault α × κ) × Wire := fun w =>
  if w.isClosed then ((.error (.closedToSubmissions r.tag), k), w)
  else
    let (outcome, w) := c.execute r convert w
    match callback with
    | none => ((outcome, k), w)
    | some callback => (callback.settle outcome k, w)

end Client

/-- The body of a value: bytes as they are, text in UTF-8, and all else as JSON, which cannot
hold bytes. -/
def valueBody? (v : Json.Value) : Option (List UInt8) :=
  match v with
  | .bytes bs => some bs
  | .text s => some (Text.Utf8.encode s.toList)
  | v => if v.holdsBytes then none else some (v.compactBytes .unicode)

def requestBody (v : Json.Value) : Except Fault (List UInt8) :=
  match valueBody? v with
  | some bs => .ok bs
  | none => .error .bytesInBody

end SpanStore.Http
