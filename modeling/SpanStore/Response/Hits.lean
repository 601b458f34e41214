import SpanStore.Response.Place

/-!
The documents that a search found. They are given one by one in the order of the response, so a
flaw of the response stops only those after it. A hit without a document, or with null in its
place, is passed over.
-/
namespace SpanStore.Response

open Json (Value Flaw Reader)

def sourcePlace : String := "hits.hits.item._source"

/-- How to take a document, and whether no documents at all count as no answer. -/
structure HitDecoder (α : Type) where
  document : Value → Except Fault α
  emptyIsNone : Bool

structure Documents (α : Type) where
  ready : List α
  fault : Option Fault

namespace Documents

variable {α : Type}

/-- The next document, nothing at the end, or the fault, after which the documents have ended. -/
def next (ds : Documents α) : Except Fault (Option α) × Documents α :=
  match ds.ready, ds.fault with
  | d :: rest, fault => (.ok (some d), ⟨rest, fault⟩)
  | [], some f => (.error f, ⟨[], none⟩)
  | [], none => (.ok none, ds)

end Documents

namespace HitDecoder

variable {α : Type}

def take (decoder : HitDecoder α) (after : Option Fault) : List Value → Documents α
  | [] => ⟨[], after⟩
  | .null :: vs => decoder.take after vs
  | v :: vs =>
      match decoder.document v with
      | .error f => ⟨[], some (.documentRejected f)⟩
      | .ok a =>
          let rest := decoder.take after vs
          ⟨a :: rest.ready, rest.fault⟩

def documents (decoder : HitDecoder α) (body : List UInt8) : Documents α :=
  if isBlank body then ⟨[], none⟩
  else
    let reader := Reader.ofBytes body
    decoder.take (reader.flaw?.map (faultOf .malformedHits)) (reader.select sourcePlace)

def decode (decoder : HitDecoder α) (body : List UInt8) : Except Fault (Option (List α)) :=
  let ds := decoder.documents body
  match ds.fault with
  | some f => .error f
  | none => .ok (if ds.ready.isEmpty && decoder.emptyIsNone then none else some ds.ready)

def member (name : String) : Value → Except Fault Value
  | .object members =>
      match Ordered.get? name members with
      | some v => .ok v
      | none => .error (.raised .value ("missing " ++ name))
  | _ => .error (.raised .value "not an object")

end HitDecoder

end SpanStore.Response
