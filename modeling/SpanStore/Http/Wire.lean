import SpanStore.Fault
import SpanStore.Http.Request

/-!
The wire to the cluster. Its answers are known in advance and come one for each request; when
none is left every request is answered with an empty object. It keeps all requests in order, and
counts how often it was closed, which is at most once.
-/
namespace SpanStore.Http

/-- What a request meets: a status with a body, or a fault on the way. -/
inductive Answer where
  | response (status : Int) (body : Payload)
  | fault (f : Fault)

structure Sent where
  method : String
  target : List Char
  body : Option (List UInt8)
  headers : List (String × String)
  timeout : Quantity

structure Wire where
  answers : List Answer
  sent : List Sent
  closings : Nat

namespace Wire

def fresh (answers : List Answer) : Wire := ⟨answers, [], 0⟩

def emptyObject : Answer := .response 200 (.bytes [0x7B, 0x7D])

def exchange (w : Wire) (s : Sent) : Answer × Wire :=
  (w.answers.headD emptyObject, { w with answers := w.answers.tail, sent := w.sent ++ [s] })

def isClosed (w : Wire) : Bool := w.closings != 0

def close (w : Wire) : Wire :=
  if w.isClosed then w else { w with closings := w.closings + 1 }

end Wire

/-- A request with its headers: the form of answer it accepts, and that of its body if it has
one. -/
def Request.toSent (r : Request) (timeout : Quantity) : Sent :=
  ⟨r.method, r.target, r.body,
    ("accept", json) :: (if r.body.isSome then [("content-type", r.contentType)] else []), timeout⟩

end SpanStore.Http
