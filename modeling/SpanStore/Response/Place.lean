import SpanStore.Fault
import SpanStore.Json.Select

namespace SpanStore.Response

open Json (Value Flaw Reader)

def isBlank (body : List UInt8) : Bool := body.all Text.isBlankByte

def faultOf (malformed : Fault) : Flaw → Fault
  | .malformed => malformed
  | .undecodable => .undecodableText

/-- The first value at a place, which may be found before the text has its flaw. -/
def read (names : List String) (body : List UInt8) : Except Fault (Option Value) :=
  if isBlank body then .ok none
  else
    let place := Json.joinPlace names
    let reader := Reader.ofBytes body
    match reader.select place with
    | v :: _ => .ok (some v)
    | [] =>
        match reader.flaw? with
        | some flaw => .error (faultOf (.unreadablePath place) flaw)
        | none => .ok none

end SpanStore.Response
