import SpanStore.Response.Place

namespace SpanStore.Response

open Json (Value Reader)

/-- Where the keys of an aggregation stand. A nested one has another of its name inside. -/
def keyPlace (name : String) (nested : Bool) : String :=
  "aggregations." ++ name ++ (if nested then "." ++ name else "") ++ ".buckets.item.key"

def bucketKeys (name : String) (nested : Bool) (body : List UInt8) : Except Fault (List Value) :=
  if isBlank body then .ok []
  else
    let reader := Reader.ofBytes body
    match reader.flaw? with
    | some flaw => .error (faultOf .malformedBuckets flaw)
    | none => .ok (reader.select (keyPlace name nested))

end SpanStore.Response
