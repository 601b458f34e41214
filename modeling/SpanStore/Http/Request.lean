import SpanStore.Http.Payload
import SpanStore.Text.Percent

namespace SpanStore.Http

def json : String := "application/json"

def jsonLines : String := "application/x-ndjson"

structure Request where
  method : String
  path : List Char
  tag : String
  params : List (String × String)
  body : Option (List UInt8)
  contentType : String

namespace Request

def joinSegments (segments : List String) : List Char :=
  '/' :: ['/'].intercalate (segments.map fun s => Text.Percent.encodeSegment s.toList)

def build (method : String) (segments : List String) (tag : String)
    (params : List (String × String)) (body : Payload) (contentType : String) : Request :=
  ⟨method, joinSegments segments, tag, params, body.bytes?, contentType⟩

def plain (method : String) (segments : List String) (tag : String) : Request :=
  build method segments tag [] .absent json

def target (r : Request) : List Char :=
  if r.params.isEmpty then r.path else r.path ++ '?' :: Text.Percent.encodeForm r.params

end Request

end SpanStore.Http
