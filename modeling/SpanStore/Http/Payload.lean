import SpanStore.Text.Utf8

namespace SpanStore.Http

inductive Payload where
  | absent
  | text (s : String)
  | bytes (bs : List UInt8)

namespace Payload

def bytes? : Payload → Option (List UInt8)
  | absent => none
  | text s => some (Text.Utf8.encode s.toList)
  | bytes bs => some bs

def toBytes (p : Payload) : List UInt8 := p.bytes?.getD []

end Payload

end SpanStore.Http
