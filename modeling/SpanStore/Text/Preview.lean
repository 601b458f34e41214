import SpanStore.Text.Utf8

namespace SpanStore.Text

def previewSize : Nat := 512

def preview (body : List UInt8) : List Char :=
  Utf8.decodeLossy (body.take previewSize) ++
    if previewSize < body.length then ['.', '.', '.'] else []

end SpanStore.Text
