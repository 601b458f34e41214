import SpanStore.Json.Printer
import SpanStore.Number.Quantity
import SpanStore.Template.Branch

namespace SpanStore.Template

open Json (Value)

/-- What a template depends on besides its branch. With strict identifiers a trace is found by
its whole identifier alone, otherwise also by the low 64 bits. -/
structure IndexTemplate where
  index : String
  shards : Quantity := .whole 5
  replicas : Quantity := .whole 1
  strictTraceId : Bool := true

def quantityValue : Quantity → Value
  | .whole n => .int n
  | .real f => .float f

abbrev Members := List (String × Value)

def keyword : Branch → Members
  | .v2 => [("type", .text "string"), ("index", .text "not_analyzed")]
  | .v5 => [("type", .text "keyword")]

def nestedMapping : Value := .object [("type", .text "nested")]

namespace IndexTemplate

def traceIdMapping (t : IndexTemplate) (b : Branch) : Value :=
  if t.strictTraceId then .object (keyword b)
  else
    let fielddata : Members :=
      match b with
      | .v2 => []
      | .v5 => [("fielddata", .text "true")]
    .object (("type", .text "string") :: fielddata ++ [("analyzer", .text "traceId_analyzer")])

def analysis : Value :=
  .object
    [("analyzer", .object [("traceId_analyzer", .object
      [("type", .text "custom"), ("tokenizer", .text "keyword"),
        ("filter", .text "traceId_filter")])]),
      ("filter", .object [("traceId_filter", .object
        [("type", .text "pattern_capture"),
          ("patterns", .list [.text "([0-9a-f]\x7b1,16\x7d)$"]),
          ("preserve_original", .bool true)])])]

def settings (t : IndexTemplate) : Value :=
  .object
    [("index.number_of_shards", quantityValue t.shards),
      ("index.number_of_replicas", quantityValue t.replicas),
      ("index.requests.cache.enable", .bool true),
      ("analysis", analysis)]

def nestedRule (name : String) : Value :=
  .object [(name, .object [("match", .text name), ("mapping", nestedMapping)])]

def dynamicRules (b : Branch) : List Value :=
  [.object [("strings", .object
      [("mapping", .object (keyword b ++ [("ignore_above", .int 256)])),
        ("match_mapping_type", .text "string"), ("match", .text "*")])],
    .object [("value", .object
      [("match", .text "value"),
        ("mapping", .object (("match_mapping_type", .text "string") :: keyword b ++
          [("ignore_above", .int 256), ("ignore_malformed", .bool true)]))])],
    nestedRule "annotations",
    nestedRule "binaryAnnotations"]

def mappings (t : IndexTemplate) (b : Branch) : Value :=
  .object
    [("_default_", .object
      [("dynamic_templates", .list (dynamicRules b)),
        ("_all", .object [("enabled", .bool false)])]),
      ("span", .object [("properties", .object
        [("traceId", t.traceIdMapping b),
          ("timestamp_millis", .object
            [("type", .text "date"), ("format", .text "epoch_millis")]),
          ("annotations", nestedMapping),
          ("binaryAnnotations", nestedMapping)])])]

def pattern (t : IndexTemplate) : String := t.index ++ "-*"

def render (t : IndexTemplate) (b : Branch) : Value :=
  .object
    [("template", .text t.pattern), ("settings", t.settings), ("mappings", t.mappings b)]

def renderText (t : IndexTemplate) (b : Branch) : String :=
  String.ofList (Json.Printer.indented .ascii 0 (t.render b))

end IndexTemplate

end SpanStore.Template
