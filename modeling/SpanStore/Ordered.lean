namespace SpanStore.Ordered

variable {κ α : Type} [BEq κ]

/-- Give a key a value. A known key keeps its place. -/
def put (k : κ) (v : α) : List (κ × α) → List (κ × α)
  | [] => [(k, v)]
  | e :: es => if e.1 == k then (k, v) :: es else e :: put k v es

def ofPairs (ps : List (κ × α)) : List (κ × α) := ps.foldl (fun es p => put p.1 p.2 es) []

def get? (k : κ) (es : List (κ × α)) : Option α := (es.find? fun e => e.1 == k).map Prod.snd

end SpanStore.Ordered
