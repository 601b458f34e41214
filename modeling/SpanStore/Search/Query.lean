import SpanStore.Http.Client
import SpanStore.Search.Clause

namespace SpanStore.Search

open Json (Value)
open Http (Call Client Request)

def resultWindow : Int := 10000

structure Aggregation where
  field : String
  size : Int := resultWindow
  nestedPath : Option String := none

def Aggregation.toValue (a : Aggregation) : Value :=
  let terms := single "terms" (.object [("field", .text a.field), ("size", .int a.size)])
  match a.nestedPath with
  | none => terms
  | some path =>
      .object [("nested", single "path" (.text path)), ("aggs", single a.field terms)]

/-- A search of documents of one type: the clause set last, and the aggregations by field. -/
structure Query where
  indices : List String
  typeName : String
  clause : Option Clause
  aggregations : List (String × Aggregation)

inductive Change where
  | term (field : String) (v : Value)
  | terms (field : String) (vs : List Value)
  | service (name : String)
  | filters (fs : List Filter)
  | aggregate (a : Aggregation)

namespace Query

def ofIndices (indices : List String) (typeName : String) : Query := ⟨indices, typeName, none, []⟩

def setClause (q : Query) (c : Clause) : Query := { q with clause := some c }

def changed (q : Query) : Change → Except Fault Query
  | .term field v => .ok (q.setClause (.term field v))
  | .terms field vs => .ok (q.setClause (.terms field vs))
  | .service name => .ok (q.setClause (.service name))
  | .filters fs => (fs.mapM Filter.clause).map fun cs => q.setClause (.all cs)
  | .aggregate a => .ok { q with aggregations := Ordered.put a.field a q.aggregations }

/-- Change a search. A change that fails leaves it as it was. -/
def change (q : Query) (c : Change) : Except Fault Unit × Query :=
  match q.changed c with
  | .ok q => (.ok (), q)
  | .error f => (.error f, q)

def changeAll (q : Query) (cs : List Change) : Except Fault Query := cs.foldlM changed q

def tag (q : Query) : String := if q.aggregations.isEmpty then "search" else "aggregation"

def toValue (q : Query) : Value :=
  let size : List (String × Value) :=
    if q.aggregations.isEmpty then [("size", .int resultWindow)] else [("_source", .bool false)]
  let query : List (String × Value) :=
    q.clause.toList.map fun c => ("query", boolean "filter" [c.toValue])
  let aggregations : List (String × Value) :=
    if q.aggregations.isEmpty then []
    else [("aggs", .object (q.aggregations.map fun a => (a.1, a.2.toValue)))]
  .object (size ++ query ++ aggregations)

def toJson (q : Query) : List UInt8 := q.toValue.compactBytes .ascii

def describe (q : Query) : String :=
  "SearchRequest(" ++ String.intercalate "," q.indices ++ "/" ++ q.typeName ++ ", " ++ q.tag ++ ")"

end Query

/-- Parameters that let a search pass over indices that are not there. -/
def lenientParams : List (String × String) :=
  [("allow_no_indices", "true"), ("expand_wildcards", "open"), ("ignore_unavailable", "true")]

def lenientRequest (indices : List String) (typeName tag : String) (body : Http.Payload) :
    Except Fault Request :=
  if indices.isEmpty then .error .noIndices
  else
    .ok (Request.build "POST" [String.intercalate "," indices, typeName, "_search"] tag
      lenientParams body Http.json)

def Query.request (q : Query) : Except Fault Request :=
  lenientRequest q.indices q.typeName q.tag (.bytes q.toJson)

def execute {α : Type} (c : Client) (q : Query) (convert : List UInt8 → Call α) : Call α :=
  fun w =>
    match q.request with
    | .error f => (.error f, w)
    | .ok r => c.execute r convert w

def submit {κ α : Type} (c : Client) (q : Query) (convert : List UInt8 → Call α)
    (callback : Option (Http.Callback κ α)) (k : κ) :
    Http.Wire → (Except Fault α × κ) × Http.Wire := fun w =>
  match q.request with
  | .error f => ((.error f, k), w)
  | .ok r => c.submit r convert callback k w

end SpanStore.Search
