import SpanStore.Fault
import SpanStore.Json.Value
import SpanStore.Text.Lower
import SpanStore.Text.Split

namespace SpanStore.Search

open Json (Value)

def single (name : String) (v : Value) : Value := .object [(name, v)]

/-- Two underscores in a row become a dot, from left to right. -/
def dotted : List Char → List Char
  | '_' :: '_' :: rest => '.' :: dotted rest
  | c :: rest => c :: dotted rest
  | [] => []

def fieldName (field : String) : String :=
  let name := String.ofList (dotted field.toList)
  if name = "from_" then "from" else name

/-- A condition on one field, a clause on nested objects, or several clauses of which all or any
have to hold. -/
inductive Clause where
  | term (field : String) (v : Value)
  | terms (field : String) (vs : List Value)
  | range (field : String) (least : Value) (most : Option Value)
  | nested (path : String) (c : Clause)
  | all (clauses : List Clause)
  | any (clauses : List Clause)

/-- A boolean query of one kind; a list without clauses is left out. -/
def boolean (kind : String) (clauses : List Value) : Value :=
  single "bool" (.object (if clauses.isEmpty then [] else [(kind, .list clauses)]))

namespace Clause

mutual

def toValue : Clause → Value
  | term field v => single "term" (single (fieldName field) v)
  | terms field vs => single "terms" (single (fieldName field) (.list vs))
  | range field least most =>
      let most : List (String × Value) := most.toList.map fun v => ("lte", v)
      single "range" (single (fieldName field) (.object (("gte", least) :: most)))
  | nested path c =>
      single "nested" (.object [("path", .text path), ("query", toValue c)])
  | all clauses => boolean "must" (toValues clauses)
  | any clauses => boolean "should" (toValues clauses)

def toValues : List Clause → List Value
  | [] => []
  | c :: cs => toValue c :: toValues cs

end

/-- A service took part: one of the two kinds of annotations names it. -/
def service (name : String) : Clause :=
  let within (path : String) : Clause :=
    nested path (all [term (path ++ ".endpoint.serviceName") (.text (Text.lower name))])
  any [within "annotations", within "binaryAnnotations"]

/-- All terms hold of one nested object, whose path is the first step of the last field. Of terms
on one field the last counts, in the place of the first. -/
def nestedTerms (terms : List (String × Value)) : Except Fault Clause :=
  let terms := Ordered.ofPairs terms
  match terms.getLast? with
  | none => .error .noNestedTerms
  | some last =>
      .ok (nested (String.ofList (Text.cut (· == '.') last.1.toList).1)
        (all (terms.map fun t => term t.1 t.2)))

end Clause

inductive Filter where
  | range (field : String) (least : Value) (most : Option Value)
  | term (field : String) (v : Value)
  | service (name : String)
  | nested (terms : List (String × Value))

def Filter.clause : Filter → Except Fault Clause
  | range field least most => .ok (.range field least most)
  | term field v => .ok (.term field v)
  | service name => .ok (.service name)
  | nested terms => Clause.nestedTerms terms

end SpanStore.Search
