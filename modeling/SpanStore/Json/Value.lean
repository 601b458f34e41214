import SpanStore.Ordered

namespace SpanStore.Json

inductive Value where
  | null
  | bool (b : Bool)
  | int (n : Int)
  | float (f : Float)
  | text (s : String)
  | bytes (bs : List UInt8)
  | list (items : List Value)
  | object (members : List (String × Value))

instance : Inhabited Value := ⟨.null⟩

namespace Value

mutual

/-- Every object with its member names made distinct: a repeated name keeps its first place and
takes its last value. -/
def distinct : Value → Value
  | list items => list (distinctItems items)
  | object members => object (Ordered.ofPairs (distinctMembers members))
  | v => v

def distinctItems : List Value → List Value
  | [] => []
  | v :: vs => distinct v :: distinctItems vs

def distinctMembers : List (String × Value) → List (String × Value)
  | [] => []
  | m :: ms => (m.1, distinct m.2) :: distinctMembers ms

end

mutual

def holdsBytes : Value → Bool
  | bytes _ => true
  | list items => itemsHoldBytes items
  | object members => membersHoldBytes members
  | _ => false

def itemsHoldBytes : List Value → Bool
  | [] => false
  | v :: vs => holdsBytes v || itemsHoldBytes vs

def membersHoldBytes : List (String × Value) → Bool
  | [] => false
  | m :: ms => holdsBytes m.2 || membersHoldBytes ms

end

def text? : Value → Option String
  | text s => some s
  | _ => none

end Value

end SpanStore.Json
