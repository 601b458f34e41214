import SpanStore.Json.Reader

/-!
Values at a place of a document. A place is written as the names on the way from the root joined
with dots, `item` for each step into a list, so a name with a dot in it counts as two steps.
Nothing is selected inside a selected value.
-/
namespace SpanStore.Json

def afterPrefix? : (beginning s : List Char) → Option (List Char)
  | [], s => some s
  | c :: cs, d :: ds => if c = d then afterPrefix? cs ds else none
  | _ :: _, [] => none

/-- What is left of a place after a step to a part. All steps but the first follow a dot. -/
def afterStep? (first : Bool) (name : String) (place : List Char) : Option (List Char) :=
  afterPrefix? (if first then name.toList else '.' :: name.toList) place

def itemStep : String := "item"

namespace Value

mutual

/-- The values at a place, in the order of the document. `place` is what is left of it at this
value, and `first` says that this value is the root. -/
def select (first : Bool) (place : List Char) (v : Value) : List Value :=
  if place.isEmpty then [v.distinct]
  else
    match v with
    | list items =>
        match afterStep? first itemStep place with
        | some place => selectItems place items
        | none => []
    | object members => selectMembers first place members
    | _ => []

def selectItems (place : List Char) : List Value → List Value
  | [] => []
  | v :: vs => select false place v ++ selectItems place vs

def selectMembers (first : Bool) (place : List Char) : List (String × Value) → List Value
  | [] => []
  | m :: ms =>
      (match afterStep? first m.1 place with
        | some place => select false place m.2
        | none => []) ++ selectMembers first place ms

end

end Value

/-- The values at a place among the finished parts of open lists and objects, given outermost
first. -/
def selectOpen (first : Bool) (place : List Char) : List Open → List Value
  | [] => []
  | .list items :: frames =>
      if place.isEmpty then []
      else
        match afterStep? first itemStep place with
        | some place => Value.selectItems place items.reverse ++ selectOpen false place frames
        | none => []
  | .object members name :: frames =>
      if place.isEmpty then []
      else
        Value.selectMembers first place members.reverse ++
          match afterStep? first name place with
          | some place => selectOpen false place frames
          | none => []

def Reader.select (r : Reader) (place : String) : List Value :=
  match r.progress.root with
  | some v => v.select true place.toList
  | none => selectOpen true place.toList r.progress.frames.reverse

def joinPlace (names : List String) : String := String.intercalate "." names

end SpanStore.Json
