import SpanStore.Number.Shortest

namespace SpanStore

inductive Quantity where
  | whole (n : Int)
  | real (f : Float)

namespace Quantity

def words : Shortest.Words := ⟨"inf", "nan"⟩

def text : Quantity → String
  | whole n => toString n
  | real f => Shortest.text words f

/-- The quantity is less than a whole number. What is undefined is not. -/
def below (q : Quantity) (bound : Int) : Bool :=
  match q with
  | whole n => n < bound
  | real f =>
      match Binary64.parts f with
      | .finite negative significand exponent =>
          let (num, den) := Binary64.scale significand 1 exponent
          (if negative then -(num : Int) else num) < bound * den
      | .infinite negative => negative
      | .undefined => false

def atMostZero (q : Quantity) : Bool :=
  match q with
  | whole n => n ≤ 0
  | real f =>
      match Binary64.parts f with
      | .finite negative significand _ => negative || significand == 0
      | .infinite negative => negative
      | .undefined => false

end Quantity

end SpanStore
