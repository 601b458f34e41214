import SpanStore.Number.Binary64

/-!
The shortest decimal text of a floating-point number: the fewest digits that read back as the
number, of two such decimals the nearer one. It is positional from 10^-4 up to 10^16 and has an
exponent outside.
-/
namespace SpanStore.Shortest

open Binary64

/-- The greatest `k` with `10 ^ k` at most the quotient, found upwards from a lower bound. -/
def floorLog10 (num den : Nat) : Int :=
  let bound : Int := Int.fdiv (((num.log2 : Int) - den.log2 - 1) * 30103) 100000 - 1
  climb 4 bound
where
  climb : Nat → Int → Int
    | 0, k => k
    | steps + 1, k => if reaches (k + 1) then climb steps (k + 1) else k
  reaches (k : Int) : Bool :=
    if 0 ≤ k then den * Nat.pow 10 k.toNat ≤ num else den ≤ num * Nat.pow 10 (-k).toNat

/-- The decimal nearest to `significand * 2 ^ exponent` among those of the grid `10 ^ place` that
read back as it, as a multiple of the grid. The numbers that read back lie between the halves of
the gaps to the neighbours, ends included when the significand is even. -/
def onGrid? (significand : Nat) (exponent : Int) (place : Int) : Option Nat :=
  let (up, down) := scale 1 4 exponent
  let (up, down) := if 0 ≤ place then (up, down * Nat.pow 10 place.toNat)
    else (up * Nat.pow 10 (-place).toNat, down)
  let value := 4 * significand * up
  let low := (4 * significand - (if significand = 1 <<< 52 ∧ exponent ≠ -1074 then 1 else 2)) * up
  let high := (4 * significand + 2) * up
  let hits (k : Nat) : Bool :=
    if significand % 2 = 0 then low ≤ k * down && k * down ≤ high
    else low < k * down && k * down < high
  let k := value / down
  match hits k, hits (k + 1) with
  | true, true => some (roundDiv value down)
  | true, false => some k
  | false, true => some (k + 1)
  | false, false => none

/-- The first grid with a hit, from `count` digits on; the digits and their place. -/
def search (significand : Nat) (exponent top : Int) : (left count : Nat) → Nat × Int
  | 0, count => (0, top - count + 1)
  | left + 1, count =>
      let place := top - count + 1
      match onGrid? significand exponent place with
      | some k => (k, place)
      | none => search significand exponent top left (count + 1)

def digits (significand : Nat) (exponent : Int) : Nat × Int :=
  let (num, den) := scale significand 1 exponent
  search significand exponent (floorLog10 num den) 17 1

/-- Text of digits without closing zeros, at a decimal point that stands `point` places after
their start. -/
def layout (ds : List Char) (point : Int) : List Char :=
  if -4 < point ∧ point ≤ 16 then
    if point ≤ 0 then '0' :: '.' :: List.replicate (-point).toNat '0' ++ ds
    else
      let whole := ds.take point.toNat
      let rest := ds.drop point.toNat
      let zeros := List.replicate (point.toNat - ds.length) '0'
      whole ++ zeros ++ '.' :: (if rest.isEmpty then ['0'] else rest)
  else
    let power := point - 1
    let size := Nat.toDigits 10 power.natAbs
    ds.take 1 ++ (if ds.length ≤ 1 then [] else '.' :: ds.drop 1) ++
      'e' :: (if power < 0 then '-' else '+') :: (if size.length < 2 then '0' :: size else size)

def finiteText (negative : Bool) (significand : Nat) (exponent : Int) : List Char :=
  let body :=
    if significand = 0 then ['0', '.', '0']
    else
      let (k, place) := digits significand exponent
      let ds := Nat.toDigits 10 k
      let point := place + ds.length
      layout ((ds.reverse.dropWhile (· == '0')).reverse) point
  if negative then '-' :: body else body

structure Words where
  infinite : String
  undefined : String

def text (words : Words) (f : Float) : String :=
  match parts f with
  | .finite negative significand exponent =>
      String.ofList (finiteText negative significand exponent)
  | .infinite negative => if negative then "-" ++ words.infinite else words.infinite
  | .undefined => words.undefined

end SpanStore.Shortest
