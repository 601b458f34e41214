namespace SpanStore.Binary64

inductive Parts where
  | finite (negative : Bool) (significand : Nat) (exponent : Int)
  | infinite (negative : Bool)
  | undefined

def parts (f : Float) : Parts :=
  let bits := f.toBits.toNat
  let negative := bits >>> 63 == 1
  let field : Nat := (bits >>> 52) % (1 <<< 11)
  let fraction : Nat := bits % (1 <<< 52)
  if field = 2047 then if fraction = 0 then .infinite negative else .undefined
  else if field = 0 then .finite negative fraction (-1074)
  else .finite negative ((1 <<< 52) + fraction) ((field : Int) - 1075)

/-- The whole number nearest to a quotient; a tie goes to the even one. -/
def roundDiv (num den : Nat) : Nat :=
  let q := num / den
  let r := num % den
  if 2 * r > den ∨ (2 * r = den ∧ q % 2 = 1) then q + 1 else q

def scale (num den : Nat) (exponent : Int) : Nat × Nat :=
  if 0 ≤ exponent then (num <<< exponent.toNat, den) else (num, den <<< (-exponent).toNat)

/-- The significand, at most `2 ^ 53`, and the exponent, at least -1074, of the number nearest to
a quotient. The exponent has no upper bound here. -/
def nearest (num den : Nat) : Nat × Int :=
  if num = 0 then (0, -1074)
  else
    let estimate : Int := (num.log2 : Int) - den.log2 - 53
    let (n, d) := scale num den (-estimate)
    let exponent := max (if n / d < 1 <<< 53 then estimate else estimate + 1) (-1074)
    let (n, d) := scale num den (-exponent)
    (roundDiv n d, exponent)

/-- The bits of a significand and an exponent as `nearest` gives them. A significand of `2 ^ 53`
carries into the exponent. -/
def magnitudeBits (significand : Nat) (exponent : Int) : Nat :=
  ((exponent + 1074).toNat <<< 52) + significand

def ofRatio? (negative : Bool) (num den : Nat) : Option Float :=
  let (significand, exponent) := nearest num den
  let bits := magnitudeBits significand exponent
  if bits < 2047 <<< 52 then
    some (Float.ofBits (UInt64.ofNat (if negative then (1 <<< 63) + bits else bits)))
  else none

/-- The number nearest to `digits * 10 ^ exponent`, if it is finite. Exponents far outside the
range are settled without computing the power. -/
def ofDecimal? (negative : Bool) (digits : Nat) (exponent : Int) : Option Float :=
  if digits = 0 then ofRatio? negative 0 1
  else if 400 < exponent then none
  else if exponent + digits.log2 < -2000 then ofRatio? negative 0 1
  else if 0 ≤ exponent then ofRatio? negative (digits * Nat.pow 10 exponent.toNat) 1
  else ofRatio? negative digits (Nat.pow 10 (-exponent).toNat)

end SpanStore.Binary64
