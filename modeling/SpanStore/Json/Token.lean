import SpanStore.Json.Value
import SpanStore.Number.Binary64
import SpanStore.Text.Blank
import SpanStore.Text.Hex
import SpanStore.Text.Utf8

/-!
Tokens of JSON text and the token under way between two bytes. A string is checked byte by byte
for control characters, escapes and the shape of its UTF-8; only at its end is it decoded. A
number ends at the first byte that cannot continue it.
-/
namespace SpanStore.Json

/-- A string token carries its text if the bytes decode. -/
inductive Token where
  | openList
  | closeList
  | openObject
  | closeObject
  | comma
  | colon
  | text (s : Option String)
  | scalar (v : Value)

/-- A byte of a string, or the UTF-16 unit of a `\u` escape. -/
inductive Piece where
  | byte (b : UInt8)
  | unit (n : Nat)

namespace Piece

def isHigh (n : Nat) : Bool := 0xD800 ≤ n && n < 0xDC00

def isLow (n : Nat) : Bool := 0xDC00 ≤ n && n < 0xE000

def combine (high low : Nat) : Char := Char.ofNat (0x10000 + high % 0x400 * 0x400 + low % 0x400)

/-- The bytes of pieces, put before the reversed `acc`. A high unit takes the unit that follows
it, and stands for a question mark if none does; a low unit alone has no bytes. -/
def resolve? (acc : List UInt8) : List Piece → Option (List UInt8)
  | [] => some acc.reverse
  | byte b :: rest => resolve? (b :: acc) rest
  | unit n :: rest =>
      if isHigh n then
        match rest with
        | unit low :: rest => resolve? ((String.utf8EncodeChar (combine n low)).reverse ++ acc) rest
        | [] => some (0x3F :: acc).reverse
        | byte b :: rest => resolve? (b :: 0x3F :: acc) rest
      else if isLow n then none
      else resolve? ((String.utf8EncodeChar (Char.ofNat n)).reverse ++ acc) rest

def decode? (pieces : List Piece) : Option String :=
  ((resolve? [] pieces).bind Text.Utf8.decode?).map String.ofList

end Piece

/-- Where a string stands: between characters, after a backslash, within the digits of a `\u`
escape, or within a character of several bytes. -/
inductive TextState where
  | plain
  | escape
  | hex (left value : Nat)
  | tail (left : Nat)

inductive TextStep where
  | more (state : TextState) (pieces : List Piece)
  | closed
  | malformed

def letterEscape? (b : UInt8) : Option UInt8 :=
  if b = 0x22 ∨ b = 0x5C ∨ b = 0x2F then some b
  else if b = 0x62 then some 0x08
  else if b = 0x66 then some 0x0C
  else if b = 0x6E then some 0x0A
  else if b = 0x72 then some 0x0D
  else if b = 0x74 then some 0x09
  else none

def TextState.step (state : TextState) (pieces : List Piece) (b : UInt8) : TextStep :=
  match state with
  | plain =>
      if b = 0x22 then .closed
      else if b = 0x5C then .more escape pieces
      else if b < 0x20 then .malformed
      else if b < 0x80 then .more plain (.byte b :: pieces)
      else if b < 0xC0 then .malformed
      else if b < 0xE0 then .more (tail 1) (.byte b :: pieces)
      else if b < 0xF0 then .more (tail 2) (.byte b :: pieces)
      else if b < 0xF8 then .more (tail 3) (.byte b :: pieces)
      else .malformed
  | escape =>
      if b = 0x75 then .more (hex 4 0) pieces
      else
        match letterEscape? b with
        | some c => .more plain (.byte c :: pieces)
        | none => .malformed
  | hex left value =>
      match Text.hexValue? (Char.ofNat b.toNat) with
      | some d =>
          if left ≤ 1 then .more plain (.unit (value * 16 + d) :: pieces)
          else .more (hex (left - 1) (value * 16 + d)) pieces
      | none => .malformed
  | tail left =>
      if 0x80 ≤ b ∧ b < 0xC0 then
        .more (if left ≤ 1 then plain else tail (left - 1)) (.byte b :: pieces)
      else .malformed

inductive NumberPart where
  | minus
  | zero
  | whole
  | point
  | fraction
  | mark
  | sign
  | power
  deriving DecidableEq

/-- A number under way: all its digits as one whole number, how many of them stand after the
point, and its power of ten. -/
structure NumberState where
  part : NumberPart
  negative : Bool
  digits : Nat
  places : Nat
  powerNegative : Bool
  power : Nat

namespace NumberState

def isDigit (b : UInt8) : Bool := 0x30 ≤ b && b ≤ 0x39

def digit (b : UInt8) : Nat := b.toNat - 0x30

def ofMinus : NumberState := ⟨.minus, true, 0, 0, false, 0⟩

def ofDigit (b : UInt8) : NumberState :=
  ⟨if b = 0x30 then .zero else .whole, false, digit b, 0, false, 0⟩

def next? (n : NumberState) (b : UInt8) : Option NumberState :=
  let toFraction (_ : Unit) : Option NumberState :=
    if b = 0x2E then some { n with part := .point }
    else if b = 0x65 ∨ b = 0x45 then some { n with part := .mark }
    else none
  match n.part with
  | .minus =>
      if isDigit b then some { ofDigit b with negative := true } else none
  | .zero => toFraction ()
  | .whole =>
      if isDigit b then some { n with digits := n.digits * 10 + digit b } else toFraction ()
  | .point =>
      if isDigit b then
        some { n with part := .fraction, digits := n.digits * 10 + digit b, places := 1 }
      else none
  | .fraction =>
      if isDigit b then some { n with digits := n.digits * 10 + digit b, places := n.places + 1 }
      else if b = 0x65 ∨ b = 0x45 then some { n with part := .mark }
      else none
  | .mark =>
      if isDigit b then some { n with part := .power, power := digit b }
      else if b = 0x2B then some { n with part := .sign }
      else if b = 0x2D then some { n with part := .sign, powerNegative := true }
      else none
  | .sign => if isDigit b then some { n with part := .power, power := digit b } else none
  | .power => if isDigit b then some { n with power := n.power * 10 + digit b } else none

/-- The value of a number that ends here. A whole number has at most 63 bits beside its sign; any
other one is the nearest floating-point number, which has to be finite. -/
def value? (n : NumberState) : Option Value :=
  match n.part with
  | .zero | .whole =>
      if n.digits < 1 <<< 63 then some (.int (if n.negative then -(n.digits : Int) else n.digits))
      else none
  | .fraction | .power =>
      let power : Int := if n.powerNegative then -(n.power : Int) else n.power
      (Binary64.ofDecimal? n.negative n.digits (power - n.places)).map .float
  | _ => none

end NumberState

/-- The token under way between two bytes: none, a string, a number, or a word of which some
bytes are left to come. -/
inductive Lexeme where
  | none
  | text (state : TextState) (pieces : List Piece)
  | number (n : NumberState)
  | word (left : List UInt8) (v : Value)

inductive Opening where
  | blank
  | whole (t : Token)
  | partly (l : Lexeme)
  | malformed

def Opening.ofByte (b : UInt8) : Opening :=
  if Text.isBlankByte b then .blank
  else if b = 0x5B then .whole .openList
  else if b = 0x5D then .whole .closeList
  else if b = 0x7B then .whole .openObject
  else if b = 0x7D then .whole .closeObject
  else if b = 0x2C then .whole .comma
  else if b = 0x3A then .whole .colon
  else if b = 0x22 then .partly (.text .plain [])
  else if b = 0x2D then .partly (.number .ofMinus)
  else if NumberState.isDigit b then .partly (.number (.ofDigit b))
  else if b = 0x6E then .partly (.word [0x75, 0x6C, 0x6C] .null)
  else if b = 0x74 then .partly (.word [0x72, 0x75, 0x65] (.bool true))
  else if b = 0x66 then .partly (.word [0x61, 0x6C, 0x73, 0x65] (.bool false))
  else .malformed

end SpanStore.Json
