/-!
UTF-8 over lists of bytes, read one byte at a time. A sequence falls into pieces: each is a
character, or a longest run of bytes that begins a character and does not complete it.
`decode?` wants characters only; `decodeLossy` puts U+FFFD for every other piece.
-/
namespace SpanStore.Text.Utf8

def encode (s : List Char) : List UInt8 := s.flatMap String.utf8EncodeChar

/-- A character read in part: how many bytes it still wants, the bounds of the next one, and the
value of the bits so far. -/
structure Pending where
  owed : Nat
  low : UInt8
  high : UInt8
  value : Nat

/-- What a lead byte asks for. The bounds keep out overlong forms, surrogates and values above
U+10FFFF. -/
def Pending.ofLead (b : UInt8) : Option Pending :=
  if 0xC2 ≤ b ∧ b ≤ 0xDF then some ⟨1, 0x80, 0xBF, b.toNat - 0xC0⟩
  else if b = 0xE0 then some ⟨2, 0xA0, 0xBF, 0⟩
  else if b = 0xED then some ⟨2, 0x80, 0x9F, 0xD⟩
  else if 0xE1 ≤ b ∧ b ≤ 0xEF then some ⟨2, 0x80, 0xBF, b.toNat - 0xE0⟩
  else if b = 0xF0 then some ⟨3, 0x90, 0xBF, 0⟩
  else if 0xF1 ≤ b ∧ b ≤ 0xF3 then some ⟨3, 0x80, 0xBF, b.toNat - 0xF0⟩
  else if b = 0xF4 then some ⟨3, 0x80, 0x8F, 4⟩
  else none

/-- The pieces read so far, last first, and the character under way. -/
structure Decoder where
  pieces : List (Option Char)
  pending : Option Pending

def Decoder.start (pieces : List (Option Char)) (b : UInt8) : Decoder :=
  if b < 0x80 then ⟨some (Char.ofNat b.toNat) :: pieces, none⟩
  else
    match Pending.ofLead b with
    | some p => ⟨pieces, some p⟩
    | none => ⟨none :: pieces, none⟩

/-- Read a byte. One that the character under way cannot take closes a broken piece and begins
the next. -/
def Decoder.step (d : Decoder) (b : UInt8) : Decoder :=
  match d.pending with
  | none => start d.pieces b
  | some p =>
      if p.low ≤ b ∧ b ≤ p.high then
        let value := p.value * 64 + b.toNat % 64
        if p.owed = 1 then ⟨some (Char.ofNat value) :: d.pieces, none⟩
        else ⟨d.pieces, some ⟨p.owed - 1, 0x80, 0xBF, value⟩⟩
      else start (none :: d.pieces) b

def Decoder.finish (d : Decoder) : List (Option Char) :=
  match d.pending with
  | none => d.pieces.reverse
  | some _ => (none :: d.pieces).reverse

/-- The pieces of a byte sequence, `none` for a broken one. -/
def pieces (bs : List UInt8) : List (Option Char) := (bs.foldl Decoder.step ⟨[], none⟩).finish

def decode? (bs : List UInt8) : Option (List Char) :=
  let ps := pieces bs
  if ps.all Option.isSome then some (ps.filterMap id) else none

/-- The text with U+FFFD for each broken piece. -/
def decodeLossy (bs : List UInt8) : List Char := (pieces bs).map fun p => p.getD '\uFFFD'

end SpanStore.Text.Utf8
