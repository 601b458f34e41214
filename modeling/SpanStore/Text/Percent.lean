import SpanStore.Text.Hex
import SpanStore.Text.Utf8

/-!
Percent encoding of path segments and of form fields. Both keep letters, digits and `_.-~`; a
path segment also keeps `,` and `*`, and a form field writes a space as `+`. The decoders read
them back.
-/
namespace SpanStore.Text.Percent

def isUnreserved (b : UInt8) : Bool :=
  (0x61 ≤ b && b ≤ 0x7A) || (0x41 ≤ b && b ≤ 0x5A) || (0x30 ≤ b && b ≤ 0x39) ||
    b == 0x5F || b == 0x2E || b == 0x2D || b == 0x7E

def isSegmentByte (b : UInt8) : Bool := isUnreserved b || b == 0x2C || b == 0x2A

def digit (n : Nat) : Char := (Nat.digitChar n).toUpper

def escape (b : UInt8) : List Char := ['%', digit (b.toNat / 16), digit (b.toNat % 16)]

def segmentByte (b : UInt8) : List Char :=
  if isSegmentByte b then [Char.ofNat b.toNat] else escape b

def fieldByte (b : UInt8) : List Char :=
  if isUnreserved b then [Char.ofNat b.toNat] else if b = 0x20 then ['+'] else escape b

def encodeSegment (s : List Char) : List Char := (Utf8.encode s).flatMap segmentByte

def encodeField (s : List Char) : List Char := (Utf8.encode s).flatMap fieldByte

/-- The bytes that an encoded text stands for; `%` wants two digits, and all else is ASCII. -/
def decodeBytes? : List Char → Option (List UInt8)
  | [] => some []
  | '%' :: h :: l :: rest =>
      match hexValue? h, hexValue? l, decodeBytes? rest with
      | some h, some l, some bs => some (UInt8.ofNat (h * 16 + l) :: bs)
      | _, _, _ => none
  | c :: rest =>
      if c = '%' ∨ 0x80 ≤ c.toNat then none
      else (decodeBytes? rest).map (UInt8.ofNat c.toNat :: ·)

def decodeSegment? (s : List Char) : Option (List Char) := (decodeBytes? s).bind Utf8.decode?

def decodeField? (s : List Char) : Option (List Char) :=
  decodeSegment? (s.map fun c => if c = '+' then ' ' else c)

def encodeForm (fields : List (String × String)) : List Char :=
  ['&'].intercalate
    (fields.map fun f => encodeField f.1.toList ++ '=' :: encodeField f.2.toList)

end SpanStore.Text.Percent
