import SpanStore.Json.Value
import SpanStore.Number.Shortest
import SpanStore.Text.Quoted
import SpanStore.Text.Utf8

/-!
Printing values as JSON, on one line without blanks or indented by two. A charset decides
whether the characters after `~` stand as they are or as escapes of their UTF-16 units. Numbers
that are not finite print as the words `NaN` and `Infinity`, which are no JSON.
-/
namespace SpanStore.Json

inductive Charset where
  | ascii
  | unicode

namespace Printer

def words : Shortest.Words := ⟨"Infinity", "NaN"⟩

def unitEscape (n : Nat) : List Char := '\\' :: 'u' :: Text.hexDigits 4 n

def unitEscapes (c : Char) : List Char :=
  let n := c.toNat
  if n < 0x10000 then unitEscape n
  else
    unitEscape (0xD800 + (n - 0x10000) / 0x400) ++ unitEscape (0xDC00 + (n - 0x10000) % 0x400)

def escape (charset : Charset) (c : Char) : List Char :=
  if c == '\x22' then ['\\', '\x22']
  else if c == '\\' then ['\\', '\\']
  else if c == '\n' then ['\\', 'n']
  else if c == '\r' then ['\\', 'r']
  else if c == '\t' then ['\\', 't']
  else if c == '\x08' then ['\\', 'b']
  else if c == '\x0c' then ['\\', 'f']
  else if c.toNat < 0x20 then unitEscapes c
  else
    match charset with
    | .ascii => if c.toNat < 0x7F then [c] else unitEscapes c
    | .unicode => [c]

def string (charset : Charset) (s : String) : List Char :=
  '\x22' :: s.toList.flatMap (escape charset) ++ ['\x22']

def int (n : Int) : List Char :=
  if n < 0 then '-' :: Nat.toDigits 10 n.natAbs else Nat.toDigits 10 n.natAbs

/-- A value without parts. Raw bytes print as nothing. -/
def scalar (charset : Charset) : Value → List Char
  | .null => ['n', 'u', 'l', 'l']
  | .bool true => ['t', 'r', 'u', 'e']
  | .bool false => ['f', 'a', 'l', 's', 'e']
  | .int n => int n
  | .float f => (Shortest.text words f).toList
  | .text s => string charset s
  | _ => []

mutual

def compact (charset : Charset) : Value → List Char
  | .list items => '[' :: compactItems charset true items ++ [']']
  | .object members => '\x7b' :: compactMembers charset true members ++ ['\x7d']
  | v => scalar charset v

def compactItems (charset : Charset) (first : Bool) : List Value → List Char
  | [] => []
  | v :: vs =>
      (if first then [] else [',']) ++ compact charset v ++ compactItems charset false vs

def compactMembers (charset : Charset) (first : Bool) : List (String × Value) → List Char
  | [] => []
  | m :: ms =>
      (if first then [] else [',']) ++ string charset m.1 ++ ':' :: compact charset m.2 ++
        compactMembers charset false ms

end

def newline (depth : Nat) : List Char := '\n' :: List.replicate (2 * depth) ' '

mutual

def indented (charset : Charset) (depth : Nat) : Value → List Char
  | .list [] => ['[', ']']
  | .object [] => ['\x7b', '\x7d']
  | .list items => '[' :: indentedItems charset (depth + 1) true items ++ newline depth ++ [']']
  | .object members =>
      '\x7b' :: indentedMembers charset (depth + 1) true members ++ newline depth ++ ['\x7d']
  | v => scalar charset v

def indentedItems (charset : Charset) (depth : Nat) (first : Bool) : List Value → List Char
  | [] => []
  | v :: vs =>
      (if first then [] else [',']) ++ newline depth ++ indented charset depth v ++
        indentedItems charset depth false vs

def indentedMembers (charset : Charset) (depth : Nat) (first : Bool) :
    List (String × Value) → List Char
  | [] => []
  | m :: ms =>
      (if first then [] else [',']) ++ newline depth ++ string charset m.1 ++ ':' :: ' ' ::
        indented charset depth m.2 ++ indentedMembers charset depth false ms

end

end Printer

def Value.compactBytes (charset : Charset) (v : Value) : List UInt8 :=
  Text.Utf8.encode (Printer.compact charset v)

end SpanStore.Json
