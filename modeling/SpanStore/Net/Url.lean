import SpanStore.Net.Address
import SpanStore.Text.Lower

/-!
Splitting a URL into scheme, authority and path, and the authority into host and port. Tabs and
line ends are dropped first. Brackets of the authority have to hold one address of groups or one
of a future form, and no character of it may stand for a delimiter of URLs.
-/
namespace SpanStore.Net

/-- The scheme in lowercase, the authority, and the path without query and fragment. -/
structure Url where
  scheme : List Char
  authority : List Char
  path : List Char

namespace Url

def isSchemeChar (c : Char) : Bool :=
  c.isAlpha || c.isDigit || c == '+' || c == '-' || c == '.'

def splitScheme (s : List Char) : List Char × List Char :=
  match Text.cut (· == ':') s with
  | (c :: cs, some rest) =>
      if c.isAlpha && cs.all isSchemeChar then ((c :: cs).map Char.toLower, rest) else ([], s)
  | _ => ([], s)

/-- Characters whose compatibility form holds one of `/`, `?`, `#`, `@` and `:`. -/
def lookalikes : List Nat :=
  [0x2047, 0x2048, 0x2049, 0x2100, 0x2101, 0x2105, 0x2106, 0x2A74, 0xFE13, 0xFE16, 0xFE55, 0xFE56,
    0xFE5F, 0xFE6B, 0xFF03, 0xFF0F, 0xFF1A, 0xFF1F, 0xFF20]

/-- The form that is open to later versions: `v`, hexadecimal digits, a point, and at least one
character more. -/
def isFutureAddress (s : List Char) : Bool :=
  match s with
  | 'v' :: rest =>
      match Text.cut (· == '.') rest with
      | (version, some (_ :: _)) =>
          !version.isEmpty && version.all fun c => (Text.hexValue? c).isSome
      | _ => false
  | _ => false

def isBracketed (s : List Char) : Bool :=
  if s.head? == some 'v' then isFutureAddress s
  else
    match Address.parse? s with
    | some (.v6 ..) => true
    | _ => false

def bracketsAgree (authority : List Char) : Bool :=
  match authority.contains '[', authority.contains ']' with
  | false, false => true
  | true, true =>
      let host := Text.afterLast (· == '@') authority
      match Text.cut (· == '[') host with
      | (before, some inner) =>
          let (inner, after) := Text.cut (· == ']') inner
          let after := after.getD []
          before.isEmpty && (after.isEmpty || after.head? == some ':') && isBracketed inner
      | (host, none) => isBracketed (Text.cut (· == ':') host).1
  | _, _ => false

def split? (s : List Char) : Option Url :=
  let s := s.filter fun c => c != '\t' && c != '\n' && c != '\r'
  let (scheme, rest) := splitScheme s
  let (authority, rest) :=
    match rest with
    | '/' :: '/' :: rest =>
        let inAuthority (c : Char) : Bool := c != '/' && c != '?' && c != '#'
        (rest.takeWhile inAuthority, rest.dropWhile inAuthority)
    | _ => ([], rest)
  let path := (Text.cut (· == '?') (Text.cut (· == '#') rest).1).1
  if bracketsAgree authority && authority.all (fun c => !lookalikes.contains c.toNat) then
    some ⟨scheme, authority, path⟩
  else none

/-- The host as written and the text of the port, if it has one. -/
def hostAndPort (u : Url) : List Char × Option (List Char) :=
  let host := Text.afterLast (· == '@') u.authority
  match Text.cut (· == '[') host with
  | (_, some inner) =>
      let (inner, after) := Text.cut (· == ']') inner
      (inner, (Text.cut (· == ':') (after.getD [])).2)
  | (host, none) => Text.cut (· == ':') host

/-- The host in lowercase, its zone as written. -/
def host (u : Url) : String :=
  match Text.cut (· == '%') u.hostAndPort.1 with
  | (name, none) => Text.lower (String.ofList name)
  | (name, some zone) => Text.lower (String.ofList name) ++ String.ofList ('%' :: zone)

def port? (u : Url) : Option (Option Nat) :=
  match u.hostAndPort.2 with
  | none | some [] => some none
  | some digits =>
      let n := Nat.ofDigitChars 10 digits 0
      if digits.all Char.isDigit && n ≤ 65535 then some (some n) else none

end Url

end SpanStore.Net
