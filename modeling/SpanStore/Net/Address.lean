import SpanStore.Text.Hex
import SpanStore.Text.Split

/-!
Addresses in numbers. Every spelling of an address reads as the same four octets, or the same
eight groups and zone, and prints in one form: groups in lowercase without leading zeros, the
first longest run of at least two zero groups left out.
-/
namespace SpanStore.Net

inductive Address where
  | v4 (octets : List Nat)
  | v6 (groups : List Nat) (zone : Option (List Char))
  deriving DecidableEq

namespace Address

export Text (hexDigits hexValue?)

def octet? (s : List Char) : Option Nat :=
  if s.isEmpty || !s.all Char.isDigit || 3 < s.length then none
  else if s.head? == some '0' && 1 < s.length then none
  else
    let n := Nat.ofDigitChars 10 s 0
    if 255 < n then none else some n

def octets? (s : List Char) : Option (List Nat) :=
  let parts := s.splitOn '.'
  if parts.length = 4 then parts.mapM octet? else none

def group? (s : List Char) : Option Nat :=
  if s.isEmpty || 4 < s.length then none
  else (s.mapM hexValue?).map fun ds => ds.foldl (fun n d => n * 16 + d) 0

/-- The parts between colons, a dotted last part turned into the two groups it stands for. -/
def colonParts? (s : List Char) : Option (List (List Char)) :=
  let parts := s.splitOn ':'
  if parts.length < 3 then none
  else
    let last := parts.getLastD []
    if last.contains '.' then
      match octets? last with
      | some [a, b, c, d] =>
          some (parts.dropLast ++ [hexDigits 4 (a * 256 + b), hexDigits 4 (c * 256 + d)])
      | _ => none
    else some parts

def innerGaps (parts : List (List Char)) : List Nat :=
  (List.range parts.length).filter fun i =>
    0 < i && i + 1 < parts.length && (parts.getD i []).isEmpty

/-- The groups before a gap, where a leading empty part is allowed only next to it. -/
def beforeGap? (parts : List (List Char)) : Option (List (List Char)) :=
  match parts with
  | [] :: rest => if rest.isEmpty then some [] else none
  | _ => some parts

/-- The groups after a gap, where a closing empty part is allowed only next to it. -/
def afterGap? (parts : List (List Char)) : Option (List (List Char)) :=
  if (parts.getLastD ['0']).isEmpty then if parts.length = 1 then some [] else none
  else some parts

/-- The eight groups of an address between colons. One gap may stand for one or more zero
groups. -/
def groups? (s : List Char) : Option (List Nat) := do
  let parts ← colonParts? s
  if 9 < parts.length then none
  else
    match innerGaps parts with
    | [] => if parts.length = 8 then parts.mapM group? else none
    | [gap] =>
        let high ← (beforeGap? (parts.take gap)).bind (List.mapM group?)
        let low ← (afterGap? (parts.drop (gap + 1))).bind (List.mapM group?)
        if high.length + low.length < 8 then
          some (high ++ List.replicate (8 - (high.length + low.length)) 0 ++ low)
        else none
    | _ => none

/-- An address with groups; what follows the first `%` is its zone. -/
def v6? (s : List Char) : Option Address :=
  match Text.cut (· == '%') s with
  | (text, none) => (groups? text).map (v6 · none)
  | (text, some zone) =>
      if zone.isEmpty || zone.contains '%' then none else (groups? text).map (v6 · (some zone))

def parse? (s : List Char) : Option Address :=
  if s.contains '/' then none
  else
    match octets? s with
    | some octets => some (v4 octets)
    | none => v6? s

def zeroRun : List Nat → Nat
  | 0 :: rest => zeroRun rest + 1
  | _ => 0

/-- The start and the length of the first longest run of zeros, at least two long. -/
def longestRun (place : Nat) (best : Nat × Nat) : List Nat → Nat × Nat
  | [] => best
  | g :: rest =>
      let run := zeroRun (g :: rest)
      longestRun (place + 1) (if max 1 best.2 < run then (place, run) else best) rest

def groupText (g : Nat) : List Char :=
  match (hexDigits 4 g).dropWhile (· == '0') with
  | [] => ['0']
  | ds => ds

def joinGroups (groups : List Nat) : List Char := [':'].intercalate (groups.map groupText)

def groupsText (groups : List Nat) : List Char :=
  let (start, length) := longestRun 0 (0, 0) groups
  if length = 0 then joinGroups groups
  else joinGroups (groups.take start) ++ ':' :: ':' :: joinGroups (groups.drop (start + length))

def text : Address → List Char
  | v4 octets => ['.'].intercalate (octets.map (Nat.toDigits 10))
  | v6 groups none => groupsText groups
  | v6 groups (some zone) => groupsText groups ++ '%' :: zone

end Address

def canonicalAddress? (host : String) : Option String :=
  (Address.parse? host.toList).map fun a => String.ofList a.text

end SpanStore.Net
