import SpanStore.Calendar.Instant
import SpanStore.Text.Digit
import SpanStore.Text.Quoted

namespace SpanStore.Calendar

structure IndexNaming where
  index : String

namespace IndexNaming

def create (index : String) : Except Fault IndexNaming :=
  if index.isEmpty then .error .emptyIndexPrefix else .ok ⟨index⟩

def all (n : IndexNaming) : String := n.index ++ "-*"

def ofDay (n : IndexNaming) (day : Int) : String :=
  n.index ++ "-" ++ String.ofList (dateOf day).text

def ofInstant (n : IndexNaming) (millis : Quantity) : Except Fault String :=
  (dayOf millis).map n.ofDay

/-- Walk from a day through the last one and add the name of each. The walk takes the next day
before it compares, so the last day of the calendar cannot be passed. -/
def walk (n : IndexNaming) (last day : Int) (names : Array String) : Except Fault (List String) :=
  if day ≤ last then
    match _hnext : nextDay? day with
    | none => .error .dayBeyondCalendar
    | some next => n.walk last next (names.push (n.ofDay day))
  else .ok names.toList
termination_by (last + 1 - day).toNat
decreasing_by
  have := lt_of_nextDay? _hnext
  omega

def ofRange (n : IndexNaming) (first last : Quantity) : Except Fault (List String) :=
  match dayOf first with
  | .error f => .error f
  | .ok first =>
      match dayOf last with
      | .error f => .error f
      | .ok last => n.walk last first #[]

def describe (n : IndexNaming) : String :=
  "IndexNameFormatter(index=" ++ Text.quoted n.index ++ ")"

end IndexNaming

def isCounting (c : Char) : Bool := '1' ≤ c && c ≤ '9'

def asciiDigit (c : Char) : Nat := c.toNat - 0x30

def month? : List Char → Option (Nat × List Char)
  | '1' :: c :: '-' :: rest => if '0' ≤ c ∧ c ≤ '2' then some (10 + asciiDigit c, rest) else none
  | '0' :: c :: '-' :: rest => if isCounting c then some (asciiDigit c, rest) else none
  | c :: '-' :: rest => if isCounting c then some (asciiDigit c, rest) else none
  | _ => none

/-- A day of one or two characters; a second digit may be one of any script after 1 or 2, and
the first may be a space. -/
def day? : List Char → Option Nat
  | ['3', c] => if c = '0' ∨ c = '1' then some (30 + asciiDigit c) else none
  | [a, c] =>
      if a = '1' ∨ a = '2' then (Text.digitValue? c).map (asciiDigit a * 10 + ·)
      else if (a = '0' ∨ a = ' ') ∧ isCounting c then some (asciiDigit c)
      else none
  | [c] => if isCounting c then some (asciiDigit c) else none
  | _ => none

def year? : List Char → Option (Nat × List Char)
  | a :: b :: c :: d :: '-' :: rest =>
      match Text.digitValue? a, Text.digitValue? b, Text.digitValue? c, Text.digitValue? d with
      | some a, some b, some c, some d => some (a * 1000 + b * 100 + c * 10 + d, rest)
      | _, _, _, _ => none
  | _ => none

def Date.parse? (s : List Char) : Option Date := do
  let (year, rest) ← year? s
  let (month, rest) ← month? rest
  let day ← day? rest
  let date : Date := ⟨year, month, day⟩
  if date.isValid then some date else none

def parseDate (s : String) : Except Fault Int :=
  match Date.parse? s.toList with
  | some date => .ok (((date.toOrdinal : Int) - epoch) * 86400000)
  | none => .error .malformedDate

end SpanStore.Calendar
