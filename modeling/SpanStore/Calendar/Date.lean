namespace SpanStore.Calendar

structure Date where
  year : Nat
  month : Nat
  day : Nat
  deriving DecidableEq

def isLeap (year : Nat) : Bool := year % 4 == 0 && (year % 100 != 0 || year % 400 == 0)

def monthLengths (leap : Bool) : List Nat :=
  [31, if leap then 29 else 28, 31, 30, 31, 30, 31, 31, 30, 31, 30, 31]

def daysBeforeYear (year : Nat) : Nat :=
  (year - 1) * 365 + (year - 1) / 4 - (year - 1) / 100 + (year - 1) / 400

def epoch : Nat := 719162

def lastDay : Nat := 3652058

/-- The month and the day of a day of the year, counted from zero; `month` is the month that the
first length belongs to. -/
def inMonths (month : Nat) : List Nat → Nat → Nat × Nat
  | [], day => (month, day + 1)
  | length :: lengths, day =>
      if day < length then (month, day + 1) else inMonths (month + 1) lengths (day - length)

namespace Date

/-- The date of a number of days after 0001-01-01. Cycles of 400, 100, 4 years and 1 year are
taken out in turn; the last day of a cycle of 400 or 4 years belongs to the cycle before it. -/
def ofOrdinal (n : Nat) : Date :=
  let n400 := n / 146097
  let r := n % 146097
  let n100 := min 3 (r / 36524)
  let r := r - n100 * 36524
  let n4 := r / 1461
  let r := r % 1461
  let n1 := min 3 (r / 365)
  let year := n400 * 400 + n100 * 100 + n4 * 4 + n1 + 1
  let (month, day) := inMonths 1 (monthLengths (isLeap year)) (r - n1 * 365)
  ⟨year, month, day⟩

def isValid (d : Date) : Bool :=
  1 ≤ d.year && d.year ≤ 9999 && 1 ≤ d.month && d.month ≤ 12 && 1 ≤ d.day &&
    d.day ≤ (monthLengths (isLeap d.year)).getD (d.month - 1) 0

def toOrdinal (d : Date) : Nat :=
  let months := (monthLengths (isLeap d.year)).take (d.month - 1)
  daysBeforeYear d.year + months.foldl (· + ·) 0 + (d.day - 1)

def twoDigits (n : Nat) : List Char :=
  if n < 10 then '0' :: Nat.toDigits 10 n else Nat.toDigits 10 n

/-- Year, month and day with hyphens; the year has no leading zeros. -/
def text (d : Date) : List Char :=
  Nat.toDigits 10 d.year ++ '-' :: twoDigits d.month ++ '-' :: twoDigits d.day

end Date

end SpanStore.Calendar
