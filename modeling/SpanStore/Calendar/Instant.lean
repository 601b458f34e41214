import SpanStore.Calendar.Date
import SpanStore.Fault

/-!
The day of an instant. An instant is given in milliseconds; it is divided into seconds in
floating point, and the fraction of a second is rounded to whole microseconds, a half to the
even one, which may carry into the next second.
-/
namespace SpanStore.Calendar

open Binary64 (nearest scale roundDiv magnitudeBits)

structure Finite where
  negative : Bool
  significand : Nat
  exponent : Int

namespace Finite

def ofRatio (negative : Bool) (num den : Nat) : Finite :=
  let p := nearest num den
  ⟨negative, p.1, p.2⟩

def check (t : Finite) : Except Fault Finite :=
  if magnitudeBits t.significand t.exponent < 2047 <<< 52 then .ok t
  else .error .unreachableInstant

def ratio (t : Finite) : Nat × Nat := scale t.significand 1 t.exponent

def whole (t : Finite) : Nat := t.ratio.1 / t.ratio.2

/-- The fraction of a number in millionths. It is multiplied in floating point, and the product is
rounded to a whole number, a half to the even one. -/
def micros (t : Finite) : Nat :=
  let product := ofRatio false (t.ratio.1 % t.ratio.2 * 1000000) t.ratio.2
  roundDiv product.ratio.1 product.ratio.2

end Finite

def seconds (millis : Quantity) : Except Fault Finite :=
  match millis with
  | .whole n => (Finite.ofRatio (n < 0) n.natAbs 1000).check
  | .real f =>
      match Binary64.parts f with
      | .finite negative significand exponent =>
          let millis : Finite := ⟨negative, significand, exponent⟩
          (Finite.ofRatio negative millis.ratio.1 (millis.ratio.2 * 1000)).check
      | .infinite _ => .error .unreachableInstant
      | .undefined => .error .undefinedInstant

/-- The whole seconds at or below a time, once its fraction is rounded to microseconds. -/
def wholeSeconds (t : Finite) : Int :=
  if t.negative then
    if t.micros = 0 then -(t.whole : Int) else -(t.whole : Int) - 1
  else if 1000000 ≤ t.micros then (t.whole : Int) + 1 else t.whole

/-- The day of an instant, counted from 1970-01-01. A clock counts seconds in 64 bits and years
in 32 bits; the calendar holds years 1 to 9999. -/
def dayOf (millis : Quantity) : Except Fault Int :=
  match seconds millis with
  | .error f => .error f
  | .ok t =>
      let s := wholeSeconds t
      if s < -0x8000000000000000 ∨ 0x8000000000000000 ≤ s then .error .unreachableInstant
      else
        let day := s / 86400
        if -(epoch : Int) ≤ day ∧ day ≤ (lastDay : Int) - epoch then .ok day
        else if isBeyondClock day then .error .yearBeyondClock
        else .error .yearBeyondCalendar
where
  /-- The year, less 1900, does not fit 32 bits. -/
  isBeyondClock (day : Int) : Bool :=
    let cycles := (day + epoch) / 146097
    let year := cycles * 400 + (Date.ofOrdinal ((day + epoch) % 146097).toNat).year
    year - 1900 < -0x80000000 || 0x80000000 ≤ year - 1900

def dateOf (day : Int) : Date := Date.ofOrdinal (day + epoch).toNat

/-- The day after a day, which the last day of the calendar does not have. -/
def nextDay? (day : Int) : Option Int :=
  if day < (lastDay : Int) - epoch then some (day + 1) else none

theorem nextDay?_eq_some_iff {day next : Int} :
    nextDay? day = some next ↔ day < (lastDay : Int) - epoch ∧ next = day + 1 := by
  simp [nextDay?, eq_comm]

theorem nextDay?_eq_none_iff {day : Int} : nextDay? day = none ↔ (lastDay : Int) - epoch ≤ day := by
  simp [nextDay?]

theorem lt_of_nextDay? {day next : Int} (h : nextDay? day = some next) : day < next := by
  have := (nextDay?_eq_some_iff.mp h).2
  omega

end SpanStore.Calendar
