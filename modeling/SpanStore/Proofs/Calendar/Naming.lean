import SpanStore.Proofs.Calendar.DateText
import SpanStore.Proofs.Calendar.Midnight
import SpanStore.Proofs.Calendar.Ordinal

namespace SpanStore.Calendar

/-- A day, counted from 1970-01-01, that the calendar holds. -/
def OnCalendar (day : Int) : Prop := -(epoch : Int) ≤ day ∧ day ≤ (lastDay : Int) - epoch

section Days

variable {day day' : Int}

theorem dateOf_injective (h : OnCalendar day) (h' : OnCalendar day')
    (heq : dateOf day = dateOf day') : day = day' := by
  have hnumber := Date.ofOrdinal_injective heq
  obtain ⟨hfirst, -⟩ := h
  obtain ⟨hfirst', -⟩ := h'
  omega

theorem dateOf_before (h : OnCalendar day) (hlt : day < day') :
    (dateOf day).Before (dateOf day') := by
  obtain ⟨hfirst, -⟩ := h
  exact Date.ofOrdinal_before (by omega)

theorem isValid_dateOf (h : OnCalendar day) : (dateOf day).isValid = true := by
  obtain ⟨-, hlast⟩ := h
  exact Date.isValid_ofOrdinal (by omega)

theorem toOrdinal_dateOf (h : OnCalendar day) : ((dateOf day).toOrdinal : Int) - epoch = day := by
  obtain ⟨hfirst, -⟩ := h
  rw [dateOf, Date.toOrdinal_ofOrdinal]
  omega

theorem exists_dateOf {d : Date} (h : d.isValid = true) :
    OnCalendar ((d.toOrdinal : Int) - epoch) ∧ dateOf ((d.toOrdinal : Int) - epoch) = d := by
  have hlast := Date.toOrdinal_le_lastDay h
  refine ⟨⟨by omega, by omega⟩, ?_⟩
  rw [dateOf, Int.sub_add_cancel, Int.toNat_natCast, Date.ofOrdinal_toOrdinal h]

end Days

namespace IndexNaming

variable {n : IndexNaming} {t : Int} {name : String}

def ofDate (n : IndexNaming) (date : Date) : String := n.index ++ "-" ++ String.ofList date.text

theorem ofDate_injective {d e : Date} (h : n.ofDate d = n.ofDate e) : d = e := by
  refine Date.text_injective ?_
  simpa [ofDate, ← String.toList_inj] using h

theorem ofDay_injective {day day' : Int} (h : OnCalendar day) (h' : OnCalendar day')
    (heq : n.ofDay day = n.ofDay day') : day = day' :=
  dateOf_injective h h' (ofDate_injective heq)

theorem ofInstant_eq_ok_iff :
    n.ofInstant (.whole t) = .ok name ↔
      OnCalendar (t / 86400000) ∧ name = n.ofDay (t / 86400000) := by
  rw [ofInstant]
  constructor
  · intro h
    cases hday : dayOf (.whole t) with
    | error f => simp [hday, Except.map] at h
    | ok day =>
        obtain ⟨rfl, hcalendar⟩ := dayOf_whole_iff.mp hday
        rw [hday] at h
        exact ⟨hcalendar, (Except.ok.inj h).symm⟩
  · rintro ⟨hcalendar, rfl⟩
    rw [dayOf_whole_iff.mpr ⟨rfl, hcalendar⟩]
    rfl

end IndexNaming

/-- From 1000-01-01 to 9999-12-31 in UTC, where a year has four digits. -/
def FourDigitYear (t : Int) : Prop := -30610224000000 ≤ t ∧ t < 253402300800000

theorem FourDigitYear.onCalendar {t : Int} (h : FourDigitYear t) : OnCalendar (t / 86400000) := by
  obtain ⟨hfirst, hlast⟩ := h
  have hepoch : (epoch : Int) = 719162 := rfl
  have hlastDay : (lastDay : Int) = 3652058 := rfl
  constructor <;> omega

theorem FourDigitYear.year_le {t : Int} (h : FourDigitYear t) :
    1000 ≤ (dateOf (t / 86400000)).year := by
  obtain ⟨hfirst, -⟩ := h
  rw [dateOf, Date.ofOrdinal_year_le_iff (by decide)]
  have hdays : daysBeforeYear 1000 = 364877 := rfl
  have hepoch : (epoch : Int) = 719162 := rfl
  omega

theorem parseDate_padded {d : Date} (h : d.isValid = true) :
    parseDate (String.ofList d.padded) = .ok (((d.toOrdinal : Int) - epoch) * 86400000) := by
  rw [parseDate, String.toList_ofList, Date.parse?_padded h]

namespace IndexNaming

/-- Names and dates tell the same days, in the years of four digits. -/
structure ReadsBack (n : IndexNaming) : Prop where
  dated : ∀ t, FourDigitYear t → ∃ date : List Char, date.length = 10 ∧
    n.ofInstant (.whole t) = .ok (n.index ++ "-" ++ String.ofList date) ∧
      parseDate (String.ofList date) = .ok (t - t % 86400000)
  same_iff : ∀ t u, FourDigitYear t → FourDigitYear u →
    (n.ofInstant (.whole t) = n.ofInstant (.whole u) ↔ t / 86400000 = u / 86400000)
  named : ∀ d : Date, d.isValid = true → 1000 ≤ d.year →
    ∃ t, parseDate (String.ofList d.padded) = .ok t ∧
      n.ofInstant (.whole t) = .ok (n.index ++ "-" ++ String.ofList d.padded)

theorem readsBack (n : IndexNaming) : n.ReadsBack where
  dated t ht := by
    have hvalid := isValid_dateOf ht.onCalendar
    refine ⟨(dateOf (t / 86400000)).padded, Date.length_padded _, ?_, ?_⟩
    · rw [ofInstant_eq_ok_iff.mpr ⟨ht.onCalendar, rfl⟩, ofDay,
        Date.text_eq_padded hvalid ht.year_le]
    · rw [parseDate_padded hvalid, toOrdinal_dateOf ht.onCalendar]
      congr 1
      omega
  same_iff t u ht hu := by
    rw [ofInstant_eq_ok_iff.mpr ⟨ht.onCalendar, rfl⟩, ofInstant_eq_ok_iff.mpr ⟨hu.onCalendar, rfl⟩]
    constructor
    · intro h
      exact ofDay_injective ht.onCalendar hu.onCalendar (Except.ok.inj h)
    · intro h
      rw [h]
  named d hvalid hyear := by
    obtain ⟨hcalendar, hdate⟩ := exists_dateOf hvalid
    refine ⟨_, parseDate_padded hvalid, ?_⟩
    have hday : ((d.toOrdinal : Int) - epoch) * 86400000 / 86400000 = (d.toOrdinal : Int) - epoch :=
      Int.mul_ediv_cancel _ (by decide)
    rw [ofInstant_eq_ok_iff.mpr ⟨hday.symm ▸ hcalendar, rfl⟩, hday, ofDay, hdate,
      Date.text_eq_padded hvalid hyear]

theorem readsBack_beforeEpoch :
    FourDigitYear (-1) ∧ ∃ date : List Char, date.length = 10 ∧
      ofInstant ⟨"traces"⟩ (.whole (-1)) = .ok ("traces" ++ "-" ++ String.ofList date) ∧
        parseDate (String.ofList date) = .ok (-86400000) :=
  have hyear : FourDigitYear (-1) := by constructor <;> decide
  ⟨hyear, (readsBack ⟨"traces"⟩).dated (-1) hyear⟩

end IndexNaming

end SpanStore.Calendar
