import SpanStore.Proofs.Calendar.Range

/-!
The ends of a range. The last day of the calendar has names but ends no range, as the walk over the
days looks for the day after it. A range is empty if its ends are reversed and lie on two days;
within one day the order of the ends does not matter.
-/
namespace SpanStore.Calendar.IndexNaming

variable {n : IndexNaming} {first last t : Int} {names : List String}

def lastMidnight : Int := 253402214400000

def Named (n : IndexNaming) (t : Int) : Prop := ∃ name, n.ofInstant (.whole t) = .ok name

theorem named_iff_onCalendar : n.Named t ↔ OnCalendar (t / 86400000) := by
  constructor
  · rintro ⟨name, hname⟩
    exact (ofInstant_eq_ok_iff.mp hname).1
  · intro h
    exact ⟨_, ofInstant_eq_ok_iff.mpr ⟨h, rfl⟩⟩

theorem Named.lastDay_iff (h : n.Named t) :
    t / 86400000 = (lastDay : Int) - epoch ↔ lastMidnight ≤ t := by
  obtain ⟨-, hlast⟩ := named_iff_onCalendar.mp h
  have hepoch : (epoch : Int) = 719162 := rfl
  have hlastDay : (lastDay : Int) = 3652058 := rfl
  have hmidnight : lastMidnight = 253402214400000 := rfl
  omega

theorem ofRange_of_named (hfirst : n.Named first) (hlast : n.Named last) :
    n.ofRange (.whole first) (.whole last) =
      if lastMidnight ≤ last then .error .dayBeyondCalendar
      else .ok ((days (first / 86400000) (last / 86400000)).map n.ofDay) := by
  have hcalendar := named_iff_onCalendar.mp hfirst
  have hcalendar' := named_iff_onCalendar.mp hlast
  have hle : lastMidnight ≤ last → first / 86400000 ≤ last / 86400000 :=
    fun h => hcalendar.2.trans_eq (hlast.lastDay_iff.mpr h).symm
  rw [ofRange_eq hcalendar hcalendar']
  simp only [hlast.lastDay_iff, and_iff_right_of_imp hle]

/-- A range is listed exactly if both its ends have names and the last one lies before the last day
of the calendar. -/
theorem ofRange_returns_iff (n : IndexNaming) (first last : Int) :
    ((∃ names, n.ofRange (.whole first) (.whole last) = .ok names) ↔
      n.Named first ∧ n.Named last ∧ last < lastMidnight) ∧
    (n.Named first → n.Named last → lastMidnight ≤ last →
      n.ofRange (.whole first) (.whole last) = .error .dayBeyondCalendar) := by
  refine ⟨⟨?_, ?_⟩, ?_⟩
  · rintro ⟨names, hnames⟩
    obtain ⟨hfirst, hlast, -⟩ := ofRange_eq_ok hnames
    rw [← named_iff_onCalendar (n := n)] at hfirst hlast
    refine ⟨hfirst, hlast, ?_⟩
    by_contra hend
    rw [ofRange_of_named hfirst hlast, if_pos (Int.not_lt.mp hend)] at hnames
    cases hnames
  · rintro ⟨hfirst, hlast, hend⟩
    exact ⟨_, by rw [ofRange_of_named hfirst hlast, if_neg (Int.not_le.mpr hend)]⟩
  · intro hfirst hlast hend
    rw [ofRange_of_named hfirst hlast, if_pos hend]

theorem lastMidnight_unlisted :
    ofInstant ⟨"zipkin"⟩ (.whole lastMidnight) = .ok "zipkin-9999-12-31" ∧
      ¬ ∃ names, ofRange ⟨"zipkin"⟩ (.whole lastMidnight) (.whole lastMidnight) = .ok names := by
  have hrange : ofRange ⟨"zipkin"⟩ (.whole lastMidnight) (.whole lastMidnight) =
      .error .dayBeyondCalendar := by
    rw [ofRange_eq ⟨by decide, by decide⟩ ⟨by decide, by decide⟩]
    rfl
  refine ⟨rfl, ?_⟩
  rintro ⟨names, hnames⟩
  cases hrange.symm.trans hnames

/-- A range that is listed is empty exactly if its ends are reversed and belong to two days. With
both ends in one day it is that day, in whichever order they come. -/
theorem ofRange_eq_nil_iff (h : n.ofRange (.whole first) (.whole last) = .ok names) :
    (names = [] ↔ last < first ∧ first / 86400000 ≠ last / 86400000) ∧
      (first / 86400000 = last / 86400000 → ∃ name, names = [name] ∧
        n.ofInstant (.whole first) = .ok name ∧ n.ofInstant (.whole last) = .ok name) := by
  obtain ⟨hfirst, hlast, rfl⟩ := ofRange_eq_ok h
  constructor
  · rw [List.map_eq_nil_iff, List.eq_nil_iff_forall_not_mem]
    simp only [mem_days]
    constructor
    · intro hnone
      have hreversed : last / 86400000 < first / 86400000 :=
        Int.not_le.mp fun hle => hnone _ ⟨Int.le_refl _, hle⟩
      exact ⟨by omega, by omega⟩
    · rintro ⟨hreversed, hdays⟩ day ⟨hge, hle⟩
      omega
  · intro hday
    rw [hday] at hfirst ⊢
    refine ⟨n.ofDay (last / 86400000), ?_, ofInstant_eq_ok_iff.mpr ⟨hday ▸ hfirst, hday ▸ rfl⟩,
      ofInstant_eq_ok_iff.mpr ⟨hlast, rfl⟩⟩
    simp [days, List.range_succ]

theorem ofRange_eq_nil_iff_newYear :
    ofRange ⟨"zipkin"⟩ (.whole 0) (.whole (-1)) = .ok [] ∧
      (([] : List String) = [] ↔ (-1 : Int) < 0 ∧ (0 : Int) / 86400000 ≠ -1 / 86400000) :=
  have hrange : ofRange ⟨"zipkin"⟩ (.whole 0) (.whole (-1)) = .ok [] := by
    rw [ofRange_eq ⟨by decide, by decide⟩ ⟨by decide, by decide⟩]
    rfl
  ⟨hrange, (ofRange_eq_nil_iff hrange).1⟩

theorem reversed_not_empty :
    ∃ names, ofRange ⟨"zipkin"⟩ (.whole 1) (.whole 0) = .ok names ∧ ¬ (names = [] ↔ (0 : Int) < 1) :=
  ⟨["zipkin-1970-01-01"],
    by rw [ofRange_eq ⟨by decide, by decide⟩ ⟨by decide, by decide⟩]; rfl, by simp⟩

end SpanStore.Calendar.IndexNaming
