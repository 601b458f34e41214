import SpanStore.Proofs.Calendar.Naming

namespace SpanStore.Calendar.IndexNaming

/-- Names are those of the instants of a range, each once, in the order of the calendar. -/
structure Lists (n : IndexNaming) (first last : Int) (names : List String) : Prop where
  nodup : names.Nodup
  covers : ∀ t, first ≤ t → t ≤ last → ∃ name ∈ names, n.ofInstant (.whole t) = .ok name
  mem_iff : ∀ name, name ∈ names ↔
    ∃ t, first ≤ t ∧ t ≤ last ∧ n.ofInstant (.whole t) = .ok name
  by_time : names.Pairwise fun a b => ∀ t u,
    n.ofInstant (.whole t) = .ok a → n.ofInstant (.whole u) = .ok b → t < u
  by_date : ∃ dates : List Date, names = dates.map n.ofDate ∧ dates.Pairwise Date.Before
  length_eq : (names.length : Int) = last / 86400000 - first / 86400000 + 1

variable {n : IndexNaming} {first last : Int} {names : List String}

def days (first last : Int) : List Int :=
  (List.range (last + 1 - first).toNat).map fun (i : Nat) => first + i

theorem mem_days {day : Int} : day ∈ days first last ↔ first ≤ day ∧ day ≤ last := by
  simp only [days, List.mem_map, List.mem_range]
  constructor
  · rintro ⟨i, hi, rfl⟩
    omega
  · rintro ⟨hfirst, hlast⟩
    exact ⟨(day - first).toNat, by omega, by omega⟩

theorem days_ordered (first last : Int) : (days first last).Pairwise (· < ·) := by
  rw [days, List.pairwise_map]
  exact List.pairwise_lt_range.imp fun hlt => by omega

theorem length_days (h : first ≤ last) : ((days first last).length : Int) = last - first + 1 := by
  rw [days, List.length_map, List.length_range]
  omega

theorem days_of_lt (h : last < first) : days first last = [] :=
  List.eq_nil_iff_forall_not_mem.mpr fun day hday => by
    have := mem_days.mp hday
    omega

theorem days_of_le (h : first ≤ last) : days first last = first :: days (first + 1) last := by
  have hcount : (last + 1 - first).toNat = (last + 1 - (first + 1)).toNat + 1 := by omega
  simp only [days, hcount, List.range_succ_eq_map, List.map_cons, List.map_map, Nat.cast_zero,
    Int.add_zero]
  congr 1
  refine List.map_congr_left fun i _ => ?_
  simp only [Function.comp_apply, Nat.succ_eq_add_one]
  omega

/-- The walk fails exactly if it comes to the last day of the calendar. -/
theorem walk_eq (n : IndexNaming) {day : Int} (hday : day ≤ (lastDay : Int) - epoch)
    (seen : Array String) :
    n.walk last day seen =
      if day ≤ last ∧ (lastDay : Int) - epoch ≤ last then .error .dayBeyondCalendar
      else .ok (seen.toList ++ (days day last).map n.ofDay) := by
  fun_induction walk n last day seen with
  | case1 day seen hle hnext =>
      have hend := nextDay?_eq_none_iff.mp hnext
      rw [if_pos ⟨hle, hend.trans hle⟩]
  | case2 day seen hle next hnext ih =>
      obtain ⟨hlt, rfl⟩ := nextDay?_eq_some_iff.mp hnext
      rw [ih (by omega), days_of_le hle]
      have hcross : day + 1 ≤ last ∧ (lastDay : Int) - epoch ≤ last ↔
          day ≤ last ∧ (lastDay : Int) - epoch ≤ last := by omega
      simp only [hcross, Array.toList_push, List.append_assoc, List.singleton_append,
        List.map_cons]
  | case3 day seen hlt =>
      rw [if_neg fun h => hlt h.1, days_of_lt (Int.not_le.mp hlt), List.map_nil, List.append_nil]

theorem ofRange_eq (h : OnCalendar (first / 86400000)) (h' : OnCalendar (last / 86400000)) :
    n.ofRange (.whole first) (.whole last) =
      if first / 86400000 ≤ last / 86400000 ∧ last / 86400000 = (lastDay : Int) - epoch then
        .error .dayBeyondCalendar
      else .ok ((days (first / 86400000) (last / 86400000)).map n.ofDay) := by
  rw [ofRange, dayOf_whole_iff.mpr ⟨rfl, h⟩, dayOf_whole_iff.mpr ⟨rfl, h'⟩]
  simp only [n.walk_eq h.2, List.nil_append, ← h'.2.ge_iff_eq]

theorem ofRange_eq_ok (h : n.ofRange (.whole first) (.whole last) = .ok names) :
    OnCalendar (first / 86400000) ∧ OnCalendar (last / 86400000) ∧
      names = (days (first / 86400000) (last / 86400000)).map n.ofDay := by
  cases hfirst : dayOf (.whole first) with
  | error f => simp [ofRange, hfirst] at h
  | ok a =>
      cases hlast : dayOf (.whole last) with
      | error f => simp [ofRange, hfirst, hlast] at h
      | ok b =>
          obtain ⟨rfl, ha⟩ := dayOf_whole_iff.mp hfirst
          obtain ⟨rfl, hb⟩ := dayOf_whole_iff.mp hlast
          rw [ofRange_eq ha hb] at h
          split at h
          · cases h
          · exact ⟨ha, hb, (Except.ok.inj h).symm⟩

theorem exists_instant {day : Int} (hle : first ≤ last) (hfirst : first / 86400000 ≤ day)
    (hlast : day ≤ last / 86400000) : ∃ t, first ≤ t ∧ t ≤ last ∧ t / 86400000 = day :=
  ⟨max first (day * 86400000), by omega, by omega, by omega⟩

section Days

variable {span : List Int} (hcalendar : ∀ day ∈ span, OnCalendar day)
  (hordered : span.Pairwise (· < ·))

include hcalendar hordered

theorem nodup_map_ofDay (n : IndexNaming) : (span.map n.ofDay).Nodup := by
  rw [List.Nodup, List.pairwise_map]
  refine List.Pairwise.imp_of_mem (fun {a b} ha hb hlt => ?_) hordered
  intro heq
  have hday := ofDay_injective (hcalendar a ha) (hcalendar b hb) heq
  omega

theorem map_ofDay_by_time (n : IndexNaming) : (span.map n.ofDay).Pairwise fun a b => ∀ t u,
    n.ofInstant (.whole t) = .ok a → n.ofInstant (.whole u) = .ok b → t < u := by
  rw [List.pairwise_map]
  refine List.Pairwise.imp_of_mem (fun {a b} ha hb hlt => ?_) hordered
  intro t u ht hu
  obtain ⟨htday, hat⟩ := ofInstant_eq_ok_iff.mp ht
  obtain ⟨huday, hbu⟩ := ofInstant_eq_ok_iff.mp hu
  have hday := ofDay_injective (hcalendar a ha) htday hat
  have hday' := ofDay_injective (hcalendar b hb) huday hbu
  omega

theorem map_dateOf_by_date : (span.map dateOf).Pairwise Date.Before := by
  rw [List.pairwise_map]
  exact List.Pairwise.imp_of_mem (fun {a _} ha _ hlt => dateOf_before (hcalendar a ha) hlt) hordered

end Days

theorem ofRange_lists (hle : first ≤ last)
    (h : n.ofRange (.whole first) (.whole last) = .ok names) : n.Lists first last names := by
  obtain ⟨hfirst, hlast, rfl⟩ := ofRange_eq_ok h
  have hordered := days_ordered (first / 86400000) (last / 86400000)
  have hcalendar : ∀ day ∈ days (first / 86400000) (last / 86400000), OnCalendar day := by
    intro day hday
    obtain ⟨hge, hle⟩ := mem_days.mp hday
    exact ⟨hfirst.1.trans hge, hle.trans hlast.2⟩
  have hcovers : ∀ t, first ≤ t → t ≤ last →
      n.ofDay (t / 86400000) ∈ (days (first / 86400000) (last / 86400000)).map n.ofDay ∧
        n.ofInstant (.whole t) = .ok (n.ofDay (t / 86400000)) := by
    intro t ht ht'
    have hmem : t / 86400000 ∈ days (first / 86400000) (last / 86400000) :=
      mem_days.mpr ⟨Int.ediv_le_ediv (by decide) ht, Int.ediv_le_ediv (by decide) ht'⟩
    exact ⟨List.mem_map_of_mem hmem, ofInstant_eq_ok_iff.mpr ⟨hcalendar _ hmem, rfl⟩⟩
  refine ⟨nodup_map_ofDay hcalendar hordered n, ?_, ?_, map_ofDay_by_time hcalendar hordered n,
    ?_, ?_⟩
  · intro t ht ht'
    exact ⟨_, hcovers t ht ht'⟩
  · intro name
    constructor
    · intro hname
      obtain ⟨day, hday, rfl⟩ := List.mem_map.mp hname
      obtain ⟨hge, hle'⟩ := mem_days.mp hday
      obtain ⟨t, ht, ht', rfl⟩ := exists_instant hle hge hle'
      exact ⟨t, ht, ht', (hcovers t ht ht').2⟩
    · rintro ⟨t, ht, ht', hname⟩
      obtain ⟨hmem, hok⟩ := hcovers t ht ht'
      rwa [Except.ok.inj (hname.symm.trans hok)]
  · exact ⟨(days (first / 86400000) (last / 86400000)).map dateOf,
      by rw [List.map_map]; rfl, map_dateOf_by_date hcalendar hordered⟩
  · rw [List.length_map, length_days (Int.ediv_le_ediv (by decide) hle)]

theorem ofRange_lists_leapDay :
    ofRange ⟨"traces"⟩ (.whole 1456703999000) (.whole 1456876800000) =
        .ok ["traces-2016-02-28", "traces-2016-02-29", "traces-2016-03-01", "traces-2016-03-02"] ∧
      Lists ⟨"traces"⟩ 1456703999000 1456876800000
        ["traces-2016-02-28", "traces-2016-02-29", "traces-2016-03-01", "traces-2016-03-02"] :=
  have hrange : ofRange ⟨"traces"⟩ (.whole 1456703999000) (.whole 1456876800000) =
      .ok ["traces-2016-02-28", "traces-2016-02-29", "traces-2016-03-01", "traces-2016-03-02"] := by
    rw [ofRange_eq ⟨by decide, by decide⟩ ⟨by decide, by decide⟩]
    rfl
  ⟨hrange, ofRange_lists (by decide) hrange⟩

end SpanStore.Calendar.IndexNaming
