import SpanStore.Proofs.Json.Growth

namespace SpanStore.Json

open Reader

def IsBlank (bs : List UInt8) : Prop := ∀ b ∈ bs, Text.isBlankByte b = true

/-- From the first byte on that is not blank, all bytes are inside of brackets. -/
def Nested (bs : List UInt8) : Prop :=
  ∀ cs, cs <+: bs → ¬ IsBlank cs → 0 < (Nesting.ofBytes cs).depth

/-- An object of which the bytes are the text has its last brace right after these. -/
structure ClosedAfter (bs before : List UInt8) : Prop where
  brace : before ++ [0x7D] <+: bs
  nested : Nested before
  closed : (Nesting.ofBytes (before ++ [0x7D])).depth = 0

instance (bs : List UInt8) : Decidable (IsBlank bs) := inferInstanceAs (Decidable (∀ b ∈ bs, _))

instance (bs : List UInt8) : Decidable (Nested bs) :=
  decidable_of_iff (∀ cs ∈ bs.inits, ¬ IsBlank cs → 0 < (Nesting.ofBytes cs).depth) <| by
    simp only [Nested, List.mem_inits]

instance (bs before : List UInt8) : Decidable (ClosedAfter bs before) :=
  decidable_of_iff (before ++ [0x7D] <+: bs ∧ Nested before ∧
      (Nesting.ofBytes (before ++ [0x7D])).depth = 0)
    ⟨fun h => ⟨h.1, h.2.1, h.2.2⟩, fun h => ⟨h.brace, h.nested, h.closed⟩⟩

theorem IsBlank.of_prefix {bs cs : List UInt8} (h : IsBlank bs) (hcs : cs <+: bs) : IsBlank cs :=
  fun b hb => h b (hcs.subset hb)

theorem nested_of_blank {bs : List UInt8} (h : IsBlank bs) : Nested bs :=
  fun _ hcs hblank => absurd (h.of_prefix hcs) hblank

theorem Nested.concat {bs : List UInt8} {b : UInt8} (h : Nested bs)
    (hdepth : 0 < (Nesting.ofBytes (bs ++ [b])).depth) : Nested (bs ++ [b]) := by
  intro cs hcs hblank
  rcases List.prefix_concat_iff.mp hcs with rfl | hcs
  · exact hdepth
  · exact h cs hcs hblank

structure Located (bs : List UInt8) (r : Reader) : Prop where
  fresh : r.progress.frames = [] → r.progress.root = none →
    r.progress = .start ∧ (r.lexeme = .none → IsBlank bs)
  nested : r.progress.frames ≠ [] → Nested bs
  ended : ∀ members, r.progress.root = some (.object members) → ∃ before, ClosedAfter bs before

namespace Located

theorem start : Located [] Reader.start :=
  ⟨fun _ _ => ⟨rfl, fun _ => nofun⟩, fun h => absurd rfl h, nofun⟩

variable {bs : List UInt8} {b : UInt8} {r : Reader} {p : Progress} {frames : List Open}

theorem of_open (hframes : frames ≠ []) (h : Nested bs) (e : Expect) :
    Located bs (between ⟨frames, e, none⟩) :=
  ⟨fun hnone => absurd hnone hframes, fun _ => h, nofun⟩

theorem of_deliver {v : Value} (hnested : frames ≠ [] → Nested bs)
    (hended : frames = [] → ∀ members, v = .object members → ∃ before, ClosedAfter bs before) :
    Located bs (between (.deliver v frames)) := by
  cases frames with
  | nil =>
      refine ⟨nofun, fun hframes => absurd rfl hframes, ?_⟩
      intro members hroot
      exact hended rfl members (Option.some.inj hroot)
  | cons o frames =>
      rw [deliver_cons]
      exact of_open (List.cons_ne_nil _ _) (hnested (List.cons_ne_nil _ _)) _

theorem of_over (h : Located bs r) (hover : r.Over p) : Located bs (between p) := by
  cases hover with
  | idle hlexeme =>
      refine ⟨?_, h.nested, h.ended⟩
      intro hframes hroot
      obtain ⟨hstart, hblank⟩ := h.fresh hframes hroot
      exact ⟨hstart, fun _ => hblank hlexeme⟩
  | @number n v p hn hvalue haccept =>
      cases Progress.step_of_accept haccept with
      | scalar v =>
          refine of_deliver h.nested ?_
          rintro - members rfl
          exact (NumberState.isNumber_of_value hvalue).elim

theorem within {l : Lexeme} (h : Located bs r)
    (hl : l = .none → Text.isBlankByte b = true ∧ r.lexeme = .none)
    (hdepth : (Nesting.ofBytes (bs ++ [b])).depth = r.progress.frames.length) :
    Located (bs ++ [b]) ⟨r.progress, l, none⟩ := by
  refine ⟨?_, ?_, ?_⟩
  · intro hframes hroot
    obtain ⟨hstart, hblank⟩ := h.fresh hframes hroot
    refine ⟨hstart, ?_⟩
    intro hlexeme c hc
    obtain ⟨hb, hr⟩ := hl hlexeme
    rcases List.mem_append.mp hc with hc | hc
    · exact hblank hr c hc
    · rw [List.mem_singleton.mp hc]
      exact hb
  · intro hframes
    refine (h.nested hframes).concat ?_
    rw [hdepth]
    exact List.length_pos_iff.mpr hframes
  · intro members hroot
    obtain ⟨before, hbrace, hnested, hclosed⟩ := h.ended members hroot
    exact ⟨before, hbrace.trans (List.prefix_append _ _), hnested, hclosed⟩

theorem nested_before (h : Located bs r) (hroot : r.progress.root = none)
    (hlexeme : r.lexeme = .none) : Nested bs := by
  by_cases hframes : r.progress.frames = []
  · exact nested_of_blank ((h.fresh hframes hroot).2 hlexeme)
  · exact h.nested hframes

theorem nested_concat_deliver {v : Value} (hnested : Nested bs)
    (hdepth : (Nesting.ofBytes (bs ++ [b])).depth = (Progress.deliver v frames).frames.length)
    (hframes : frames ≠ []) : Nested (bs ++ [b]) := by
  refine hnested.concat ?_
  rw [hdepth, Progress.length_deliver_frames]
  exact List.length_pos_iff.mpr hframes

theorem expecting (h : Located bs r) (hstart : r.progress ≠ .start)
    (hroot : r.progress.root = none)
    (hdepth : (Nesting.ofBytes (bs ++ [b])).depth = r.progress.frames.length) (e : Expect) :
    Located (bs ++ [b]) (between { r.progress with expect := e }) := by
  refine ⟨?_, ?_, ?_⟩
  · intro hframes hnone
    exact absurd (h.fresh hframes hnone).1 hstart
  · intro hframes
    refine (h.nested hframes).concat ?_
    rw [hdepth]
    exact List.length_pos_iff.mpr hframes
  · intro members hended
    exact nomatch hroot.symm.trans hended

theorem accept {t : Token} (h : Located bs r) (hr : r.progress.Settled)
    (haccept : r.progress.accept t = .ok p)
    (hdepth : (Nesting.ofBytes (bs ++ [b])).depth = p.frames.length)
    (hopen : t = .openList ∨ t = .openObject → r.lexeme = .none)
    (hclose : t = .closeObject → b = 0x7D) (hscalar : ∀ members, t ≠ .scalar (.object members)) :
    Located (bs ++ [b]) (between p) := by
  have hroot := hr.root_none (Progress.expect_of_accept haccept)
  have hconcat : Nested bs → 0 < p.frames.length → Nested (bs ++ [b]) := by
    intro hnested hlength
    rw [← hdepth] at hlength
    exact hnested.concat hlength
  have hstart : t = .comma ∨ t = .colon → r.progress ≠ .start := by
    rintro (rfl | rfl) hprogress
    all_goals
      rw [hprogress] at haccept
      cases haccept
  cases Progress.step_of_accept haccept with
  | openList =>
      have hnested := hconcat (h.nested_before hroot (hopen (.inl rfl))) (Nat.zero_lt_succ _)
      exact of_open (List.cons_ne_nil _ _) hnested _
  | openObject =>
      have hnested := hconcat (h.nested_before hroot (hopen (.inr rfl))) (Nat.zero_lt_succ _)
      exact of_open (List.cons_ne_nil _ _) hnested _
  | scalar v =>
      refine of_deliver (fun hframes => nested_concat_deliver (h.nested hframes) hdepth hframes) ?_
      rintro - members rfl
      exact absurd rfl (hscalar members)
  | text s =>
      exact of_deliver (fun hframes => nested_concat_deliver (h.nested hframes) hdepth hframes)
        fun _ => nofun
  | closeList hlist =>
      have hnested := h.nested (by simp [hlist])
      exact of_deliver (nested_concat_deliver hnested hdepth) fun _ => nofun
  | closeObject hobject =>
      have hnested := h.nested (by simp [hobject])
      refine of_deliver (nested_concat_deliver hnested hdepth) ?_
      rintro rfl members -
      obtain rfl := hclose rfl
      exact ⟨bs, List.prefix_rfl, hnested, hdepth⟩
  | name hobject s =>
      have hnested := hconcat (h.nested (by simp [hobject])) (Nat.zero_lt_succ _)
      exact of_open (List.cons_ne_nil _ _) hnested _
  | comma e => exact h.expecting (hstart (.inl rfl)) hroot hdepth e
  | colon e => exact h.expecting (hstart (.inr rfl)) hroot hdepth e

theorem fed {s : Reader} (h : Located bs r) (hr : r.Sound) (hfed : Fed b r s)
    (hdepth : (Nesting.ofBytes (bs ++ [b])).depth = s.progress.frames.length) :
    Located (bs ++ [b]) s := by
  cases hfed with
  | begins hover hbegins =>
      have hbetween := h.of_over hover
      cases hbegins with
      | blank hopens =>
          cases hopens with
          | blank hblank => exact hbetween.within (fun _ => ⟨hblank, rfl⟩) hdepth
      | whole hopens haccept =>
          refine hbetween.accept (hover.settled hr) haccept hdepth (fun _ => rfl) ?_ ?_
          · rintro rfl
            cases hopens
            rfl
          · rintro members rfl
            cases hopens
      | partly hopens =>
          refine hbetween.within ?_ hdepth
          rintro rfl
          cases hopens
  | continues hcontinues =>
      refine h.within ?_ hdepth
      rintro rfl
      generalize r.lexeme = l at hcontinues
      cases hcontinues
  | closes hcloses haccept =>
      generalize hlexeme : r.lexeme = l at hcloses
      refine h.accept hr.settled haccept hdepth ?_ ?_ ?_
      · rintro (rfl | rfl) <;> cases hcloses
      · rintro rfl
        cases hcloses
      · rintro members rfl
        cases hcloses with
        | word v => exact (hr.word _ _ hlexeme).plain members rfl

end Located

namespace Reader

theorem parse?_eq_some {bs : List UInt8} {v : Value} (h : parse? bs = some v) :
    (ofBytes bs).flaw = none ∧ (ofBytes bs).progress.root = some v := by
  simp only [parse?] at h
  split at h
  · rename_i hflaw
    refine ⟨?_, h⟩
    cases hstopped : (ofBytes bs).flaw with
    | none => rfl
    | some f => simp [flaw?, hstopped] at hflaw
  · cases h

theorem located_after {bs : List UInt8} (h : (after bs).flaw = none) :
    Located bs (after bs) := by
  refine after_induction (motive := fun bs => Located bs (after bs)) .start ?_ h
  intro bs b hflaw hfed hlocated
  have hsound := sound_after hflaw
  have hnesting := hfed.nesting hsound
  rw [nesting_after hflaw, ← Nesting.ofBytes_concat] at hnesting
  exact hlocated.fed hsound hfed (congrArg Nesting.depth hnesting.symm)

end Reader

theorem exists_closedAfter {bs : List UInt8} {members : List (String × Value)}
    (h : parse? bs = some (.object members)) : ∃ before, ClosedAfter bs before := by
  have hend : ofBytes bs = after (bs ++ [0x20]) := by rw [ofBytes_eq_feed, after_concat]
  obtain ⟨hflaw, hroot⟩ := parse?_eq_some h
  rw [hend] at hflaw hroot
  obtain ⟨before, hbrace, hnested, hclosed⟩ := (located_after hflaw).ended members hroot
  refine ⟨before, ?_, hnested, hclosed⟩
  -- The blank at the end of the reading is no brace.
  rcases List.prefix_concat_iff.mp hbrace with hlast | hbefore
  · cases (List.append_inj' hlast rfl).2
  · exact hbefore

end SpanStore.Json
