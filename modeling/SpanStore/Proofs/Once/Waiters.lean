import SpanStore.Proofs.Once.History

namespace SpanStore.Once.Schedule

variable {ι α : Type} [DecidableEq ι]

namespace Run

variable {es before middle after : List (Event ι α)} {s : Scene ι α} {i j : ι} {seen : Nat}
variable {f : Fault}

theorem unseen (h : Run es s)
    (hes : es = before ++ .look i seen :: middle ++ .finish j (.error f) :: after)
    (hf : f.kind.isConfiguration = false) {n : Nat} (hi : s.point i = .waiting n) :
    s.handle.failures ≠ n := by
  have hrecorded := h.recorded
  obtain ⟨p, q, hlook, hn⟩ := hrecorded.looked i n hi
  have hes' : es = before ++ .look i seen :: (middle ++ .finish j (.error f) :: after) := by
    simpa using hes
  obtain ⟨rfl, -, -⟩ := h.look_unique hlook hes'
  rw [hrecorded.failures_eq, hes', hn]
  simp only [List.countP_append, List.countP_cons, Event.counts, hf]
  simp

theorem outcome_of_failure (h : Run es s)
    (hes : es = before ++ .look i seen :: middle ++ .finish j (.error f) :: after)
    (hf : f.kind.isConfiguration = false) {n : Nat} (hi : s.point i = .waiting n) :
    ∃ r, s.handle.turn n = .outcome r := by
  have hrecorded := h.recorded
  have hpositive : s.handle.failures ≠ 0 := by
    rw [hrecorded.failures_eq, hes, List.countP_append, List.countP_cons]
    simp [Event.counts, hf]
  refine turn_unseen ?_ (h.unseen hes hf hi)
  cases hlast : s.handle.lastFault with
  | none => exact .inr ((hrecorded.ready_of_none hlast).resolve_left hpositive)
  | some g => exact .inl (Option.some_ne_none g)

theorem no_start_of_failure (h : Run es s)
    (hes : es = before ++ .look i seen :: middle ++ .finish j (.error f) :: after)
    (hf : f.kind.isConfiguration = false) : .start i ∉ after := by
  intro hstart
  obtain ⟨earlier, later, rfl⟩ := List.append_of_mem hstart
  obtain ⟨u, v, hrun, hstep⟩ := h.cut
    (before ++ .look i seen :: middle ++ .finish j (.error f) :: earlier) (.start i) later
    (by simpa using hes)
  cases hstep with
  | start hpoint hfree hturn =>
      obtain ⟨r, hr⟩ := hrun.outcome_of_failure rfl hf hpoint
      rw [hr] at hturn
      cases hturn

/-- A fault that is not kept is given only to callers that waited through its computation. -/
theorem answered_of_failure (h : Run es s) (hes : es = before ++ .answer i (.error f) :: after)
    (hf : f.kind.isConfiguration = false) :
    ∃ earlier seen middle, before = earlier ++ .look i seen :: middle ∧ FailedLast middle f := by
  obtain ⟨u, v, hrun, hstep⟩ := h.cut before _ after hes
  have hrecorded := hrun.recorded
  cases hstep with
  | @answer _ n _ hpoint hfree hturn =>
      have hkept : u.handle.phase ≠ .failed f := by
        intro hp
        rw [hrecorded.kept_of_failed f hp] at hf
        cases hf
      obtain ⟨hlast, hne⟩ := turn_passing hturn hkept
      obtain ⟨earlier, middle, rfl, hn⟩ := hrecorded.looked i n hpoint
      refine ⟨earlier, n, middle, rfl, (hrecorded.failed_last f hlast).after ?_⟩
      rw [hrecorded.failures_eq, hn, List.countP_append, List.countP_cons] at hne
      simpa [Event.counts] using hne

theorem start_unique (h : Run es s) (hes : es = before ++ .start i :: after) :
    .start i ∉ before ++ after := by
  intro hstart
  rcases List.mem_append.mp hstart with hbefore | hafter
  · obtain ⟨earlier, later, rfl⟩ := List.append_of_mem hbefore
    have hsplit : es = earlier ++ .start i :: (later ++ .start i :: after) := by simpa using hes
    exact h.not_mem_after hsplit (by simp)
  · exact h.not_mem_after hes hafter

end Run

/-- What callers that wait through failures can rely on, whatever their number and order: the
events so far and the scene that they led to. -/
structure SharesFailures (es : List (Event ι α)) (s : Scene ι α) : Prop where
  no_start : ∀ before i seen middle j f after,
    es = before ++ .look i seen :: middle ++ .finish j (.error f) :: after →
    f.kind.isConfiguration = false → .start i ∉ after
  outcome : ∀ before i seen middle j f after n,
    es = before ++ .look i seen :: middle ++ .finish j (.error f) :: after →
    f.kind.isConfiguration = false → s.point i = .waiting n → ∃ r, s.handle.turn n = .outcome r
  fault_met : ∀ before i f after, es = before ++ .answer i (.error f) :: after →
    f.kind.isConfiguration = false →
    ∃ earlier seen middle j later,
      before = earlier ++ .look i seen :: middle ++ .finish j (.error f) :: later ∧
      ∀ k r, .finish k r ∉ later
  starts_once : ∀ before i after, es = before ++ .start i :: after → .start i ∉ before ++ after

theorem run_sharesFailures {es : List (Event ι α)} {s : Scene ι α} (h : Run es s) :
    SharesFailures es s where
  no_start := fun _ _ _ _ _ _ _ hes hf => h.no_start_of_failure hes hf
  outcome := fun _ _ _ _ _ _ _ _ hes hf hi => h.outcome_of_failure hes hf hi
  fault_met := by
    intro before i f after hes hf
    obtain ⟨earlier, seen, middle, rfl, between, j, later, rfl, hlater⟩ :=
      h.answered_of_failure hes hf
    exact ⟨earlier, seen, between, j, later, by simp, hlater⟩
  starts_once := fun _ _ _ hes => h.start_unique hes

/-- Caller 0 fails while caller 1 waits. Caller 2 comes later, is faster, and fails in its turn, so
the fault that caller 1 is given is that of caller 2. -/
def relay : List (Event Nat Nat) :=
  [.enter 0, .look 0 0, .enter 1, .look 1 0, .start 0, .finish 0 (.error (.noAddress "a")),
    .enter 2, .look 2 1, .start 2, .finish 2 (.error (.noAddress "b")),
    .answer 1 (.error (.noAddress "b"))]

theorem relay_sharesFailures : ∃ s, Run relay s ∧ SharesFailures relay s := by
  have hrun : ∃ s, Run relay s :=
    ⟨_, Run.nil
      |>.snoc (.enter (i := 0) rfl rfl)
      |>.snoc (.look (i := 0) rfl)
      |>.snoc (.enter (i := 1) rfl rfl)
      |>.snoc (.look (i := 1) rfl)
      |>.snoc (.start (i := 0) rfl rfl rfl)
      |>.snoc (.finish (i := 0) rfl (.error (.noAddress "a")))
      |>.snoc (.enter (i := 2) rfl rfl)
      |>.snoc (.look (i := 2) rfl)
      |>.snoc (.start (i := 2) rfl rfl rfl)
      |>.snoc (.finish (i := 2) rfl (.error (.noAddress "b")))
      |>.snoc (.answer (i := 1) (r := .error (.noAddress "b")) rfl rfl rfl)⟩
  obtain ⟨s, hs⟩ := hrun
  exact ⟨s, hs, run_sharesFailures hs⟩

end SpanStore.Once.Schedule
