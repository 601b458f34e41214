import SpanStore.Proofs.Once.Schedule

namespace SpanStore.Once.Schedule

variable {ι α : Type}

inductive Moves : Phase α → Phase α → Prop where
  | begin : Moves .unchecked .checking
  | succeed (a : α) : Moves .checking (.ready a)
  | keep (f : Fault) : Moves .checking (.failed f)
  | retry : Moves .checking .unchecked

theorem Coherent.free_of_ready {s : Scene ι α} (h : Coherent s) {a : α}
    (hp : s.handle.phase = .ready a) (i : ι) : s.point i ≠ .computing := by
  intro hi
  have hchecking := h.checking_iff.mpr ⟨i, (h.holder_iff i).mpr hi⟩
  simp [hp] at hchecking

theorem Coherent.free_of_failed {s : Scene ι α} (h : Coherent s) {f : Fault}
    (hp : s.handle.phase = .failed f) (i : ι) : s.point i ≠ .computing := by
  intro hi
  have hchecking := h.checking_iff.mpr ⟨i, (h.holder_iff i).mpr hi⟩
  simp [hp] at hchecking

variable [DecidableEq ι]

theorem Coherent.step_of_ready {s t : Scene ι α} {e : Event ι α} (h : Coherent s) {a : α}
    (hp : s.handle.phase = .ready a) (hstep : Step s e t) :
    t.handle.phase = .ready a ∧ (∀ i, e ≠ .start i) ∧ ∀ i r, e ≠ .finish i r := by
  cases hstep with
  | give hpoint hentry => exact ⟨hp, by simp, by simp⟩
  | enter hpoint hentry => exact ⟨hp, by simp, by simp⟩
  | look hpoint => exact ⟨hp, by simp, by simp⟩
  | answer hpoint hfree hturn => exact ⟨hp, by simp, by simp⟩
  | start hpoint hfree hturn => simp [turn_ready hp] at hturn
  | finish hpoint r => exact absurd hpoint (h.free_of_ready hp _)

theorem Coherent.step_of_failed {s t : Scene ι α} {e : Event ι α} (h : Coherent s) {f : Fault}
    (hp : s.handle.phase = .failed f) (hstep : Step s e t) :
    t.handle.phase = .failed f ∧ (∀ i, e ≠ .start i) ∧ ∀ i r, e = .answer i r → r = .error f := by
  cases hstep with
  | give hpoint hentry => exact ⟨hp, by simp, by simp⟩
  | enter hpoint hentry => exact ⟨hp, by simp, by simp⟩
  | look hpoint => exact ⟨hp, by simp, by simp⟩
  | @answer i seen r hpoint hfree hturn =>
      refine ⟨hp, by simp, ?_⟩
      rintro j q ⟨rfl, rfl⟩
      simpa [turn_failed hp, eq_comm] using hturn
  | start hpoint hfree hturn => simp [turn_failed hp] at hturn
  | finish hpoint r => exact absurd hpoint (h.free_of_failed hp _)

/-- A step changes the phase only when a computation starts or ends. -/
theorem Coherent.moves {s t : Scene ι α} {e : Event ι α} (h : Coherent s) (hstep : Step s e t) :
    t.handle.phase = s.handle.phase ∨ Moves s.handle.phase t.handle.phase := by
  cases hstep with
  | give hpoint hentry => exact .inl rfl
  | enter hpoint hentry => exact .inl rfl
  | look hpoint => exact .inl rfl
  | answer hpoint hfree hturn => exact .inl rfl
  | start hpoint hfree hturn =>
      refine .inr ?_
      rcases turn_compute_phase hturn with hp | hp
      · rw [hp]
        exact .begin
      · obtain ⟨i, hi⟩ := h.checking_iff.mp hp
        simp [hfree] at hi
  | @finish i hpoint r =>
      refine .inr ?_
      rw [h.checking_iff.mpr ⟨i, (h.holder_iff i).mpr hpoint⟩]
      cases r with
      | ok a => exact .succeed a
      | error f =>
          cases hf : f.kind.isConfiguration with
          | true =>
              simp only [settle_kept_phase _ hf]
              exact .keep f
          | false =>
              simp only [settle_passing_phase _ hf]
              exact .retry

theorem Run.finished_of_ready {es : List (Event ι α)} {s : Scene ι α} (h : Run es s) {a : α}
    (hp : s.handle.phase = .ready a) : ∃ i, .finish i (.ok a) ∈ es := by
  induction h with
  | nil => simp [Scene.initial, fresh] at hp
  | @snoc es e s t hrun hstep ih =>
      have hbefore : s.handle.phase = .ready a → ∃ i, .finish i (.ok a) ∈ es ++ [e] := by
        intro hs
        obtain ⟨i, hi⟩ := ih hs
        exact ⟨i, List.mem_append_left _ hi⟩
      cases hstep with
      | give hpoint hentry => exact hbefore hp
      | enter hpoint hentry => exact hbefore hp
      | look hpoint => exact hbefore hp
      | answer hpoint hfree hturn => exact hbefore hp
      | start hpoint hfree hturn => simp at hp
      | @finish i hpoint r =>
          cases r with
          | ok b =>
              obtain rfl : b = a := by simpa using hp
              exact ⟨i, by simp⟩
          | error f =>
              cases hf : f.kind.isConfiguration with
              | true => simp [settle_kept_phase _ hf] at hp
              | false => simp [settle_passing_phase _ hf] at hp

theorem Run.after_value {es before after : List (Event ι α)} {s : Scene ι α} (h : Run es s)
    {i : ι} {a : α} (hes : es = before ++ .finish i (.ok a) :: after) :
    s.handle.phase = .ready a ∧ (∀ j, .start j ∉ after) ∧ ∀ j r, .finish j r ∉ after := by
  have hlater := h.after (P := fun s => s.handle.phase = .ready a) (e := .finish i (.ok a))
    (fun s t _ hstep => by cases hstep; rfl)
    (fun s d t hs hp hstep => (hs.step_of_ready hp hstep).1) before after hes
  refine ⟨hlater.1, ?_, ?_⟩
  · intro j hj
    obtain ⟨u, v, hu, hp, hstep⟩ := hlater.2 _ hj
    exact (hu.step_of_ready hp hstep).2.1 j rfl
  · intro j r hj
    obtain ⟨u, v, hu, hp, hstep⟩ := hlater.2 _ hj
    exact (hu.step_of_ready hp hstep).2.2 j r rfl

theorem Run.after_kept_fault {es before after : List (Event ι α)} {s : Scene ι α} (h : Run es s)
    {i : ι} {f : Fault} (hf : f.kind.isConfiguration = true)
    (hes : es = before ++ .finish i (.error f) :: after) :
    (∀ j, .start j ∉ after) ∧ ∀ j r, .answer j r ∈ after → r = .error f := by
  have hlater := h.after (P := fun s => s.handle.phase = .failed f) (e := .finish i (.error f))
    (fun s t _ hstep => by cases hstep; exact settle_kept_phase _ hf)
    (fun s d t hs hp hstep => (hs.step_of_failed hp hstep).1) before after hes
  constructor
  · intro j hj
    obtain ⟨u, v, hu, hp, hstep⟩ := hlater.2 _ hj
    exact (hu.step_of_failed hp hstep).2.1 j rfl
  · intro j r hj
    obtain ⟨u, v, hu, hp, hstep⟩ := hlater.2 _ hj
    exact (hu.step_of_failed hp hstep).2.2 j r rfl

/-- What any number of callers can rely on, whatever their order: the events so far and the
scene that they led to. -/
structure OnceOnly (es : List (Event ι α)) (s : Scene ι α) : Prop where
  one_computes : ∀ i j, s.point i = .computing → s.point j = .computing → i = j
  checking_iff : s.handle.phase = .checking ↔ ∃ i, s.point i = .computing
  moves : ∀ e t, Step s e t →
    t.handle.phase = s.handle.phase ∨ Moves s.handle.phase t.handle.phase
  value_last : ∀ before i a after, es = before ++ .finish i (.ok a) :: after →
    (∀ j, .start j ∉ after) ∧ ∀ j b, .finish j (.ok b) ∉ after
  given_computed : ∀ j b, s.point j = .done (.ok b) → ∃ i, .finish i (.ok b) ∈ es
  given_same : ∀ i a j b, .finish i (.ok a) ∈ es → s.point j = .done (.ok b) → b = a
  fault_last : ∀ before i f after, es = before ++ .finish i (.error f) :: after →
    f.kind.isConfiguration = true →
    (∀ j, .start j ∉ after) ∧ ∀ j r, .answer j r ∈ after → r = .error f

theorem run_onceOnly {es : List (Event ι α)} {s : Scene ι α} (h : Run es s) : OnceOnly es s where
  one_computes := by
    intro i j hi hj
    have hheld := (h.coherent.holder_iff i).mpr hi
    rw [(h.coherent.holder_iff j).mpr hj] at hheld
    exact (Option.some.inj hheld).symm
  checking_iff := by simp only [h.coherent.checking_iff, h.coherent.holder_iff]
  moves := fun e t hstep => h.coherent.moves hstep
  value_last := by
    intro before i a after hes
    have hlater := h.after_value hes
    exact ⟨hlater.2.1, fun j b => hlater.2.2 j (.ok b)⟩
  given_computed := fun j b hj => h.finished_of_ready (h.coherent.ready_of_given j b hj)
  given_same := by
    intro i a j b hi hj
    obtain ⟨before, after, hes⟩ := List.append_of_mem hi
    have hready := (h.after_value hes).1
    rw [h.coherent.ready_of_given j b hj] at hready
    exact Phase.ready.inj hready
  fault_last := fun before i f after hes hf => h.after_kept_fault hf hes

def crowd : List (Event Nat Nat) :=
  [.enter 0, .look 0 0, .start 0, .enter 1, .look 1 0, .finish 0 (.error (.noAddress "es")),
    .answer 1 (.error (.noAddress "es")), .enter 2, .look 2 1, .start 2, .finish 2 (.ok 7),
    .give 3 7]

theorem crowd_onceOnly : ∃ s, Run crowd s ∧ OnceOnly crowd s := by
  have hrun : ∃ s, Run crowd s :=
    ⟨_, Run.nil
      |>.snoc (.enter (i := 0) rfl rfl)
      |>.snoc (.look (i := 0) rfl)
      |>.snoc (.start (i := 0) rfl rfl rfl)
      |>.snoc (.enter (i := 1) rfl rfl)
      |>.snoc (.look (i := 1) rfl)
      |>.snoc (.finish (i := 0) rfl (.error (.noAddress "es")))
      |>.snoc (.answer (i := 1) (r := .error (.noAddress "es")) rfl rfl rfl)
      |>.snoc (.enter (i := 2) rfl rfl)
      |>.snoc (.look (i := 2) rfl)
      |>.snoc (.start (i := 2) rfl rfl rfl)
      |>.snoc (.finish (i := 2) rfl (.ok 7))
      |>.snoc (.give (i := 3) (a := 7) rfl rfl)⟩
  obtain ⟨s, hs⟩ := hrun
  exact ⟨s, hs, run_onceOnly hs⟩

end SpanStore.Once.Schedule
