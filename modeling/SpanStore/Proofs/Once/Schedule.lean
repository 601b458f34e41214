import Mathlib.Logic.Function.Basic
import SpanStore.Proofs.Once.Handle

/-!
Callers of one handle in any number and any order. Each makes one call. On entry it looks for the
value without the lock; if there is none it reads the number of failures, waits for the lock, and
under the lock either finds an outcome or computes.
-/
namespace SpanStore.Once.Schedule

/-- Where a caller stands in its call. -/
inductive Point (α : Type) where
  | outside
  | entered
  | waiting (seen : Nat)
  | computing
  | done (r : Except Fault α)

/-- The handle, the caller that holds its lock, and where all callers stand. -/
structure Scene (ι α : Type) where
  handle : Once α
  holder : Option ι
  point : ι → Point α

/-- What happens between two scenes. A caller that is given a value on entry, or an outcome under
the lock, does not compute. -/
inductive Event (ι α : Type) where
  | give (i : ι) (a : α)
  | enter (i : ι)
  | look (i : ι) (seen : Nat)
  | answer (i : ι) (r : Except Fault α)
  | start (i : ι)
  | finish (i : ι) (r : Except Fault α)

variable {ι α : Type}

def Scene.initial : Scene ι α := ⟨.fresh, none, fun _ => .outside⟩

/-- What holds between any two steps: the lock is held by the caller that computes, the handle is
being checked exactly while the lock is held, and a value that was given is there to stay. -/
structure Coherent (s : Scene ι α) : Prop where
  holder_iff : ∀ i, s.holder = some i ↔ s.point i = .computing
  checking_iff : s.handle.phase = .checking ↔ ∃ i, s.holder = some i
  ready_of_given : ∀ i a, s.point i = .done (.ok a) → s.handle.phase = .ready a

theorem coherent_initial : Coherent (Scene.initial : Scene ι α) where
  holder_iff := by simp [Scene.initial]
  checking_iff := by simp [Scene.initial, fresh]
  ready_of_given := by simp [Scene.initial]

variable [DecidableEq ι]

def Scene.move (s : Scene ι α) (i : ι) (p : Point α) : Scene ι α :=
  { s with point := Function.update s.point i p }

/-- One step of one caller. The lock is taken and given back within `answer`; a caller that
computes holds it from `start` to `finish`, and the outcome of a computation is any. -/
inductive Step : Scene ι α → Event ι α → Scene ι α → Prop where
  | give {s : Scene ι α} {i : ι} {a : α} (hpoint : s.point i = .outside)
      (hentry : s.handle.enter = .done a) : Step s (.give i a) (s.move i (.done (.ok a)))
  | enter {s : Scene ι α} {i : ι} {seen : Nat} (hpoint : s.point i = .outside)
      (hentry : s.handle.enter = .waiting seen) : Step s (.enter i) (s.move i .entered)
  | look {s : Scene ι α} {i : ι} (hpoint : s.point i = .entered) :
      Step s (.look i s.handle.failures) (s.move i (.waiting s.handle.failures))
  | answer {s : Scene ι α} {i : ι} {seen : Nat} {r : Except Fault α}
      (hpoint : s.point i = .waiting seen) (hfree : s.holder = none)
      (hturn : s.handle.turn seen = .outcome r) : Step s (.answer i r) (s.move i (.done r))
  | start {s : Scene ι α} {i : ι} {seen : Nat} (hpoint : s.point i = .waiting seen)
      (hfree : s.holder = none) (hturn : s.handle.turn seen = .compute) :
      Step s (.start i) ⟨s.handle.check, some i, Function.update s.point i .computing⟩
  | finish {s : Scene ι α} {i : ι} (hpoint : s.point i = .computing) (r : Except Fault α) :
      Step s (.finish i r) ⟨s.handle.settle r, none, Function.update s.point i (.done r)⟩

/-- The events so far, in order, and the scene that they lead to. -/
inductive Run : List (Event ι α) → Scene ι α → Prop where
  | nil : Run [] .initial
  | snoc {es : List (Event ι α)} {e : Event ι α} {s t : Scene ι α} (hrun : Run es s)
      (hstep : Step s e t) : Run (es ++ [e]) t

theorem Coherent.move {s : Scene ι α} (h : Coherent s) {i : ι} {p : Point α}
    (hbefore : s.point i ≠ .computing) (hafter : p ≠ .computing)
    (hgiven : ∀ a, p = .done (.ok a) → s.handle.phase = .ready a) : Coherent (s.move i p) where
  holder_iff := by
    intro j
    by_cases hj : j = i
    · subst j
      simp [Scene.move, hafter, h.holder_iff, hbefore]
    · simpa [Scene.move, hj] using h.holder_iff j
  checking_iff := h.checking_iff
  ready_of_given := by
    intro j a hja
    by_cases hj : j = i
    · subst j
      exact hgiven a (by simpa [Scene.move] using hja)
    · exact h.ready_of_given j a (by simpa [Scene.move, hj] using hja)

theorem Coherent.start {s : Scene ι α} (h : Coherent s) {i : ι} {seen : Nat}
    (hfree : s.holder = none) (hturn : s.handle.turn seen = .compute) :
    Coherent ⟨s.handle.check, some i, Function.update s.point i .computing⟩ where
  holder_iff := by
    intro j
    by_cases hj : j = i
    · subst j
      simp
    · have hidle : s.point j ≠ .computing := by
        rw [Ne, ← h.holder_iff, hfree]
        simp
      simp [hj, hidle, Ne.symm hj]
  checking_iff := by simp
  ready_of_given := by
    intro j a hja
    by_cases hj : j = i
    · subst j
      simp at hja
    · have hready := h.ready_of_given j a (by simpa [hj] using hja)
      simp [turn_ready hready] at hturn

theorem Coherent.finish {s : Scene ι α} (h : Coherent s) {i : ι} (hi : s.point i = .computing)
    (r : Except Fault α) :
    Coherent ⟨s.handle.settle r, none, Function.update s.point i (.done r)⟩ where
  holder_iff := by
    intro j
    by_cases hj : j = i
    · subst j
      simp
    · have hother : s.point j ≠ .computing := by
        intro hcomputing
        have hheld := (h.holder_iff i).mpr hi
        rw [(h.holder_iff j).mpr hcomputing] at hheld
        exact hj (Option.some.inj hheld)
      simp [hj, hother]
  checking_iff := by
    cases r with
    | ok a => simp
    | error f =>
        cases hf : f.kind.isConfiguration with
        | true => simp [settle_kept_phase _ hf]
        | false => simp [settle_passing_phase _ hf]
  ready_of_given := by
    intro j a hja
    by_cases hj : j = i
    · subst j
      have hr : r = .ok a := by simpa using hja
      simp [hr]
    · have hready := h.ready_of_given j a (by simpa [hj] using hja)
      have hchecking := h.checking_iff.mpr ⟨i, (h.holder_iff i).mpr hi⟩
      simp [hready] at hchecking

theorem Coherent.step {s t : Scene ι α} {e : Event ι α} (h : Coherent s) (hstep : Step s e t) :
    Coherent t := by
  cases hstep with
  | give hpoint hentry =>
      refine h.move (by simp [hpoint]) (by simp) ?_
      intro a ha
      cases ha
      exact enter_eq_done_iff.mp hentry
  | enter hpoint hentry => exact h.move (by simp [hpoint]) (by simp) (by simp)
  | look hpoint => exact h.move (by simp [hpoint]) (by simp) (by simp)
  | answer hpoint hfree hturn =>
      refine h.move (by simp [hpoint]) (by simp) ?_
      intro a ha
      cases ha
      exact turn_eq_ok_iff.mp hturn
  | start hpoint hfree hturn => exact h.start hfree hturn
  | finish hpoint r => exact h.finish hpoint r

theorem Run.coherent {es : List (Event ι α)} {s : Scene ι α} (h : Run es s) : Coherent s := by
  induction h with
  | nil => exact coherent_initial
  | snoc hrun hstep ih => exact ih.step hstep

/-- A property that one event brings about and that every step keeps holds from that event on,
and each later event is a step from a scene with it. -/
theorem Run.after {es : List (Event ι α)} {s : Scene ι α} (h : Run es s)
    {P : Scene ι α → Prop} {e : Event ι α}
    (hbegin : ∀ s t, Coherent s → Step s e t → P t)
    (hkeep : ∀ s d t, Coherent s → P s → Step s d t → P t) :
    ∀ before after, es = before ++ e :: after →
      P s ∧ ∀ d ∈ after, ∃ u v, Coherent u ∧ P u ∧ Step u d v := by
  induction h with
  | nil => simp
  | @snoc es d s t hrun hstep ih =>
      intro before after hes
      rcases List.eq_nil_or_concat after with rfl | ⟨after, last, rfl⟩
      · obtain ⟨rfl, hlast⟩ := List.append_inj' hes rfl
        obtain rfl : d = e := by simpa using hlast
        exact ⟨hbegin s t hrun.coherent hstep, by simp⟩
      · simp only [List.concat_eq_append] at hes ⊢
        rw [← List.cons_append, ← List.append_assoc] at hes
        obtain ⟨hinit, hlast⟩ := List.append_inj' hes rfl
        obtain rfl : d = last := by simpa using hlast
        obtain ⟨hs, hafter⟩ := ih before after hinit
        refine ⟨hkeep s d t hrun.coherent hs hstep, ?_⟩
        intro c hc
        rcases List.mem_append.mp hc with hc | hc
        · exact hafter c hc
        · obtain rfl : c = d := by simpa using hc
          exact ⟨s, t, hrun.coherent, hs, hstep⟩

@[simp] theorem Scene.move_point (s : Scene ι α) (i : ι) (p : Point α) :
    (s.move i p).point i = p := by
  simp [Scene.move]

@[simp] theorem Scene.move_move (s : Scene ι α) (i : ι) (p q : Point α) :
    (s.move i p).move i q = s.move i q := by
  simp [Scene.move]

theorem Run.queue {es : List (Event ι α)} {s : Scene ι α} (h : Run es s) {i : ι}
    (hi : s.point i = .outside) (hr : ∀ a, s.handle.phase ≠ .ready a) :
    Run (es ++ [.enter i] ++ [.look i s.handle.failures])
      (s.move i (.waiting s.handle.failures)) := by
  have hentry : s.handle.enter = .waiting s.handle.failures := by
    unfold Once.enter
    split
    · rename_i a hp
      exact absurd hp (hr a)
    · rfl
  have hlook := Step.look (s := s.move i .entered) (i := i) (by simp)
  rw [Scene.move_move] at hlook
  exact (h.snoc (.enter hi hentry)).snoc hlook

/-- A call that nobody interrupts does what `get` does. -/
theorem Run.get {σ : Type} {es : List (Event ι α)} {s : Scene ι α} (h : Run es s)
    (compute : Computation σ α) (x : σ) {i : ι} (hi : s.point i = .outside)
    (hfree : s.holder = none) :
    ∃ ds t, Run (es ++ ds) t ∧ t.holder = none ∧ t.handle = (s.handle.get compute x).2.1 ∧
      t.point i = .done (s.handle.get compute x).1 := by
  by_cases hready : ∃ a, s.handle.phase = .ready a
  · obtain ⟨a, hp⟩ := hready
    rw [get_ready compute hp]
    exact ⟨[.give i a], s.move i (.done (.ok a)), h.snoc (.give hi (enter_eq_done_iff.mpr hp)),
      hfree, rfl, by simp⟩
  · have hr : ∀ a, s.handle.phase ≠ .ready a := fun a hp => hready ⟨a, hp⟩
    have hqueue := h.queue hi hr
    by_cases hfailed : ∃ f, s.handle.phase = .failed f
    · obtain ⟨f, hp⟩ := hfailed
      rw [get_failed compute hp]
      have hanswer := hqueue.snoc
        (.answer (Scene.move_point ..) hfree (turn_failed hp _))
      rw [List.append_assoc, List.append_assoc] at hanswer
      exact ⟨_, _, hanswer, hfree, rfl, by simp⟩
    · have hf : ∀ f, s.handle.phase ≠ .failed f := fun f hp => hfailed ⟨f, hp⟩
      rw [get_compute compute hr hf]
      have hstart := hqueue.snoc (.start (Scene.move_point ..) hfree (turn_failures hr hf))
      have hfinish := hstart.snoc (.finish (i := i) (by simp) (compute s.handle.check x).1)
      rw [List.append_assoc, List.append_assoc, List.append_assoc] at hfinish
      exact ⟨_, _, hfinish, rfl, rfl, by simp⟩

end SpanStore.Once.Schedule
