import SpanStore.Proofs.Once.Schedule

namespace SpanStore.Once.Schedule

variable {ι α : Type}

namespace Event

def caller : Event ι α → ι
  | give i _ => i
  | enter i => i
  | look i _ => i
  | answer i _ => i
  | start i => i
  | finish i _ => i

def rank : Event ι α → Nat
  | enter _ => 1
  | look _ _ => 2
  | start _ => 3
  | give _ _ => 4
  | answer _ _ => 4
  | finish _ _ => 4

def counts : Event ι α → Bool
  | finish _ (.error f) => !f.kind.isConfiguration
  | _ => false

end Event

def Point.rank : Point α → Nat
  | outside => 0
  | entered => 1
  | waiting _ => 2
  | computing => 3
  | done _ => 4

/-- A computation ended with the fault, and none ended after it. -/
def FailedLast (es : List (Event ι α)) (f : Fault) : Prop :=
  ∃ before j after, es = before ++ .finish j (.error f) :: after ∧ ∀ k r, .finish k r ∉ after

theorem FailedLast.concat {es : List (Event ι α)} {f : Fault} (h : FailedLast es f)
    {e : Event ι α} (he : ∀ k r, e ≠ .finish k r) : FailedLast (es ++ [e]) f := by
  obtain ⟨before, j, after, rfl, hafter⟩ := h
  refine ⟨before, j, after ++ [e], by simp, ?_⟩
  intro k r hr
  rcases List.mem_append.mp hr with hr | hr
  · exact hafter k r hr
  · exact he k r (List.mem_singleton.mp hr).symm

theorem FailedLast.after {before after : List (Event ι α)} {e : Event ι α} {f : Fault}
    (h : FailedLast (before ++ e :: after) f) (hcounted : after.countP Event.counts ≠ 0) :
    FailedLast after f := by
  obtain ⟨before', j, after', hes, hlast⟩ := h
  have hnone : after'.countP Event.counts = 0 := by
    rw [List.countP_eq_zero]
    rintro (_ | _ | _ | _ | _ | ⟨k, r⟩) hmem
    case finish => exact absurd hmem (hlast k r)
    all_goals exact Bool.false_ne_true
  rcases List.append_eq_append_iff.mp hes with ⟨between, -, hrest⟩ | ⟨between, -, hrest⟩
  · rcases List.cons_eq_append_iff.mp hrest with ⟨-, hrest⟩ | ⟨between, -, rfl⟩
    · injection hrest with _ hrest
      rw [hrest] at hnone
      exact absurd hnone hcounted
    · exact ⟨between, j, after', rfl, hlast⟩
  · rcases List.cons_eq_append_iff.mp hrest with ⟨-, hrest⟩ | ⟨between, -, rfl⟩
    · injection hrest with _ hrest
      rw [← hrest] at hnone
      exact absurd hnone hcounted
    · rw [List.countP_append, List.countP_cons] at hnone
      omega

variable [DecidableEq ι]

namespace Step

variable {s t : Scene ι α} {e : Event ι α}

theorem rank (h : Step s e t) :
    (s.point e.caller).rank < e.rank ∧ (t.point e.caller).rank = e.rank := by
  cases h with
  | give hpoint hentry => simp [Event.caller, Event.rank, Point.rank, hpoint]
  | enter hpoint hentry => simp [Event.caller, Event.rank, Point.rank, hpoint]
  | look hpoint => simp [Event.caller, Event.rank, Point.rank, hpoint]
  | answer hpoint hfree hturn => simp [Event.caller, Event.rank, Point.rank, hpoint]
  | start hpoint hfree hturn => simp [Event.caller, Event.rank, Point.rank, hpoint]
  | finish hpoint r => simp [Event.caller, Event.rank, Point.rank, hpoint]

theorem point_of_ne (h : Step s e t) {i : ι} (hi : i ≠ e.caller) : t.point i = s.point i := by
  cases h <;> exact Function.update_of_ne hi _ _

theorem rank_le (h : Step s e t) (i : ι) : (s.point i).rank ≤ (t.point i).rank := by
  rcases eq_or_ne i e.caller with rfl | hi
  · rw [h.rank.2]
    exact Nat.le_of_lt h.rank.1
  · exact Nat.le_of_eq (congrArg Point.rank (h.point_of_ne hi).symm)

theorem waiting (h : Step s e t) {i : ι} {seen : Nat} (hi : t.point i = .waiting seen) :
    s.point i = .waiting seen ∨ e = .look i s.handle.failures ∧ seen = s.handle.failures := by
  rcases eq_or_ne i e.caller with rfl | hne
  · cases h with
    | look hpoint => exact .inr ⟨rfl, by simpa [Event.caller, eq_comm] using hi⟩
    | _ => simp [Event.caller] at hi
  · exact .inl ((h.point_of_ne hne).symm.trans hi)

end Step

namespace Run

variable {es before after : List (Event ι α)} {s : Scene ι α} {e : Event ι α}

theorem cut (h : Run es s) :
    ∀ before e after, es = before ++ e :: after → ∃ u v, Run before u ∧ Step u e v := by
  induction h with
  | nil => simp
  | @snoc es d s t hrun hstep ih =>
      intro before e after hes
      rcases List.eq_nil_or_concat after with rfl | ⟨after, last, rfl⟩
      · obtain ⟨rfl, hlast⟩ := List.append_inj' hes rfl
        obtain rfl : d = e := by simpa using hlast
        exact ⟨s, t, hrun, hstep⟩
      · rw [List.concat_eq_append, ← List.cons_append, ← List.append_assoc] at hes
        exact ih before e after (List.append_inj' hes rfl).1

theorem forward (h : Run es s) (hes : es = before ++ e :: after) {d : Event ι α} (hd : d ∈ after)
    (hcaller : d.caller = e.caller) : e.rank < d.rank := by
  have hlater := h.after (P := fun u => e.rank ≤ (u.point e.caller).rank) (e := e)
    (fun u v _ hstep => Nat.le_of_eq hstep.rank.2.symm)
    (fun u c v _ hu hstep => Nat.le_trans hu (hstep.rank_le _)) before after hes
  obtain ⟨u, v, -, hu, hstep⟩ := hlater.2 d hd
  have hrank := hstep.rank.1
  rw [hcaller] at hrank
  exact Nat.lt_of_le_of_lt hu hrank

theorem not_mem_after (h : Run es s) (hes : es = before ++ e :: after) : e ∉ after :=
  fun he => Nat.lt_irrefl _ (h.forward hes he rfl)

theorem look_unique (h : Run es s) {i : ι} {m n : Nat} {p q p' q' : List (Event ι α)}
    (hes : es = p ++ .look i m :: q) (hes' : es = p' ++ .look i n :: q') :
    p = p' ∧ m = n ∧ q = q' := by
  have hnone {k l : Nat} {before between after : List (Event ι α)}
      (hsplit : es = before ++ .look i k :: (between ++ .look i l :: after)) : False :=
    Nat.lt_irrefl _ (h.forward hsplit (d := .look i l) (by simp) rfl)
  rcases List.append_eq_append_iff.mp (hes.symm.trans hes') with
    ⟨between, rfl, hrest⟩ | ⟨between, rfl, hrest⟩
  · rcases List.cons_eq_append_iff.mp hrest with ⟨rfl, hrest⟩ | ⟨between, rfl, rfl⟩
    · injection hrest with hlook hq
      injection hlook with _ hmn
      exact ⟨by simp, hmn, hq⟩
    · exact (hnone hes).elim
  · rcases List.cons_eq_append_iff.mp hrest with ⟨rfl, hrest⟩ | ⟨between, rfl, rfl⟩
    · injection hrest with hlook hq
      injection hlook with _ hmn
      exact ⟨by simp, hmn.symm, hq.symm⟩
    · exact (hnone hes').elim

end Run

/-- The handle as the events so far account for it, and the callers that wait for its lock. -/
structure Recorded (es : List (Event ι α)) (s : Scene ι α) : Prop where
  failures_eq : s.handle.failures = es.countP Event.counts
  failed_last : ∀ f, s.handle.lastFault = some f → FailedLast es f
  ready_of_none : s.handle.lastFault = none →
    s.handle.failures = 0 ∨ ∃ a, s.handle.phase = .ready a
  kept_of_failed : ∀ f, s.handle.phase = .failed f → f.kind.isConfiguration = true
  looked : ∀ i seen, s.point i = .waiting seen →
    ∃ before after, es = before ++ .look i seen :: after ∧ seen = before.countP Event.counts

namespace Recorded

variable {es : List (Event ι α)} {s t : Scene ι α} {e : Event ι α}

theorem looked_step (h : Recorded es s) (hstep : Step s e t) (i : ι) (seen : Nat)
    (hi : t.point i = .waiting seen) :
    ∃ before after, es ++ [e] = before ++ .look i seen :: after ∧
      seen = before.countP Event.counts := by
  rcases hstep.waiting hi with hi | ⟨rfl, rfl⟩
  · obtain ⟨before, after, rfl, hseen⟩ := h.looked i seen hi
    exact ⟨before, after ++ [e], by simp, hseen⟩
  · exact ⟨es, [], rfl, h.failures_eq⟩

theorem step_of_handle (h : Recorded es s) (hstep : Step s e t) (hhandle : t.handle = s.handle)
    (hcounts : e.counts = false) (he : ∀ k r, e ≠ .finish k r) : Recorded (es ++ [e]) t where
  failures_eq := by simp [hhandle, h.failures_eq, hcounts]
  failed_last := by
    rw [hhandle]
    exact fun f hf => (h.failed_last f hf).concat he
  ready_of_none := by
    rw [hhandle]
    exact h.ready_of_none
  kept_of_failed := by
    rw [hhandle]
    exact h.kept_of_failed
  looked := h.looked_step hstep

theorem step (h : Recorded es s) (hstep : Step s e t) : Recorded (es ++ [e]) t := by
  have hlooked := h.looked_step hstep
  cases hstep with
  | give hpoint hentry => exact h.step_of_handle (.give hpoint hentry) rfl rfl nofun
  | enter hpoint hentry => exact h.step_of_handle (.enter hpoint hentry) rfl rfl nofun
  | look hpoint => exact h.step_of_handle (.look hpoint) rfl rfl nofun
  | answer hpoint hfree hturn =>
      exact h.step_of_handle (.answer hpoint hfree hturn) rfl rfl nofun
  | start hpoint hfree hturn =>
      refine ⟨?_, fun f hf => (h.failed_last f hf).concat nofun, ?_, ?_, hlooked⟩
      · simpa [check, Event.counts] using h.failures_eq
      · intro hnone
        rcases h.ready_of_none hnone with hzero | ⟨a, ha⟩
        · exact .inl hzero
        · rw [turn_ready ha] at hturn
          cases hturn
      · intro f hf
        cases hf
  | @finish i hpoint r =>
      cases r with
      | ok a =>
          refine ⟨?_, ?_, fun _ => .inr ⟨a, rfl⟩, ?_, hlooked⟩
          · simpa [settle, Event.counts] using h.failures_eq
          · intro f hf
            cases hf
          · intro f hf
            cases hf
      | error f =>
          refine ⟨?_, ?_, ?_, fun g hg => settle_failed hg, hlooked⟩
          · rw [settle_error_failures, h.failures_eq, List.countP_append]
            cases hf : f.kind.isConfiguration <;> simp [Event.counts, hf]
          · intro g hg
            obtain rfl : f = g := by simpa using hg
            exact ⟨es, i, [], rfl, fun _ _ => List.not_mem_nil⟩
          · simp

end Recorded

theorem Run.recorded {es : List (Event ι α)} {s : Scene ι α} (h : Run es s) : Recorded es s := by
  induction h with
  | nil => exact ⟨rfl, nofun, fun _ => .inl rfl, nofun, nofun⟩
  | snoc hrun hstep ih => exact ih.step hstep

end SpanStore.Once.Schedule
