import SpanStore.Once

namespace SpanStore.Once

variable {σ α : Type}

@[simp] theorem check_phase (h : Once α) : h.check.phase = .checking := rfl

@[simp] theorem settle_ok_phase (h : Once α) (a : α) :
    (h.settle (.ok a)).phase = .ready a := rfl

theorem settle_kept_phase (h : Once α) {f : Fault} (hf : f.kind.isConfiguration = true) :
    (h.settle (.error f)).phase = .failed f := by
  simp [settle, hf]

theorem settle_passing_phase (h : Once α) {f : Fault} (hf : f.kind.isConfiguration = false) :
    (h.settle (.error f)).phase = .unchecked := by
  simp [settle, hf]

theorem settle_ready_iff (h : Once α) {r : Except Fault α} {a : α} :
    (h.settle r).phase = .ready a ↔ r = .ok a := by
  cases r with
  | ok b => simp [settle]
  | error f => cases hf : f.kind.isConfiguration <;> simp [settle, hf]

theorem settle_failed {h : Once α} {r : Except Fault α} {f : Fault}
    (hp : (h.settle r).phase = .failed f) : f.kind.isConfiguration = true := by
  cases r with
  | ok a => cases hp
  | error g =>
      cases hg : g.kind.isConfiguration with
      | true =>
          rw [settle_kept_phase h hg] at hp
          injection hp with hp
          rw [← hp, hg]
      | false =>
          rw [settle_passing_phase h hg] at hp
          cases hp

@[simp] theorem settle_error_lastFault (h : Once α) (f : Fault) :
    (h.settle (.error f)).lastFault = some f := by
  simp only [settle]
  split <;> rfl

theorem settle_error_failures (h : Once α) (f : Fault) :
    (h.settle (.error f)).failures =
      h.failures + if f.kind.isConfiguration = true then 0 else 1 := by
  simp only [settle]
  split <;> rfl

theorem enter_eq_done_iff {h : Once α} {a : α} : h.enter = .done a ↔ h.phase = .ready a := by
  unfold enter
  cases h.phase <;> simp

theorem turn_ready {h : Once α} {a : α} (hp : h.phase = .ready a) (seen : Nat) :
    h.turn seen = .outcome (.ok a) := by
  simp [turn, hp]

theorem turn_failed {h : Once α} {f : Fault} (hp : h.phase = .failed f) (seen : Nat) :
    h.turn seen = .outcome (.error f) := by
  simp [turn, hp]

theorem turn_eq_ok_iff {h : Once α} {seen : Nat} {a : α} :
    h.turn seen = .outcome (.ok a) ↔ h.phase = .ready a := by
  constructor
  · intro ht
    unfold turn at ht
    split at ht
    · rename_i b hp
      simpa [hp] using ht
    · simp at ht
    · split at ht <;> simp at ht
    · simp at ht
  · intro hp
    exact turn_ready hp seen

theorem turn_compute_phase {h : Once α} {seen : Nat} (ht : h.turn seen = .compute) :
    h.phase = .unchecked ∨ h.phase = .checking := by
  cases hp : h.phase with
  | unchecked => exact .inl rfl
  | checking => exact .inr rfl
  | ready a => simp [turn_ready hp] at ht
  | failed f => simp [turn_failed hp] at ht

/-- A fault that is not kept is found only with a failure that the caller has not seen. -/
theorem turn_passing {h : Once α} {seen : Nat} {f : Fault}
    (ht : h.turn seen = .outcome (.error f)) (hkept : h.phase ≠ .failed f) :
    h.lastFault = some f ∧ h.failures ≠ seen := by
  unfold turn at ht
  split at ht
  · simp at ht
  · rename_i g hp
    rw [hp] at hkept
    exact absurd (by simpa using ht) hkept
  · rename_i g hlast _ _
    split at ht
    · cases ht
    · rename_i hne
      obtain rfl : g = f := by simpa using ht
      exact ⟨hlast, hne⟩
  · cases ht

theorem turn_unseen {h : Once α} {seen : Nat} (hlast : h.lastFault ≠ none ∨ ∃ a, h.phase = .ready a)
    (hne : h.failures ≠ seen) : ∃ r, h.turn seen = .outcome r := by
  unfold turn
  split
  · exact ⟨_, rfl⟩
  · exact ⟨_, rfl⟩
  · exact ⟨_, if_neg hne⟩
  · rename_i hnone hready _
    rcases hlast with hlast | ⟨a, ha⟩
    · exact absurd hnone hlast
    · exact absurd ha (hready a)

theorem get_ready (compute : Computation σ α) {h : Once α} {a : α} (hp : h.phase = .ready a)
    (s : σ) : h.get compute s = (.ok a, h, s) := by
  simp [get, enter, hp, complete]

theorem get_failed (compute : Computation σ α) {h : Once α} {f : Fault}
    (hp : h.phase = .failed f) (s : σ) : h.get compute s = (.error f, h, s) := by
  simp [get, enter, hp, complete, take, turn]

theorem turn_failures {h : Once α} (hr : ∀ a, h.phase ≠ .ready a) (hf : ∀ f, h.phase ≠ .failed f) :
    h.turn h.failures = .compute := by
  unfold turn
  split
  · rename_i a hp
    exact absurd hp (hr a)
  · rename_i f hp
    exact absurd hp (hf f)
  · simp
  · rfl

theorem get_compute (compute : Computation σ α) {h : Once α} (hr : ∀ a, h.phase ≠ .ready a)
    (hf : ∀ f, h.phase ≠ .failed f) (s : σ) :
    h.get compute s =
      ((compute h.check s).1, h.check.settle (compute h.check s).1, (compute h.check s).2) := by
  have henter : h.enter = .waiting h.failures := by
    unfold enter
    split
    · rename_i a hp
      exact absurd hp (hr a)
    · rfl
  simp [get, henter, complete, take, turn_failures hr hf]

theorem get_kept {compute : Computation σ α} {P : σ → Prop}
    (hcompute : ∀ h s, P s → P (compute h s).2) (h : Once α) {s : σ} (hs : P s) :
    P (h.get compute s).2.2 := by
  unfold get
  cases h.enter with
  | done a => exact hs
  | waiting seen =>
      simp only [complete, take]
      cases h.turn seen with
      | outcome r => exact hs
      | compute => exact hcompute h.check s hs

end SpanStore.Once
