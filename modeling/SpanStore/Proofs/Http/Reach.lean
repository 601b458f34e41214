import SpanStore.Proofs.Http.Exchange

namespace SpanStore

namespace Once

variable {σ α : Type}

theorem get_ok_phase {compute : Computation σ α} {h : Once α} {s : σ} {a : α}
    (hget : (h.get compute s).1 = .ok a) : (h.get compute s).2.1.phase = .ready a := by
  unfold get at hget ⊢
  cases henter : h.enter with
  | done b =>
      rw [henter] at hget
      obtain rfl : b = a := by simpa [complete] using hget
      exact enter_eq_done_iff.mp henter
  | waiting seen =>
      rw [henter] at hget
      simp only [complete, take] at hget ⊢
      cases hturn : h.turn seen with
      | outcome r =>
          simp only [hturn] at hget
          rw [hget] at hturn
          exact turn_eq_ok_iff.mp hturn
      | compute =>
          simp only [hturn] at hget
          exact (settle_ready_iff _).mpr hget

def KeepsOnlyConfiguration (h : Once α) : Prop :=
  ∀ f, h.phase = .failed f → f.kind.isConfiguration = true

theorem KeepsOnlyConfiguration.get {h : Once α} (hkept : h.KeepsOnlyConfiguration)
    (compute : Computation σ α) (s : σ) : (h.get compute s).2.1.KeepsOnlyConfiguration := by
  by_cases hready : ∃ a, h.phase = .ready a
  · obtain ⟨a, ha⟩ := hready
    rw [get_ready compute ha]
    exact hkept
  · by_cases hfailed : ∃ f, h.phase = .failed f
    · obtain ⟨f, hf⟩ := hfailed
      rw [get_failed compute hf]
      exact hkept
    · rw [get_compute compute (not_exists.mp hready) (not_exists.mp hfailed)]
      exact fun f => settle_failed

theorem get_error_cases {compute : Computation σ α} {h : Once α} {s : σ} {f : Fault}
    (hget : (h.get compute s).1 = .error f) :
    h.phase = .failed f ∨
      (∀ a, h.phase ≠ .ready a) ∧ (∀ g, h.phase ≠ .failed g) ∧
        (compute h.check s).1 = .error f := by
  by_cases hready : ∃ a, h.phase = .ready a
  · obtain ⟨a, ha⟩ := hready
    rw [get_ready compute ha] at hget
    cases hget
  · by_cases hfailed : ∃ g, h.phase = .failed g
    · obtain ⟨g, hg⟩ := hfailed
      rw [get_failed compute hg] at hget
      exact .inl (hg.trans (congrArg Phase.failed (Except.error.inj hget)))
    · rw [get_compute compute (not_exists.mp hready) (not_exists.mp hfailed)] at hget
      exact .inr ⟨not_exists.mp hready, not_exists.mp hfailed, hget⟩

theorem get_comm {compute : Computation σ α} {g : σ → σ}
    (hcompute : ∀ h s, compute h (g s) = ((compute h s).1, g (compute h s).2)) (h : Once α)
    (s : σ) :
    h.get compute (g s) =
      ((h.get compute s).1, (h.get compute s).2.1, g (h.get compute s).2.2) := by
  unfold get
  cases h.enter with
  | done a => rfl
  | waiting seen =>
      simp only [complete, take]
      cases h.turn seen with
      | outcome r => rfl
      | compute => simp [hcompute]

end Once

namespace Http.Link

variable (t : Target) (l : Link)

def withWire (w : Wire) : Link :=
  { l with surroundings := { l.surroundings with wire := w } }

@[simp] theorem withWire_wire (w : Wire) : (l.withWire w).wire = w := rfl

theorem reach_withWire (w : Wire) :
    (l.withWire w).reach t = ((l.reach t).1, (l.reach t).2.withWire w) := by
  have hconnect (h : Once Client) (s : Surroundings) :
      connect t h { s with wire := w } =
        ((connect t h s).1, { (connect t h s).2 with wire := w }) := by
    simp only [connect]
    split <;> rfl
  have hget := Once.get_comm (g := fun s : Surroundings => { s with wire := w }) hconnect l.client
    l.surroundings
  simp only [reach, withWire, hget]

variable {t l}

theorem reach_reach {c : Client} (h : (l.reach t).1 = .ok c) :
    (l.reach t).2.reach t = (.ok c, (l.reach t).2) := by
  have hphase : (l.reach t).2.client.phase = .ready c := Once.get_ok_phase h
  rw [reach, Once.get_ready _ hphase]

theorem connect_eq_error {h : Once Client} {s : Surroundings} {f : Fault}
    (hconnect : (connect t h s).1 = .error f) :
    (Net.Pool.connect t.urls t.config t.lookup s.directory).1 = .error f := by
  unfold connect at hconnect
  cases hpool : Net.Pool.connect t.urls t.config t.lookup s.directory with
  | mk result directory =>
      rw [hpool] at hconnect
      cases result with
      | error g =>
          obtain rfl := Except.error.inj hconnect
          rfl
      | ok pool => cases hconnect

theorem reach_error_cases {f : Fault} (h : (l.reach t).1 = .error f) :
    l.client.phase = .failed f ∨
      l.client.isReady = false ∧ (∀ g, l.client.phase ≠ .failed g) ∧
        (Net.Pool.connect t.urls t.config t.lookup l.surroundings.directory).1 = .error f := by
  have hget : (l.client.get (connect t) l.surroundings).1 = .error f := h
  rcases Once.get_error_cases hget with hfailed | ⟨hready, hfailed, hconnect⟩
  · exact .inl hfailed
  · refine .inr ⟨?_, hfailed, connect_eq_error hconnect⟩
    cases hphase : l.client.phase with
    | ready c => exact absurd hphase (hready c)
    | _ => rw [Once.isReady, hphase]

section Call

variable {α : Type}

theorem call_of_reach_error (f : Client → Call α) {e : Fault} (h : (l.reach t).1 = .error e) :
    l.call t f = (.error e, (l.reach t).2) := by
  rw [call]
  cases hreach : l.reach t with
  | mk r k =>
      rw [hreach] at h
      obtain rfl : r = .error e := h
      rfl

theorem call_of_reach_ok (f : Client → Call α) {c : Client} (h : (l.reach t).1 = .ok c) :
    l.call t f = ((f c l.wire).1, (l.reach t).2.withWire (f c l.wire).2) := by
  have hwire := l.reach_wire t
  rw [call]
  cases hreach : l.reach t with
  | mk r k =>
      rw [hreach] at h hwire
      obtain rfl : r = .ok c := h
      rw [← hwire]
      rfl

theorem call_again (f : Client → Call α) {c : Client} (h : (l.reach t).1 = .ok c) (w : Wire) :
    ((l.reach t).2.withWire w).call t f = ((f c w).1, (l.reach t).2.withWire (f c w).2) := by
  have hreach : ((l.reach t).2.withWire w).reach t = (.ok c, (l.reach t).2.withWire w) := by
    rw [reach_withWire, reach_reach h]
  rw [call_of_reach_ok f (by rw [hreach]), hreach]
  rfl

end Call

end Http.Link

end SpanStore
