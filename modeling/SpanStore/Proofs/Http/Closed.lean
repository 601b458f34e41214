import SpanStore.Proofs.Http.Reach

namespace SpanStore.Http

namespace Wire

variable {v w : Wire} {β γ : Type}

theorem close_of_isClosed (h : w.isClosed = true) : w.close = w := if_pos h

theorem isClosed_eq_false_iff : w.isClosed = false ↔ w.closings = 0 := by
  simp [isClosed]

theorem close_of_isOpen (h : w.isClosed = false) : w.close = { w with closings := 1 } := by
  rw [Wire.close, if_neg (by simp [h]), isClosed_eq_false_iff.mp h]

@[simp] theorem isClosed_close (w : Wire) : w.close.isClosed = true := by
  cases h : w.isClosed with
  | true => rwa [close_of_isClosed h]
  | false =>
      rw [close_of_isOpen h]
      rfl

theorem Sends.closings_le {es : List Exchange} (h : Sends w es v) (hw : w.closings ≤ 1) :
    v.closings ≤ 1 := by
  induction h with
  | refl => exact hw
  | exchange _ s ih => exact ih
  | @close es v _ ih =>
      cases hclosed : v.isClosed with
      | true => rwa [close_of_isClosed hclosed]
      | false => simp [close_of_isOpen hclosed]

theorem closings_close (hw : w.closings ≤ 1) : w.close.closings = 1 := by
  cases h : w.isClosed with
  | true =>
      have hne : w.closings ≠ 0 := by simpa [isClosed] using h
      rw [close_of_isClosed h]
      omega
  | false => rw [close_of_isOpen h]

/-- It exchanges and closes, and leaves a closed wire as it is. -/
def Abides (f : Wire → β × Wire) : Prop :=
  ∀ w, (∃ es, Sends w es (f w).2) ∧ (w.isClosed = true → (f w).2 = w)

namespace Abides

theorem of_pure (b : β) : Abides fun w => (b, w) := fun _ => ⟨⟨[], .refl⟩, fun _ => rfl⟩

theorem close (b : β) : Abides fun w => (b, w.close) := fun _ =>
  ⟨⟨[], Sends.refl.close⟩, close_of_isClosed⟩

theorem congr {f : Wire → β × Wire} {g : Wire → γ × Wire} (h : Abides f)
    (hwire : ∀ w, (g w).2 = (f w).2) : Abides g := by
  intro w
  rw [hwire]
  exact h w

end Abides

end Wire

theorem Call.Within.mono {α : Type} {P Q : Sent → Prop} {call : Call α} (h : Within P call)
    (hPQ : ∀ s, P s → Q s) : Within Q call := by
  intro w
  obtain ⟨es, hsends, hes⟩ := h w
  exact ⟨es, hsends, fun e he => hPQ _ (hes e he)⟩

/-- A conversion of answers that may itself exchange and close. Closing waits for all that was
submitted, so the conversion of a submitted call closes nothing; what is shown for one that does is
shown for more than there is. -/
structure Conversion (α : Type) where
  convert : List UInt8 → Call α
  within : ∀ body, (convert body).Within fun _ => True

namespace Client

variable {κ α : Type} (c : Client) (r : Request) {convert : List UInt8 → Call α}

theorem execute_abides (hconvert : ∀ body, (convert body).Within fun _ => True) :
    Wire.Abides (c.execute r convert) := by
  intro w
  constructor
  · obtain ⟨es, hsends, -⟩ :=
      Call.Within.execute (P := fun _ => True) (c := c) (r := r) trivial hconvert w
    exact ⟨es, hsends⟩
  · intro hclosed
    rw [c.execute_closed r convert hclosed]

theorem submit_abides (hconvert : ∀ body, (convert body).Within fun _ => True)
    (callback : Option (Callback κ α)) (k : κ) : Wire.Abides (c.submit r convert callback k) :=
  (c.execute_abides r hconvert).congr fun w => c.submit_wire r convert callback k w

theorem submit_closed {w : Wire} (callback : Option (Callback κ α)) (k : κ)
    (h : w.isClosed = true) :
    c.submit r convert callback k w = ((.error (.closedToSubmissions r.tag), k), w) := by
  simp [submit, h]

end Client

namespace Link

inductive Moves (l : Link) : Link → Prop where
  | refl : Moves l l
  | reach {m : Link} (h : Moves l m) (t : Target) : Moves l (m.reach t).2
  | use {m : Link} {β : Type} {f : Wire → β × Wire} (h : Moves l m) (hf : Wire.Abides f) :
      Moves l (m.withWire (f m.wire).2)

variable {l m : Link} {c : Client} {α : Type}

theorem reach_ready (t : Target) (h : l.client.phase = .ready c) : l.reach t = (.ok c, l) := by
  rw [reach, Once.get_ready _ h]

theorem call_ready (t : Target) (f : Client → Call α) (h : l.client.phase = .ready c) :
    l.call t f = ((f c l.wire).1, l.withWire (f c l.wire).2) := by
  rw [call_of_reach_ok f (by rw [reach_ready t h]), reach_ready t h]

namespace Moves

theorem trans {n : Link} (h : Moves l m) (h' : Moves m n) : Moves l n := by
  induction h' with
  | refl => exact h
  | reach _ t ih => exact ih.reach t
  | use _ hf ih => exact ih.use hf

theorem call (h : Moves l m) (t : Target) {f : Client → Call α} (hf : ∀ c, Wire.Abides (f c)) :
    Moves l (m.call t f).2 := by
  have hreach := h.reach t
  rw [Link.call]
  cases hresult : m.reach t with
  | mk result n =>
      rw [hresult] at hreach
      cases result with
      | error e => exact hreach
      | ok c => exact hreach.use (hf c)

theorem sends (h : Moves l m) : ∃ es, Wire.Sends l.wire es m.wire := by
  induction h with
  | refl => exact ⟨[], .refl⟩
  | @reach m _ t ih => rwa [m.reach_wire t]
  | @use m _ f _ hf ih =>
      obtain ⟨es, hsends⟩ := ih
      obtain ⟨fs, hsends'⟩ := (hf m.wire).1
      exact ⟨es ++ fs, hsends.trans hsends'⟩

theorem keepsOnlyConfiguration (h : Moves l m) (hl : l.client.KeepsOnlyConfiguration) :
    m.client.KeepsOnlyConfiguration := by
  induction h with
  | refl => exact hl
  | reach _ t ih => exact ih.get (connect t) _
  | use _ hf ih => exact ih

theorem eq_of_closed (h : Moves l m) (hphase : l.client.phase = .ready c)
    (hclosed : l.wire.isClosed = true) : m = l := by
  induction h with
  | refl => rfl
  | reach _ t ih =>
      rw [ih, reach_ready t hphase]
  | use _ hf ih =>
      rw [ih, (hf l.wire).2 hclosed]
      rfl

end Moves

end Link

end SpanStore.Http
