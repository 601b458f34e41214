import SpanStore.Proofs.Http.Exchange

namespace SpanStore.Http

inductive Notice (α : Type) where
  | success (a : α)
  | error (f : Fault)

def Notice.ofOutcome {α : Type} : Except Fault α → Notice α
  | .ok a => .success a
  | .error f => .error f

namespace Callback

variable {κ α : Type} (callback : Callback κ α) (k : κ)

def tell : Notice α → κ → Except Fault Unit × κ
  | .success a => callback.onSuccess a
  | .error f => callback.onError f

def leave (outcome : Except Fault α) : Except Fault α :=
  (callback.tell (.ofOutcome outcome) k).1.bind fun _ => outcome

theorem settle_eq (outcome : Except Fault α) :
    callback.settle outcome k =
      (callback.leave k outcome, (callback.tell (.ofOutcome outcome) k).2) := by
  cases outcome with
  | ok a =>
      rw [settle, leave, Notice.ofOutcome, tell]
      rcases callback.onSuccess a k with ⟨f | -, k'⟩ <;> rfl
  | error f =>
      rw [settle, leave, Notice.ofOutcome, tell]
      rcases callback.onError f k with ⟨g | -, k'⟩ <;> rfl

def noted : Callback (κ × List (Notice α)) α where
  onSuccess a k :=
    ((callback.onSuccess a k.1).1, (callback.onSuccess a k.1).2, k.2 ++ [.success a])
  onError f k := ((callback.onError f k.1).1, (callback.onError f k.1).2, k.2 ++ [.error f])

theorem tell_noted (notice : Notice α) (told : List (Notice α)) :
    callback.noted.tell notice (k, told) =
      ((callback.tell notice k).1, (callback.tell notice k).2, told ++ [notice]) := by
  cases notice <;> rfl

end Callback

namespace Client

variable {κ α : Type} {c : Client} {r : Request} {convert : List UInt8 → Call α}
  {callback : Callback κ α} {k : κ} {w : Wire}

def afterExchange (c : Client) (r : Request) (convert : List UInt8 → Call α) (w : Wire) : Wire :=
  let v := (w.exchange (r.toSent c.config.requestTimeout)).2
  match (w.exchange (r.toSent c.config.requestTimeout)).1.accepted? with
  | none => v
  | some body => (convert body v).2

theorem execute_wire (h : w.isClosed = false) :
    (c.execute r convert w).2 = c.afterExchange r convert w := by
  rw [c.execute_open r convert h, afterExchange]
  cases houtcome : outcome r.tag (w.exchange (r.toSent c.config.requestTimeout)).1 with
  | error f => simp [accepted?_eq_none_of_error houtcome]
  | ok body => simp [outcome_eq_ok_iff.mp houtcome]

theorem submit_open_eq (callback : Callback κ α) (k : κ) (h : w.isClosed = false) :
    c.submit r convert (some callback) k w =
      ((callback.leave k (c.execute r convert w).1,
        (callback.tell (.ofOutcome (c.execute r convert w).1) k).2),
        (c.execute r convert w).2) := by
  rw [← callback.settle_eq]
  simp [submit, h]

/-- A submission on an open wire by the call alone. The callback is told `notice`. -/
structure Settles (c : Client) (r : Request) (convert : List UInt8 → Call α)
    (callback : Callback κ α) (k : κ) (w : Wire) (notice : Notice α) (result : Except Fault α)
    (k' : κ) (w' : Wire) : Prop where
  submit_eq : c.submit r convert (some callback) k w = ((result, k'), w')
  submit_untold : c.submit r convert none k w = (((c.execute r convert w).1, k), w')
  execute_wire : (c.execute r convert w).2 = w'
  exchanged : c.afterExchange r convert w = w'
  success_iff : ∀ a, notice = .success a ↔ (c.execute r convert w).1 = .ok a
  error_iff : ∀ f, notice = .error f ↔ (c.execute r convert w).1 = .error f
  state : (callback.tell notice k).2 = k'
  result_returned : (callback.tell notice k).1 = .ok () → result = (c.execute r convert w).1
  result_raised : ∀ g, (callback.tell notice k).1 = .error g → result = .error g

theorem settles_open (c : Client) (r : Request) (convert : List UInt8 → Call α)
    (callback : Callback κ α) (k : κ) (h : w.isClosed = false) :
    c.Settles r convert callback k w (.ofOutcome (c.execute r convert w).1)
      (callback.leave k (c.execute r convert w).1)
      (callback.tell (.ofOutcome (c.execute r convert w).1) k).2 (c.execute r convert w).2 where
  submit_eq := submit_open_eq callback k h
  submit_untold := by simp [submit, h]
  execute_wire := rfl
  exchanged := (execute_wire h).symm
  success_iff a := by cases (c.execute r convert w).1 <;> simp [Notice.ofOutcome]
  error_iff f := by cases (c.execute r convert w).1 <;> simp [Notice.ofOutcome]
  state := rfl
  result_returned htold := by
    rw [Callback.leave, htold]
    rfl
  result_raised g htold := by
    rw [Callback.leave, htold]
    rfl

/-- A submission tells its callback one thing, by which it ends; on a closed wire it is refused and
nothing is told. -/
theorem submit_settles (c : Client) (r : Request) (convert : List UInt8 → Call α)
    (callback : Callback κ α) (k : κ) (w : Wire) :
    (w.isClosed = false → ∃ notice result k' w',
      c.submit r convert (some callback.noted) (k, []) w = ((result, (k', [notice])), w') ∧
        c.Settles r convert callback k w notice result k' w') ∧
    (w.isClosed = true →
      c.submit r convert (some callback.noted) (k, []) w =
          ((.error (.closedToSubmissions r.tag), (k, [])), w) ∧
        c.submit r convert (some callback) k w = ((.error (.closedToSubmissions r.tag), k), w) ∧
        c.submit r convert none k w = ((.error (.closedToSubmissions r.tag), k), w) ∧
        (Fault.closedToSubmissions r.tag).kind = .client) := by
  constructor
  · intro hopen
    refine ⟨_, _, _, _, ?_, c.settles_open r convert callback k hopen⟩
    rw [submit_open_eq callback.noted (k, []) hopen, Callback.leave, Callback.tell_noted]
    rfl
  · intro hclosed
    exact ⟨by simp [submit, hclosed], by simp [submit, hclosed], by simp [submit, hclosed], rfl⟩

def greeter : Client := ⟨"http://spans:9200", {}⟩

def twice (body : List UInt8) : Call Nat := fun w =>
  greeter.execute (.plain "GET" ["again"] "again") (Call.ofConversion fun more =>
    .ok (body.length + more.length)) w

def unwilling : Callback Unit Nat where
  onSuccess _ _ := (.error .malformedDate, ())
  onError _ _ := (.ok (), ())

theorem submit_settles_twice :
    (∃ notice result k' w',
      greeter.submit (.plain "GET" ["once"] "once") twice (some unwilling.noted) ((), [])
          (.fresh []) = ((result, (k', [notice])), w') ∧
        greeter.Settles (.plain "GET" ["once"] "once") twice unwilling () (.fresh []) notice result
          k' w' ∧
        notice = .success 4 ∧ result = .error .malformedDate ∧
        w'.sent.map Sent.target = ["/once".toList, "/again".toList]) ∧
      greeter.submit (.plain "GET" ["once"] "once") twice (some unwilling.noted) ((), [])
          (Wire.fresh []).close =
        ((.error (.closedToSubmissions "once"), ((), [])), (Wire.fresh []).close) := by
  constructor
  · obtain ⟨notice, result, k', w', hsubmit, hsettles⟩ :=
      (submit_settles greeter (.plain "GET" ["once"] "once") twice unwilling () (.fresh [])).1 rfl
    have hnotice : notice = .success 4 := (hsettles.success_iff 4).mpr rfl
    refine ⟨notice, result, k', w', hsubmit, hsettles, hnotice, ?_, ?_⟩
    · exact hsettles.result_raised .malformedDate (by rw [hnotice]; rfl)
    · rw [← hsettles.execute_wire]
      rfl
  · exact ((submit_settles greeter (.plain "GET" ["once"] "once") twice unwilling ()
      (Wire.fresh []).close).2 rfl).1

end Client

end SpanStore.Http
