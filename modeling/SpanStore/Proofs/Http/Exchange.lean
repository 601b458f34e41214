import SpanStore.Http.Link
import SpanStore.Proofs.Once.Handle

namespace SpanStore.Http

structure Exchange where
  request : Sent
  answer : Answer

namespace Answer

def accepted? : Answer → Option (List UInt8)
  | .response status body => if 200 ≤ status ∧ status < 300 then some body.toBytes else none
  | .fault _ => none

def status? : Answer → Option Int
  | .response status _ => some status
  | .fault _ => none

theorem accepted?_of_missing (a : Answer) (h : a.status? = some 404) : a.accepted? = none := by
  cases a with
  | fault f => cases h
  | response status body =>
      obtain rfl : status = 404 := by simpa [status?] using h
      rfl

end Answer

namespace Wire

inductive Sends (w : Wire) : List Exchange → Wire → Prop where
  | refl : Sends w [] w
  | exchange {es : List Exchange} {v : Wire} (h : Sends w es v) (s : Sent) :
      Sends w (es ++ [⟨s, (v.exchange s).1⟩]) (v.exchange s).2
  | close {es : List Exchange} {v : Wire} (h : Sends w es v) : Sends w es v.close

namespace Sends

variable {u v w : Wire} {es fs : List Exchange}

theorem trans (h : Sends u es v) (h' : Sends v fs w) : Sends u (es ++ fs) w := by
  induction h' with
  | refl =>
      rw [List.append_nil]
      exact h
  | exchange _ s ih =>
      rw [← List.append_assoc]
      exact ih.exchange s
  | close _ ih => exact ih.close

theorem one (w : Wire) (s : Sent) : Sends w [⟨s, (w.exchange s).1⟩] (w.exchange s).2 :=
  Sends.refl.exchange s

end Sends

@[simp] theorem close_answers (w : Wire) : w.close.answers = w.answers := by
  unfold close
  split <;> rfl

@[simp] theorem close_sent (w : Wire) : w.close.sent = w.sent := by
  unfold close
  split <;> rfl

def meet (script : List Answer) : List Sent → List Exchange
  | [] => []
  | s :: rest => ⟨s, script.headD emptyObject⟩ :: meet script.tail rest

theorem meet_concat (script : List Answer) (sent : List Sent) (s : Sent) :
    meet script (sent ++ [s]) =
      meet script sent ++ [⟨s, (script.drop sent.length).headD emptyObject⟩] := by
  induction sent generalizing script with
  | nil => rfl
  | cons r sent ih =>
      rw [List.cons_append, meet, ih, List.length_cons, ← List.drop_tail]
      rfl

theorem Sends.meet_fresh {script : List Answer} {w : Wire} {es : List Exchange}
    (h : Sends (fresh script) es w) :
    w.answers = script.drop w.sent.length ∧ meet script w.sent = es := by
  induction h with
  | refl => exact ⟨rfl, rfl⟩
  | @exchange es v _ s ih =>
      obtain ⟨hanswers, hmeet⟩ := ih
      constructor
      · simp [Wire.exchange, hanswers]
      · simp [Wire.exchange, meet_concat, hmeet, hanswers]
  | close _ ih => simpa using ih

theorem exchange_fault {w : Wire} {s : Sent} {f : Fault} (h : (w.exchange s).1 = .fault f) :
    w.answers.head? = some (.fault f) := by
  unfold exchange at h
  cases hanswers : w.answers with
  | nil =>
      rw [hanswers] at h
      cases h
  | cons a rest =>
      rw [hanswers] at h
      exact congrArg some h

/-- All answers still to come satisfy the predicate, as does the one of a cluster that has nothing
to say. -/
def Answers (P : Answer → Prop) (w : Wire) : Prop := P emptyObject ∧ ∀ a ∈ w.answers, P a

theorem Answers.exchange {P : Answer → Prop} {w : Wire} (h : w.Answers P) (s : Sent) :
    P (w.exchange s).1 ∧ (w.exchange s).2.Answers P := by
  obtain ⟨hempty, hall⟩ := h
  cases hw : w.answers with
  | nil =>
      refine ⟨?_, hempty, ?_⟩
      · simpa [Wire.exchange, hw] using hempty
      · simp [Wire.exchange, hw]
  | cons a rest =>
      rw [hw] at hall
      obtain ⟨ha, hrest⟩ := List.forall_mem_cons.mp hall
      refine ⟨?_, hempty, ?_⟩
      · simpa [Wire.exchange, hw] using ha
      · simpa [Wire.exchange, hw] using hrest

theorem Sends.answers {P : Answer → Prop} {w v : Wire} {es : List Exchange} (h : Sends w es v)
    (hw : w.Answers P) : v.Answers P := by
  induction h with
  | refl => exact hw
  | exchange _ s ih => exact (ih.exchange s).2
  | close _ ih => simpa [Answers] using ih

end Wire

namespace Client

def outcome (tag : String) : Answer → Except Fault (List UInt8)
  | .fault f => .error (wireFault tag f)
  | .response status body =>
      if 200 ≤ status ∧ status < 300 then .ok body.toBytes
      else .error (.refused tag status body.toBytes)

theorem outcome_eq_ok_iff {tag : String} {a : Answer} {body : List UInt8} :
    outcome tag a = .ok body ↔ a.accepted? = some body := by
  cases a with
  | fault f => simp [outcome, Answer.accepted?]
  | response status payload =>
      by_cases hstatus : 200 ≤ status ∧ status < 300
      · simp [outcome, Answer.accepted?, hstatus]
      · simp [outcome, Answer.accepted?, hstatus]

theorem accepted?_eq_none_of_error {tag : String} {a : Answer} {f : Fault}
    (h : outcome tag a = .error f) : a.accepted? = none := by
  cases haccepted : a.accepted? with
  | none => rfl
  | some body =>
      rw [outcome_eq_ok_iff.mpr haccepted] at h
      cases h

theorem wireFault_kind_notFound {tag : String} {f : Fault}
    (h : (wireFault tag f).kind = .notFound) : f.kind = .notFound := by
  unfold wireFault at h
  split at h
  · cases h
  · split at h
    · cases h
    · exact h

theorem outcome_notFound {tag : String} {a : Answer} {f : Fault} (h : outcome tag a = .error f)
    (ha : ∀ g, a = .fault g → g.kind ≠ .notFound) :
    f.kind = .notFound ↔ a.status? = some 404 := by
  cases a with
  | fault g =>
      obtain rfl : wireFault tag g = f := by simpa [outcome] using h
      have hkind : ¬ (wireFault tag g).kind = .notFound :=
        fun hf => ha g rfl (wireFault_kind_notFound hf)
      simp [Answer.status?, hkind]
  | response status body =>
      have hrefused : Fault.refused tag status body.toBytes = f := by
        simp only [outcome] at h
        split at h
        · cases h
        · exact Except.error.inj h
      subst hrefused
      simp [Fault.kind, Answer.status?]

section Execute

variable {α : Type} (c : Client) (r : Request) {w : Wire}

theorem execute_closed (convert : List UInt8 → Call α) (h : w.isClosed = true) :
    c.execute r convert w = (.error (.closedToCalls r.tag), w) := by
  simp [execute, perform, h]

theorem perform_open (h : w.isClosed = false) :
    c.perform r w =
      (outcome r.tag (w.exchange (r.toSent c.config.requestTimeout)).1,
        (w.exchange (r.toSent c.config.requestTimeout)).2) := by
  simp only [perform, h, Bool.false_eq_true, if_false]
  cases hexchange : w.exchange (r.toSent c.config.requestTimeout) with
  | mk a v =>
      cases a with
      | fault f => rfl
      | response status body =>
          simp only [outcome]
          split <;> rfl

theorem execute_open (convert : List UInt8 → Call α) (h : w.isClosed = false) :
    c.execute r convert w =
      match outcome r.tag (w.exchange (r.toSent c.config.requestTimeout)).1 with
      | .error f => (.error f, (w.exchange (r.toSent c.config.requestTimeout)).2)
      | .ok body =>
          ((convert body (w.exchange (r.toSent c.config.requestTimeout)).2).1.mapError
              (conversionFault r.tag),
            (convert body (w.exchange (r.toSent c.config.requestTimeout)).2).2) := by
  rw [execute, perform_open c r h]
  cases outcome r.tag (w.exchange (r.toSent c.config.requestTimeout)).1 with
  | error f => rfl
  | ok body =>
      cases hconvert : convert body (w.exchange (r.toSent c.config.requestTimeout)).2 with
      | mk result v =>
          simp only [hconvert]
          cases result with
          | error f => rfl
          | ok x => rfl

def converted (tag : String) (convert : List UInt8 → Except Fault α) (a : Answer) :
    Except Fault α :=
  (outcome tag a).bind fun body => (convert body).mapError (conversionFault tag)

theorem converted_eq_ok_iff {tag : String} {convert : List UInt8 → Except Fault α} {a : Answer}
    {x : α} :
    converted tag convert a = .ok x ↔ ∃ body, a.accepted? = some body ∧ convert body = .ok x := by
  simp only [converted, ← @outcome_eq_ok_iff tag]
  cases outcome tag a with
  | error f => simp [Except.bind]
  | ok body =>
      change (convert body).mapError (conversionFault tag) = .ok x ↔ _
      cases hconvert : convert body with
      | error f => exact ⟨nofun, by simp [hconvert]⟩
      | ok y =>
          change Except.ok y = .ok x ↔ _
          simp [hconvert]

theorem outcome_of_ignored_error {tag : String} {a : Answer} {f : Fault}
    (h : converted tag (fun _ => .ok ()) a = .error f) : outcome tag a = .error f := by
  cases houtcome : outcome tag a with
  | error g => simpa [converted, houtcome, Except.bind] using h
  | ok body =>
      rw [converted, houtcome] at h
      cases h

theorem execute_pure_open (convert : List UInt8 → Except Fault α) (h : w.isClosed = false) :
    c.execute r (Call.ofConversion convert) w =
      (converted r.tag convert (w.exchange (r.toSent c.config.requestTimeout)).1,
        (w.exchange (r.toSent c.config.requestTimeout)).2) := by
  rw [c.execute_open r _ h, converted]
  cases outcome r.tag (w.exchange (r.toSent c.config.requestTimeout)).1 with
  | error f => rfl
  | ok body => rfl

theorem execute_ignore_open (h : w.isClosed = false) :
    c.execute r Call.ignore w =
      ((outcome r.tag (w.exchange (r.toSent c.config.requestTimeout)).1).map fun _ => (),
        (w.exchange (r.toSent c.config.requestTimeout)).2) := by
  have hexecute := c.execute_pure_open r (fun _ => .ok ()) h
  change c.execute r Call.ignore w = _ at hexecute
  rw [hexecute, converted]
  cases outcome r.tag (w.exchange (r.toSent c.config.requestTimeout)).1 with
  | error f => rfl
  | ok body => rfl

theorem execute_pure_cases (convert : List UInt8 → Except Fault α) (w : Wire) :
    c.execute r (Call.ofConversion convert) w = (.error (.closedToCalls r.tag), w) ∨
      c.execute r (Call.ofConversion convert) w =
        (converted r.tag convert (w.exchange (r.toSent c.config.requestTimeout)).1,
          (w.exchange (r.toSent c.config.requestTimeout)).2) := by
  cases hclosed : w.isClosed with
  | true => exact .inl (c.execute_closed r _ hclosed)
  | false => exact .inr (c.execute_pure_open r convert hclosed)

theorem submit_wire {κ : Type} (convert : List UInt8 → Call α) (callback : Option (Callback κ α))
    (k : κ) (w : Wire) : (c.submit r convert callback k w).2 = (c.execute r convert w).2 := by
  cases hclosed : w.isClosed with
  | true => simp [submit, c.execute_closed r convert hclosed, hclosed]
  | false =>
      simp only [submit, hclosed, Bool.false_eq_true, if_false]
      cases callback <;> rfl

end Execute

end Client

def Call.Within {α : Type} (P : Sent → Prop) (call : Call α) : Prop :=
  ∀ w, ∃ es, Wire.Sends w es (call w).2 ∧ ∀ e ∈ es, P e.request

namespace Call.Within

variable {α : Type} {P : Sent → Prop}

theorem of_pure (r : Except Fault α) : Within P fun w => (r, w) :=
  fun _ => ⟨[], .refl, fun _ h => absurd h List.not_mem_nil⟩

theorem congr {β : Type} {call : Call α} {call' : Call β} (h : Within P call)
    (hwire : ∀ w, (call' w).2 = (call w).2) : Within P call' := by
  intro w
  rw [hwire]
  exact h w

theorem andThen {call : Call Unit} {next : Call α} (h : Within P call) (hnext : Within P next) :
    Within P fun w =>
      match call w with
      | (.error f, w) => (.error f, w)
      | (.ok (), w) => next w := by
  intro w
  obtain ⟨es, hsends, hes⟩ := h w
  cases hcall : call w with
  | mk result v =>
      rw [hcall] at hsends
      simp only [hcall]
      cases result with
      | error f => exact ⟨es, hsends, hes⟩
      | ok u =>
          obtain ⟨fs, hsends', hfs⟩ := hnext v
          refine ⟨es ++ fs, hsends.trans hsends', ?_⟩
          intro e he
          rcases List.mem_append.mp he with he | he
          · exact hes e he
          · exact hfs e he

theorem of_conversion (convert : List UInt8 → Except Fault α) (body : List UInt8) :
    Within P (Call.ofConversion convert body) :=
  of_pure (convert body)

theorem execute {c : Client} {r : Request} {convert : List UInt8 → Call α}
    (hr : P (r.toSent c.config.requestTimeout)) (hconvert : ∀ body, Within P (convert body)) :
    Within P (c.execute r convert) := by
  intro w
  cases hclosed : w.isClosed with
  | true =>
      rw [c.execute_closed r convert hclosed]
      exact ⟨[], .refl, fun _ h => absurd h List.not_mem_nil⟩
  | false =>
      have hone := Wire.Sends.one w (r.toSent c.config.requestTimeout)
      rw [c.execute_open r convert hclosed]
      cases Client.outcome r.tag (w.exchange (r.toSent c.config.requestTimeout)).1 with
      | error f =>
          refine ⟨_, hone, ?_⟩
          intro e he
          obtain rfl := List.mem_singleton.mp he
          exact hr
      | ok body =>
          obtain ⟨es, hsends, hes⟩ :=
            hconvert body (w.exchange (r.toSent c.config.requestTimeout)).2
          refine ⟨_, hone.trans hsends, ?_⟩
          intro e he
          rcases List.mem_append.mp he with he | he
          · obtain rfl := List.mem_singleton.mp he
            exact hr
          · exact hes e he

end Call.Within

namespace Link

theorem reach_wire (t : Target) (l : Link) : (l.reach t).2.wire = l.wire := by
  have hconnect : ∀ (h : Once Client) (s : Surroundings), s.wire = l.wire →
      (connect t h s).2.wire = l.wire := by
    intro h s hs
    unfold connect
    split <;> exact hs
  have hget : (l.client.get (connect t) l.surroundings).2.2.wire = l.wire :=
    Once.get_kept (P := fun s : Surroundings => s.wire = l.wire) hconnect l.client rfl
  exact hget

theorem call_cases {α : Type} (t : Target) (f : Client → Call α) (l : Link) :
    (∃ e, (l.call t f).1 = .error e ∧ (l.call t f).2.wire = l.wire) ∨
      ∃ c, (l.call t f).1 = (f c l.wire).1 ∧ (l.call t f).2.wire = (f c l.wire).2 := by
  have hwire := l.reach_wire t
  unfold call
  cases hreach : l.reach t with
  | mk result k =>
      rw [hreach] at hwire
      cases result with
      | error e => exact .inl ⟨e, rfl, hwire⟩
      | ok c =>
          refine .inr ⟨c, ?_, ?_⟩
          · change (f c k.wire).1 = _
            rw [hwire]
          · change (f c k.wire).2 = _
            rw [hwire]

def Sending (P : Sent → Prop) (l m : Link) : Prop :=
  ∃ es, Wire.Sends l.wire es m.wire ∧ ∀ e ∈ es, P e.request

namespace Sending

variable {P : Sent → Prop} {l m n : Link}

theorem of_wire (h : m.wire = l.wire) : Sending P l m := by
  refine ⟨[], ?_, List.forall_mem_nil _⟩
  rw [h]
  exact .refl

theorem trans (h : Sending P l m) (h' : Sending P m n) : Sending P l n := by
  obtain ⟨es, hsends, hes⟩ := h
  obtain ⟨fs, hsends', hfs⟩ := h'
  exact ⟨es ++ fs, hsends.trans hsends', List.forall_mem_append.mpr ⟨hes, hfs⟩⟩

theorem call {α : Type} {f : Client → Call α} (hf : ∀ c, (f c).Within P) (t : Target)
    (l : Link) : Sending P l (l.call t f).2 := by
  rcases l.call_cases t f with ⟨e, -, hwire⟩ | ⟨c, -, hwire⟩
  · exact of_wire hwire
  · obtain ⟨es, hsends, hes⟩ := hf c l.wire
    rw [← hwire] at hsends
    exact ⟨es, hsends, hes⟩

end Sending

end Link

end SpanStore.Http
