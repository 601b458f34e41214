import SpanStore.Proofs.Store.Attempt

namespace SpanStore.Store

open Http (Answer Client Exchange Link Sent Target Wire)
open Template (IndexTemplate Schema)

namespace Attempt

variable {name text : String} {template : IndexTemplate} {client : Except Fault Client}
variable {es : List Exchange} {r : Except Fault Unit} {q : Except Fault Bool}

def line (e : Exchange) : String × List Char := (e.request.method, e.request.target)

def path (name : String) : List (String × List Char) :=
  [("GET", ['/']), ("GET", nameTarget name), ("PUT", nameTarget name)]

theorem installation_lines (h : Installation name text es q) :
    es.map line <+: [("GET", nameTarget name), ("PUT", nameTarget name)] := by
  cases h with
  | found hlook | unclear hlook =>
      obtain ⟨hmethod, htarget⟩ := hlook
      simp [line, hmethod, htarget]
  | installed hlook hmissing hinstall | rejected hlook hmissing hinstall =>
      obtain ⟨hmethod, htarget⟩ := hlook
      obtain ⟨hmethod', htarget', -⟩ := hinstall
      simp [line, hmethod, htarget, hmethod', htarget']

theorem lines_prefix (h : Attempt name template client es r) : es.map line <+: path name := by
  have hroot {root : Exchange} {es : List Exchange} (hgreets : Greets root.request)
      (hes : es.map line <+: [("GET", nameTarget name), ("PUT", nameTarget name)]) :
      (root :: es).map line <+: path name := by
    obtain ⟨hmethod, htarget⟩ := hgreets
    rw [List.map_cons, path, line, hmethod, htarget]
    exact List.cons_prefix_cons.mpr ⟨rfl, hes⟩
  cases h with
  | unreached => exact List.nil_prefix
  | untold hgreets | unsupported hgreets => exact hroot hgreets List.nil_prefix
  | failed hannounces hinstall | succeeded hannounces hinstall =>
      exact hroot hannounces.1 (installation_lines hinstall)

theorem installation_ok_iff (h : Installation name text es q) :
    (∃ installed, q = .ok installed) ↔ ∃ e ∈ es, e.answer.accepted?.isSome = true := by
  cases h with
  | found hlook hfound => simpa using hfound
  | unclear hlook hother hfailed =>
      simp [Client.accepted?_eq_none_of_error hfailed]
  | installed hlook hmissing hinstall hinstalled => simp [hinstalled]
  | rejected hlook hmissing hinstall hfailed =>
      simp [Client.accepted?_eq_none_of_error hfailed, Answer.accepted?_of_missing _ hmissing]

theorem ok_iff (h : Attempt name template client es r) :
    r = .ok () ↔ ∃ e ∈ es.tail, e.answer.accepted?.isSome = true := by
  cases h with
  | unreached | untold | unsupported => simp
  | failed hroot hinstall => simpa using installation_ok_iff hinstall
  | succeeded hroot hinstall => simpa using installation_ok_iff hinstall

end Attempt

structure Assurance where
  exchanges : List Exchange
  outcome : Except Fault Unit

/-- An outcome that stays: success, or a fault that no later attempt can mend. -/
def Final : Except Fault Unit → Prop
  | .ok () => True
  | .error f => f.kind.isConfiguration = true

/-- Successive calls over a link. One that neither succeeds nor fails for good is followed by an
attempt that starts anew. -/
inductive Assurances (target : Target) (template : IndexTemplate) (name : String) :
    Link → List Assurance → Prop where
  | nil {l : Link} : Assurances target template name l []
  | retried {l : Link} {es : List Exchange} {f : Fault} {rest : List Assurance}
      (hattempt : Attempt name template (l.reach target).1 es (.error f))
      (hpassing : f.kind.isConfiguration = false)
      (hrest : Assurances target template name (l.reach target).2 rest) :
      Assurances target template name l (⟨es, .error f⟩ :: rest)
  | settled {l : Link} {es : List Exchange} {r : Except Fault Unit} {rest : List Assurance}
      (hattempt : Attempt name template (l.reach target).1 es r) (hfinal : Final r)
      (hrest : ∀ a ∈ rest, a = ⟨[], r⟩) : Assurances target template name l (⟨es, r⟩ :: rest)

namespace Assurances

variable {target : Target} {template : IndexTemplate} {name : String} {l : Link}
variable {as : List Assurance}

theorem of_withWire {w : Wire} (h : Assurances target template name (l.withWire w) as) :
    Assurances target template name l as := by
  induction as generalizing l with
  | nil => exact .nil
  | cons a as ih =>
      cases h with
      | retried hattempt hpassing hrest =>
          rw [Link.reach_withWire] at hattempt hrest
          exact .retried hattempt hpassing (ih hrest)
      | settled hattempt hfinal hrest =>
          rw [Link.reach_withWire] at hattempt
          exact .settled hattempt hfinal hrest

theorem lines_prefix (h : Assurances target template name l as) :
    ∀ a ∈ as, a.exchanges.map Attempt.line <+: Attempt.path name := by
  induction h with
  | nil => exact nofun
  | retried hattempt hpassing hrest ih =>
      exact List.forall_mem_cons.mpr ⟨hattempt.lines_prefix, ih⟩
  | settled hattempt hfinal hrest =>
      refine List.forall_mem_cons.mpr ⟨hattempt.lines_prefix, ?_⟩
      intro a ha
      rw [hrest a ha]
      exact List.nil_prefix

theorem ok_iff (h : Assurances target template name l as) :
    ∀ a ∈ as, a.exchanges ≠ [] →
      (a.outcome = .ok () ↔ ∃ e ∈ a.exchanges.tail, e.answer.accepted?.isSome = true) := by
  induction h with
  | nil => exact nofun
  | retried hattempt hpassing hrest ih =>
      exact List.forall_mem_cons.mpr ⟨fun _ => hattempt.ok_iff, ih⟩
  | settled hattempt hfinal hrest =>
      refine List.forall_mem_cons.mpr ⟨fun _ => hattempt.ok_iff, ?_⟩
      intro a ha hne
      rw [hrest a ha] at hne
      exact absurd rfl hne

end Assurances

def ensureAll : Nat → Schema → Link → List (Except Fault Unit) × Link
  | 0, _, l => ([], l)
  | n + 1, s, l =>
      let (r, s, l) := s.ensure l
      let (rs, l) := ensureAll n s l
      (r :: rs, l)

theorem ensureAll_settled {s : Schema} {r : Except Fault Unit}
    (h : ∀ l, s.ensure l = (r, s, l)) (n : Nat) (l : Link) :
    ensureAll n s l = (List.replicate n r, l) := by
  induction n with
  | zero => rfl
  | succ n ih => simp only [ensureAll, h, ih, List.replicate_succ]

theorem ensure_open {s : Schema} (hphase : s.once.phase = .unchecked) (l : Link) :
    s.ensure l = ((s.bootstrap l).1,
      { s with once := s.once.check.settle (s.bootstrap l).1 }, (s.bootstrap l).2) := by
  rw [Schema.ensure, Once.get_compute _ (by simp [hphase]) (by simp [hphase])]

theorem ensure_ready {s : Schema} (hphase : s.once.phase = .ready ()) (l : Link) :
    s.ensure l = (.ok (), s, l) := by
  rw [Schema.ensure, Once.get_ready _ hphase]

theorem ensure_failed {s : Schema} {f : Fault} (hphase : s.once.phase = .failed f) (l : Link) :
    s.ensure l = (.error f, s, l) := by
  rw [Schema.ensure, Once.get_failed _ hphase]

theorem ensureAll_assurances (n : Nat) {s : Schema} {l : Link}
    (hphase : s.once.phase = .unchecked) (hwire : Receptive l.wire) :
    ∃ as : List Assurance, Assurances s.target s.template s.name l as ∧
      (ensureAll n s l).1 = as.map Assurance.outcome ∧
      Wire.Sends l.wire (as.flatMap Assurance.exchanges) (ensureAll n s l).2.wire := by
  induction n generalizing s l with
  | zero => exact ⟨[], .nil, rfl, .refl⟩
  | succ n ih =>
      obtain ⟨es, w, hlink, hsends, hw, hattempt⟩ := bootstrap_attempt s hwire
      rw [ensureAll, ensure_open hphase, hlink]
      generalize (s.bootstrap l).1 = r at *
      -- What stays is given without a request; what passes leaves the schema unchecked.
      have hsettled (hfinal : Final r)
          (hensure : ∀ k, { s with once := s.once.check.settle r }.ensure k =
            (r, { s with once := s.once.check.settle r }, k)) :
          ∃ as : List Assurance, Assurances s.target s.template s.name l as ∧
            r :: (ensureAll n { s with once := s.once.check.settle r }
              ((l.reach s.target).2.withWire w)).1 = as.map Assurance.outcome ∧
            Wire.Sends l.wire (as.flatMap Assurance.exchanges)
              (ensureAll n { s with once := s.once.check.settle r }
                ((l.reach s.target).2.withWire w)).2.wire := by
        refine ⟨⟨es, r⟩ :: List.replicate n ⟨[], r⟩,
          .settled hattempt hfinal fun _ ha => List.eq_of_mem_replicate ha, ?_, ?_⟩
        · simp [ensureAll_settled hensure]
        · simpa [ensureAll_settled hensure, List.flatMap_replicate] using hsends
      cases r with
      | ok u => exact hsettled trivial (ensure_ready rfl)
      | error f =>
          cases hf : f.kind.isConfiguration with
          | true => exact hsettled hf (ensure_failed (Once.settle_kept_phase _ hf))
          | false =>
              obtain ⟨as, has, houtcomes, hsends'⟩ :=
                ih (s := { s with once := s.once.check.settle (.error f) })
                  (l := (l.reach s.target).2.withWire w) (Once.settle_passing_phase _ hf) hw
              refine ⟨⟨es, .error f⟩ :: as, .retried hattempt hf has.of_withWire, ?_, ?_⟩
              · rw [List.map_cons, ← houtcomes]
              · exact hsends.trans hsends'

/-- What so many calls over a link show, one assurance for each. -/
structure Trace (s : Schema) (l : Link) (script : List Answer) (n : Nat)
    (as : List Assurance) : Prop where
  assurances : Assurances s.target s.template s.name l as
  outcomes : (ensureAll n s l).1 = as.map Assurance.outcome
  exchanges : Wire.meet script (ensureAll n s l).2.wire.sent = as.flatMap Assurance.exchanges
  lines : ∀ a ∈ as, a.exchanges.map Attempt.line <+: Attempt.path s.name
  succeeds : ∀ a ∈ as, a.exchanges ≠ [] →
    (a.outcome = .ok () ↔ ∃ e ∈ a.exchanges.tail, e.answer.accepted?.isSome = true)

/-- Whatever a cluster answers, the calls that make sure of its schema exchange attempts one after
the other, up to the first that succeeds or fails for good. -/
theorem ensureAll_trace (target : Target) (template : IndexTemplate) (given : Option String)
    {l : Link} {script : List Answer} (n : Nat) (hwire : l.wire = .fresh script)
    (hforeign : ∀ a ∈ script, Foreign a) :
    ∃ as, Trace (.create target template given) l script n as := by
  have hreceptive : Receptive l.wire := by
    rw [hwire]
    exact ⟨rfl, nofun, hforeign⟩
  obtain ⟨as, has, houtcomes, hsends⟩ :=
    ensureAll_assurances n (s := .create target template given) rfl hreceptive
  rw [hwire] at hsends
  exact ⟨as, has, houtcomes, hsends.meet_fresh.2, has.lines_prefix, has.ok_iff⟩

def reluctant : List Answer :=
  let version : Answer := .response 200 (.text "\x7b\"version\":\x7b\"number\":\" 2.4.6\"\x7d\x7d")
  [.fault (.raise .connectionLost ""), version, .response 404 .absent, .response 404 .absent,
    version, .response 404 .absent, .response 201 .absent]

theorem reluctant_foreign : ∀ a ∈ reluctant, Foreign a := by
  simp only [reluctant, List.forall_mem_cons, List.not_mem_nil, false_implies, implies_true,
    and_true]
  exact ⟨foreign_fault (by decide), foreign_response _ _, foreign_response _ _,
    foreign_response _ _, foreign_response _ _, foreign_response _ _, foreign_response _ _⟩

theorem ensureAll_trace_reluctant :
    let l := Link.ofClient ⟨"http://localhost:9200", {}⟩ (.fresh reluctant)
    let s := Schema.create ⟨[], {}, Net.systemLookup⟩ ⟨"zipkin", .whole 5, .whole 1, true⟩ none
    (ensureAll 4 s l).2.wire.sent.map Sent.method =
      ["GET", "GET", "GET", "PUT", "GET", "GET", "PUT"] ∧ ∃ as, Trace s l reluctant 4 as :=
  ⟨by decide +kernel, ensureAll_trace _ _ _ 4 rfl reluctant_foreign⟩

end SpanStore.Store
