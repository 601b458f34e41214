import SpanStore.Proofs.Http.Exchange

namespace SpanStore

namespace Fault

/-- What a fault of a call says beside its words: the tag of the request, and the status and the
body of an answer that was refused. A fault that is raised by others has what they gave it. -/
structure Report where
  tag : String
  status : Option Int
  body : Option (List UInt8)

def report? : Fault → Option Report
  | timedOut tag _ | notSent tag _ => some ⟨tag, none, none⟩
  | refused tag status body => some ⟨tag, some status, some body⟩
  | _ => none

def Names (f : Fault) (tag : String) : Prop := ∃ words, f.text? = some (tag ++ words)

theorem Names.of_text {f : Fault} {tag start rest : String}
    (h : f.text? = some (tag ++ start ++ rest)) : f.Names tag :=
  ⟨start ++ rest, by rw [h, String.append_assoc]⟩

theorem names_notConverted (tag : String) (cause : Fault) : (notConverted tag cause).Names tag :=
  .of_text rfl

end Fault

namespace Http

/-- A request as the wire has to get it. -/
structure Carries (c : Client) (r : Request) (s : Sent) : Prop where
  method : s.method = r.method
  target : s.target = r.target
  body : s.body = r.body
  timeout : s.timeout = c.config.requestTimeout
  accept : ∀ value, ("accept", value) ∈ s.headers ↔ value = json
  contentType : ∀ value, ("content-type", value) ∈ s.headers ↔
    r.body ≠ none ∧ value = r.contentType
  otherHeaders : ∀ header ∈ s.headers, header.1 = "accept" ∨ header.1 = "content-type"

theorem carries_toSent (c : Client) (r : Request) :
    Carries c r (r.toSent c.config.requestTimeout) := by
  cases hbody : r.body with
  | none => constructor <;> simp [Request.toSent, hbody]
  | some body => constructor <;> simp [Request.toSent, hbody]

/-- How a call ends by the answer to its request. The wire `v` has taken the request; only an
accepted answer leads to a conversion, which goes on from there. -/
inductive Ends {α : Type} (r : Request) (convert : List UInt8 → Call α) (v : Wire) :
    Answer → Except Fault α → Wire → Prop where
  | converted {status : Int} {body : Payload} {a : α} {w : Wire}
      (hstatus : 200 ≤ status ∧ status < 300) (hconvert : convert body.toBytes v = (.ok a, w)) :
      Ends r convert v (.response status body) (.ok a) w
  | ownFault {status : Int} {body : Payload} {f : Fault} {w : Wire}
      (hstatus : 200 ≤ status ∧ status < 300) (hconvert : convert body.toBytes v = (.error f, w))
      (hown : f.kind.isOwn = true) : Ends r convert v (.response status body) (.error f) w
  | otherFault {status : Int} {body : Payload} {f g : Fault} {w : Wire}
      (hstatus : 200 ≤ status ∧ status < 300) (hconvert : convert body.toBytes v = (.error f, w))
      (hown : f.kind.isOwn = false) (hkind : g.kind = .conversion) (hnames : g.Names r.tag) :
      Ends r convert v (.response status body) (.error g) w
  | missing {body : Payload} {f : Fault} (hkind : f.kind = .notFound)
      (hreport : f.report? = some ⟨r.tag, some 404, some body.toBytes⟩) :
      Ends r convert v (.response 404 body) (.error f) v
  | refused {status : Int} {body : Payload} {f : Fault}
      (hstatus : ¬ (200 ≤ status ∧ status < 300)) (hpresent : status ≠ 404)
      (hkind : f.kind = .call)
      (hreport : f.report? = some ⟨r.tag, some status, some body.toBytes⟩) :
      Ends r convert v (.response status body) (.error f) v
  | timedOut {f g : Fault} (hwire : f.kind = .connectionTimeout) (hkind : g.kind = .timeout)
      (hreport : g.report? = some ⟨r.tag, none, none⟩) : Ends r convert v (.fault f) (.error g) v
  | notSent {f g : Fault} (hwire : f.kind.isTransport = true)
      (hintime : f.kind ≠ .connectionTimeout) (hkind : g.kind = .call)
      (hreport : g.report? = some ⟨r.tag, none, none⟩) : Ends r convert v (.fault f) (.error g) v
  | foreign {f : Fault} (hwire : f.kind.isTransport = false) :
      Ends r convert v (.fault f) (.error f) v

namespace Client

variable {α : Type}

theorem ends_accepted {r : Request} {convert : List UInt8 → Call α} {v : Wire} {status : Int}
    {body : Payload} (hstatus : 200 ≤ status ∧ status < 300) :
    Ends r convert v (.response status body)
      ((convert body.toBytes v).1.mapError (conversionFault r.tag)) (convert body.toBytes v).2 := by
  cases hconvert : convert body.toBytes v with
  | mk result w =>
      cases result with
      | ok a => exact .converted hstatus hconvert
      | error f =>
          change Ends r convert v _ (.error (conversionFault r.tag f)) w
          cases hown : f.kind.isOwn with
          | true =>
              rw [conversionFault, if_pos hown]
              exact .ownFault hstatus hconvert hown
          | false =>
              rw [conversionFault, hown, if_neg Bool.false_ne_true]
              exact .otherFault hstatus hconvert hown rfl (Fault.names_notConverted r.tag f)

theorem ends_refused (r : Request) (convert : List UInt8 → Call α) (v : Wire) {status : Int}
    {body : Payload} (hstatus : ¬ (200 ≤ status ∧ status < 300)) :
    Ends r convert v (.response status body) (.error (.refused r.tag status body.toBytes)) v := by
  by_cases hmissing : status = 404
  · subst hmissing
    exact .missing rfl rfl
  · exact .refused hstatus hmissing (if_neg hmissing) rfl

theorem ends_fault (r : Request) (convert : List UInt8 → Call α) (v : Wire) (f : Fault) :
    Ends r convert v (.fault f) (.error (wireFault r.tag f)) v := by
  unfold wireFault
  by_cases htimeout : f.kind = .connectionTimeout
  · rw [if_pos htimeout]
    exact .timedOut htimeout rfl rfl
  · rw [if_neg htimeout]
    cases hwire : f.kind.isTransport with
    | true => exact .notSent hwire htimeout rfl rfl
    | false => exact .foreign hwire

/-- A call on an open wire hands over one request and ends as the answer to it says. Where the
answer is not accepted, no conversion has a part in that. -/
theorem execute_outcome (c : Client) (r : Request) (convert : List UInt8 → Call α) {w : Wire}
    (h : w.isClosed = false) :
    ∃ s v answer, Carries c r s ∧ w.exchange s = (answer, v) ∧ v.sent = w.sent ++ [s] ∧
      Ends r convert v answer (c.execute r convert w).1 (c.execute r convert w).2 ∧
      (answer.accepted? = none → ∀ other, c.execute r other w = c.execute r convert w) := by
  have hexecute (other : List UInt8 → Call α) := c.execute_open r other h
  have hsent : (w.exchange (r.toSent c.config.requestTimeout)).2.sent =
      w.sent ++ [r.toSent c.config.requestTimeout] := rfl
  cases hexchange : w.exchange (r.toSent c.config.requestTimeout) with
  | mk answer v =>
      simp only [hexchange] at hexecute hsent
      refine ⟨_, v, answer, carries_toSent c r, hexchange, hsent, ?_, ?_⟩
      · rw [hexecute]
        cases answer with
        | fault f => exact ends_fault r convert v f
        | response status body =>
            by_cases hstatus : 200 ≤ status ∧ status < 300
            · simp only [outcome, if_pos hstatus]
              exact ends_accepted hstatus
            · simp only [outcome, if_neg hstatus]
              exact ends_refused r convert v hstatus
      · intro hrefused other
        rw [hexecute, hexecute]
        cases houtcome : outcome r.tag answer with
        | error f => rfl
        | ok body =>
            rw [outcome_eq_ok_iff.mp houtcome] at hrefused
            cases hrefused

def further (c : Client) (body : List UInt8) : Call Nat := fun w =>
  c.execute (.plain "GET" ["more"] "more") (Call.ofConversion fun more =>
    .ok (body.length + more.length)) w

def lister : Client := ⟨"http://spans:9200", {}⟩

theorem execute_outcome_further :
    (Wire.fresh [.response 204 .absent, .response 404 (.text "none")]).isClosed = false ∧
      ∃ s v answer, Carries lister (.plain "GET" ["list"] "list") s ∧
        (Wire.fresh [.response 204 .absent, .response 404 (.text "none")]).exchange s =
          (answer, v) ∧
        v.sent = [s] ∧ answer = .response 204 .absent ∧
        ∃ f w', Ends (.plain "GET" ["list"] "list") lister.further v answer (.error f) w' ∧
          f.kind = .notFound ∧ (f.report?.map Fault.Report.tag) = some "more" ∧
          w'.sent.map Sent.target = ["/list".toList, "/more".toList] := by
  refine ⟨rfl, ?_⟩
  obtain ⟨s, v, answer, hcarries, hexchange, hsent, hends, -⟩ :=
    execute_outcome lister (.plain "GET" ["list"] "list") lister.further
      (w := .fresh [.response 204 .absent, .response 404 (.text "none")]) rfl
  have hanswer : answer = .response 204 .absent := congrArg Prod.fst hexchange.symm
  exact ⟨s, v, answer, hcarries, hexchange, hsent, hanswer, _, _, hends, rfl, rfl, rfl⟩

end Client

end Http

end SpanStore
