import SpanStore.Proofs.Store.Settings

namespace SpanStore

theorem Kind.isOwn_of_isConfiguration {k : Kind} (h : k.isConfiguration = true) :
    k.isOwn = true := by
  cases k <;> first | rfl | cases h

namespace Store

open Http (Answer Client Exchange Link Sent Wire)

section Letters

theorem toNat_toUpper (c : Char) :
    c.toUpper.toNat = if 97 ≤ c.toNat ∧ c.toNat ≤ 122 then c.toNat - 32 else c.toNat := by
  have hlower : 'a'.val ≤ c.val ∧ c.val ≤ 'z'.val ↔ 97 ≤ c.toNat ∧ c.toNat ≤ 122 := Iff.rfl
  unfold Char.toUpper
  split
  · rename_i h
    have hbounds : 97 ≤ c.val.toNat ∧ c.val.toNat ≤ 122 := h
    rw [if_pos (hlower.mp h)]
    change (c.val + ('A'.val - 'a'.val)).toNat = c.val.toNat - 32
    rw [UInt32.toNat_add]
    change (c.val.toNat + 4294967264) % 4294967296 = c.val.toNat - 32
    omega
  · rename_i h
    rw [if_neg (hlower.not.mp h)]

theorem toUpper_eq_iff {c lower upper : Char} (hupper : 65 ≤ upper.toNat ∧ upper.toNat ≤ 90)
    (hlower : lower.toNat = upper.toNat + 32) : c.toUpper = upper ↔ c ∈ [lower, upper] := by
  have hnat := toNat_toUpper c
  rw [List.mem_cons, List.mem_singleton, ← Char.toNat_inj, ← Char.toNat_inj, ← Char.toNat_inj,
    hnat]
  split <;> omega

def Red (status : String) : Prop :=
  ∃ r ∈ ['r', 'R'], ∃ e ∈ ['e', 'E'], ∃ d ∈ ['d', 'D'], status.toList = [r, e, d]

theorem isRed_iff {status : String} : isRed status = true ↔ Red status := by
  have hr (c : Char) : c.toUpper = 'R' ↔ c ∈ ['r', 'R'] := toUpper_eq_iff (by decide) rfl
  have he (c : Char) : c.toUpper = 'E' ↔ c ∈ ['e', 'E'] := toUpper_eq_iff (by decide) rfl
  have hd (c : Char) : c.toUpper = 'D' ↔ c ∈ ['d', 'D'] := toUpper_eq_iff (by decide) rfl
  rw [isRed, beq_iff_eq, Red]
  simp only [← hr, ← he, ← hd]
  constructor
  · intro h
    simp only [List.map_eq_cons_iff, List.map_eq_nil_iff] at h
    obtain ⟨r, es, htext, hr, e, ds, rfl, he, d, rest, rfl, hd, rfl⟩ := h
    exact ⟨r, hr, e, he, d, hd, htext⟩
  · rintro ⟨r, hr, e, he, d, hd, htext⟩
    rw [htext, List.map_cons, List.map_cons, List.map_cons, hr, he, hd, List.map_nil]

end Letters

section Reports

def SaysWell (body : List UInt8) : Prop :=
  ∃ status, Response.read ["status"] body = .ok (some (.text status)) ∧ ¬ Red status

/-- The faults of the bodies that do not say that the cluster is well. -/
inductive Complaint (body : List UInt8) : Fault → Prop where
  | red {status : String} (hread : Response.read ["status"] body = .ok (some (.text status)))
      (hred : Red status) : Complaint body .healthRed
  | silent {v : Option Json.Value} (hread : Response.read ["status"] body = .ok v)
      (hsilent : ∀ status, v ≠ some (.text status)) : Complaint body (.healthUnreadable body)
  | malformed (hread : Response.read ["status"] body = .error (.unreadablePath "status")) :
      Complaint body (.unreadablePath "status")
  | undecodable (hread : Response.read ["status"] body = .error .undecodableText) :
      Complaint body (.notConverted "get-cluster-health" .undecodableText)

theorem read_error_cases {names : List String} {body : List UInt8} {f : Fault}
    (h : Response.read names body = .error f) :
    f = .unreadablePath (Json.joinPlace names) ∨ f = .undecodableText := by
  unfold Response.read at h
  split at h
  · cases h
  · simp only at h
    split at h
    · cases h
    · split at h
      · rename_i flaw _
        obtain rfl := Except.error.inj h
        cases flaw with
        | malformed => exact .inl rfl
        | undecodable => exact .inr rfl
      · cases h

theorem readHealth_of_text {body : List UInt8} {status : String}
    (h : Response.read ["status"] body = .ok (some (.text status))) :
    readHealth body = if isRed status then .error .healthRed else .ok .good := by
  rw [readHealth, h]
  rfl

theorem readHealth_of_silent {body : List UInt8} {v : Option Json.Value}
    (h : Response.read ["status"] body = .ok v) (hsilent : ∀ status, v ≠ some (.text status)) :
    readHealth body = .error (.healthUnreadable body) := by
  have hnone : v.bind Json.Value.text? = none := by
    rw [Option.bind_eq_none_iff]
    intro value hvalue
    cases value with
    | text status => exact absurd hvalue (hsilent status)
    | _ => rfl
  rw [readHealth, h]
  simp only [hnone]

theorem readHealth_cases (body : List UInt8) :
    SaysWell body ∧ readHealth body = .ok .good ∨
      ∃ f, readHealth body = .error f ∧
        Complaint body (Client.conversionFault "get-cluster-health" f) := by
  cases hread : Response.read ["status"] body with
  | error f =>
      have hreport : readHealth body = .error f := by rw [readHealth, hread]
      refine .inr ⟨f, hreport, ?_⟩
      rcases read_error_cases hread with rfl | rfl
      · exact .malformed hread
      · exact .undecodable hread
  | ok v =>
      by_cases hsilent : ∀ status, v ≠ some (.text status)
      · exact .inr ⟨_, readHealth_of_silent hread hsilent, .silent hread hsilent⟩
      · obtain ⟨status, rfl⟩ := by simpa only [not_forall, not_not] using hsilent
        have hreport := readHealth_of_text hread
        by_cases hred : isRed status
        · rw [if_pos hred] at hreport
          exact .inr ⟨_, hreport, .red hread (isRed_iff.mp hred)⟩
        · rw [if_neg hred] at hreport
          exact .inl ⟨⟨status, hread, isRed_iff.not.mp hred⟩, hreport⟩

theorem SaysWell.readHealth {body : List UInt8} (h : SaysWell body) :
    readHealth body = .ok .good := by
  obtain ⟨status, hread, hred⟩ := h
  rw [readHealth_of_text hread, if_neg (isRed_iff.not.mpr hred)]

def ShowsWell (a : Answer) : Prop := ∃ body, a.accepted? = some body ∧ SaysWell body

inductive Diagnosis : Answer → Fault → Prop where
  | accepted {a : Answer} {body : List UInt8} {f : Fault} (haccepted : a.accepted? = some body)
      (hcomplaint : Complaint body f) : Diagnosis a f
  | refused {status : Int} {body : Http.Payload} (hstatus : ¬ (200 ≤ status ∧ status < 300)) :
      Diagnosis (.response status body) (.refused "get-cluster-health" status body.toBytes)
  | timedOut {f : Fault} (hkind : f.kind = .connectionTimeout) :
      Diagnosis (.fault f) (.timedOut "get-cluster-health" f)
  | notSent {f : Fault} (hkind : f.kind.isTransport = true)
      (hintime : f.kind ≠ .connectionTimeout) :
      Diagnosis (.fault f) (.notSent "get-cluster-health" f)

theorem Complaint.isOwn {body : List UInt8} {f : Fault} (h : Complaint body f) :
    f.kind.isOwn = true := by
  cases h <;> rfl

theorem Diagnosis.isOwn {a : Answer} {f : Fault} (h : Diagnosis a f) : f.kind.isOwn = true := by
  cases h with
  | accepted haccepted hcomplaint => exact hcomplaint.isOwn
  | @refused status body hstatus =>
      by_cases hmissing : status = 404
      · rw [Fault.kind, if_pos hmissing]
        rfl
      · rw [Fault.kind, if_neg hmissing]
        rfl
  | timedOut hkind => rfl
  | notSent hkind hintime => rfl

theorem converted_good_iff {a : Answer} :
    Client.converted "get-cluster-health" readHealth a = .ok .good ↔ ShowsWell a := by
  rw [Client.converted_eq_ok_iff]
  constructor
  · rintro ⟨body, haccepted, hreport⟩
    rcases readHealth_cases body with ⟨hwell, -⟩ | ⟨f, hfault, -⟩
    · exact ⟨body, haccepted, hwell⟩
    · rw [hfault] at hreport
      cases hreport
  · rintro ⟨body, haccepted, hwell⟩
    exact ⟨body, haccepted, hwell.readHealth⟩

theorem converted_cases {a : Answer} (ha : ∀ f, a = .fault f → f.kind.isTransport = true) :
    Client.converted "get-cluster-health" readHealth a = .ok .good ∨
      ∃ f, Client.converted "get-cluster-health" readHealth a = .error f ∧ Diagnosis a f := by
  cases a with
  | fault f =>
      by_cases htimeout : f.kind = .connectionTimeout
      · have houtcome : Client.wireFault "get-cluster-health" f =
            .timedOut "get-cluster-health" f := if_pos htimeout
        exact .inr ⟨_, congrArg Except.error houtcome, .timedOut htimeout⟩
      · have houtcome : Client.wireFault "get-cluster-health" f =
            .notSent "get-cluster-health" f := by
          rw [Client.wireFault, if_neg htimeout, if_pos (ha f rfl)]
        exact .inr ⟨_, congrArg Except.error houtcome, .notSent (ha f rfl) htimeout⟩
  | response status body =>
      by_cases hstatus : 200 ≤ status ∧ status < 300
      · have haccepted : (Answer.response status body).accepted? = some body.toBytes :=
          if_pos hstatus
        have houtcome : Client.outcome "get-cluster-health" (.response status body) =
            .ok body.toBytes := if_pos hstatus
        rw [Client.converted, houtcome, Except.bind]
        rcases readHealth_cases body.toBytes with ⟨-, hreport⟩ | ⟨f, hreport, hcomplaint⟩
        · rw [hreport]
          exact .inl rfl
        · rw [hreport]
          exact .inr ⟨_, rfl, .accepted haccepted hcomplaint⟩
      · have houtcome : Client.outcome "get-cluster-health" (.response status body) =
            .error (.refused "get-cluster-health" status body.toBytes) := if_neg hstatus
        rw [Client.converted, houtcome]
        exact .inr ⟨_, rfl, .refused hstatus⟩

end Reports

structure AsksHealth (index : String) (s : Sent) : Prop where
  method : s.method = "GET"
  target : s.target =
    "/_cluster/health/".toList ++ Text.Percent.encodeSegment (index ++ "-*").toList
  body : s.body = none

/-- Why a store reports a fault: there is no client, it is closed, or the cluster answered so. -/
inductive Explains (s : Storage) : List Exchange → Fault → Prop where
  | unreached {f : Fault} (hreach : (s.link.reach s.target).1 = .error f) : Explains s [] f
  | closed {c : Client} (hreach : (s.link.reach s.target).1 = .ok c)
      (hclosed : s.link.wire.isClosed = true) : Explains s [] (.closedToCalls "get-cluster-health")
  | diagnosed {e : Exchange} {f : Fault} (h : Diagnosis e.answer f) : Explains s [e] f

structure Checks (s : Storage) (es : List Exchange) (health : Health) : Prop where
  reports : s.check.1 = .ok health
  sends : Wire.Sends s.link.wire es s.check.2.link.wire
  once : es.length ≤ 1
  asks : ∀ e ∈ es, AsksHealth s.config.index e.request
  good_iff : health = .good ↔ ∃ e ∈ es, ShowsWell e.answer
  explains : ∀ f, health = .bad f → f.kind.isOwn = true ∧ Explains s es f
  keeps : ∃ link, s.check.2 = { s with link := link }

namespace Storage

/-- The client is there or was refused for good, or making it now gives it or fails with a fault of
the store's own. -/
def Connectable (s : Storage) : Prop :=
  s.link.client.isReady = true ∨ (∃ f, s.link.client.phase = .failed f) ∨
    ∀ f, (Net.Pool.connect s.config.hosts s.config.connection Net.systemLookup
      s.link.surroundings.directory).1 = .error f → f.kind.isOwn = true

def healthCall (s : Storage) (c : Client) : Http.Call Health :=
  c.execute (healthRequest s.naming.all) (Http.Call.ofConversion readHealth)

variable {s : Storage} {link : Link} {es : List Exchange} {f : Fault}

theorem check_of_ok {h : Health} (hcall : s.link.call s.target s.healthCall = (.ok h, link)) :
    s.check = (.ok h, { s with link := link }) := by
  unfold healthCall at hcall
  rw [check, onLink, hcall]

theorem check_of_error (hcall : s.link.call s.target s.healthCall = (.error f, link))
    (hown : f.kind.isOwn = true) : s.check = (.ok (.bad f), { s with link := link }) := by
  unfold healthCall at hcall
  rw [check, onLink, hcall]
  exact if_pos hown

theorem isOwn_of_unreached (hconnect : s.Connectable)
    (hkept : s.link.client.KeepsOnlyConfiguration)
    (hreach : (s.link.reach s.target).1 = .error f) : f.kind.isOwn = true := by
  rcases Link.reach_error_cases hreach with hfailed | ⟨hmissing, hnew, hfault⟩
  · exact Kind.isOwn_of_isConfiguration (hkept f hfailed)
  · rcases hconnect with hready | ⟨g, hfailed⟩ | hown
    · rw [hmissing] at hready
      cases hready
    · exact absurd hfailed (hnew g)
    · exact hown f hfault

theorem checks_bad (hcall : s.link.call s.target s.healthCall = (.error f, link))
    (hown : f.kind.isOwn = true) (hexplains : Explains s es f)
    (hsends : Wire.Sends s.link.wire es link.wire)
    (hasks : ∀ e ∈ es, AsksHealth s.config.index e.request)
    (hill : ∀ e ∈ es, ¬ ShowsWell e.answer) : Checks s es (.bad f) := by
  have hcheck := check_of_error hcall hown
  constructor
  · rw [hcheck]
  · rw [hcheck]
    exact hsends
  · cases hexplains <;> simp
  · exact hasks
  · constructor
    · exact nofun
    · rintro ⟨e, he, hwell⟩
      exact absurd hwell (hill e he)
  · intro g hg
    cases hg
    exact ⟨hown, hexplains⟩
  · rw [hcheck]
    exact ⟨link, rfl⟩

theorem checks_good {e : Exchange} (hcall : s.link.call s.target s.healthCall = (.ok .good, link))
    (hsends : Wire.Sends s.link.wire [e] link.wire) (hasks : AsksHealth s.config.index e.request)
    (hwell : ShowsWell e.answer) : Checks s [e] .good := by
  have hcheck := check_of_ok hcall
  constructor
  · rw [hcheck]
  · rw [hcheck]
    exact hsends
  · exact Nat.le_refl 1
  · exact List.forall_mem_singleton.mpr hasks
  · exact iff_of_true rfl ⟨e, List.mem_singleton_self e, hwell⟩
  · exact nofun
  · rw [hcheck]
    exact ⟨link, rfl⟩

theorem asksHealth_request (timeout : Quantity) :
    AsksHealth s.config.index ((healthRequest s.naming.all).toSent timeout) where
  method := rfl
  target := by
    have htarget : ((healthRequest s.naming.all).toSent timeout).target =
        "/_cluster/health/".toList ++ (Text.Percent.encodeSegment s.naming.all.toList ++ []) := rfl
    rw [htarget, List.append_nil]
    rfl
  body := rfl

theorem exists_checks (hconnect : s.Connectable) (hkept : s.link.client.KeepsOnlyConfiguration)
    (hanswer : ∀ f, s.link.wire.answers.head? = some (.fault f) → f.kind.isTransport = true) :
    ∃ es health, Checks s es health := by
  cases hreach : (s.link.reach s.target).1 with
  | error f =>
      have hcall := Link.call_of_reach_error s.healthCall hreach
      have hown := isOwn_of_unreached hconnect hkept hreach
      have hsends : Wire.Sends s.link.wire [] (s.link.reach s.target).2.wire := by
        rw [s.link.reach_wire]
        exact .refl
      exact ⟨[], _, checks_bad hcall hown (.unreached hreach) hsends nofun nofun⟩
  | ok c =>
      have hcall := Link.call_of_reach_ok s.healthCall hreach
      cases hclosed : s.link.wire.isClosed with
      | true =>
          rw [healthCall, c.execute_closed _ _ hclosed] at hcall
          exact ⟨[], _, checks_bad hcall rfl (.closed hreach hclosed) .refl nofun nofun⟩
      | false =>
          have hasks := s.asksHealth_request c.config.requestTimeout
          have hsends := Wire.Sends.one s.link.wire
            ((healthRequest s.naming.all).toSent c.config.requestTimeout)
          rw [healthCall, c.execute_pure_open _ _ hclosed] at hcall
          generalize (healthRequest s.naming.all).toSent c.config.requestTimeout = sent at *
          have hfault : ∀ f, (s.link.wire.exchange sent).1 = .fault f → f.kind.isTransport = true :=
            fun f hf => hanswer f (Wire.exchange_fault hf)
          rcases converted_cases hfault with hgood | ⟨f, hbad, hdiagnosis⟩
          · have hwell := converted_good_iff.mp hgood
            exact ⟨_, _, checks_good (hcall.trans (by rw [← hgood]; rfl)) hsends hasks hwell⟩
          · have hill : ¬ ShowsWell (s.link.wire.exchange sent).1 := by
              rw [← converted_good_iff, hbad]
              exact nofun
            exact ⟨_, _, checks_bad (hcall.trans (by rw [← hbad]; rfl)) hdiagnosis.isOwn
              (.diagnosed hdiagnosis) hsends (List.forall_mem_singleton.mpr hasks)
              (List.forall_mem_singleton.mpr hill)⟩

end Storage

/-- At any point of any visit a check reports, provided that only a fault of the store's own keeps
it from its client, and only the transport fails on the way. -/
theorem run_checks (c : Config) (script : List Answer) (directory : Net.Directory)
    (acts : List Act) {s : Storage}
    (hs : ((Visit.start c script directory).run acts).2.store = s) (hconnect : s.Connectable)
    (hanswer : ∀ f, s.link.wire.answers.head? = some (.fault f) → f.kind.isTransport = true) :
    s.config = c ∧ ∃ es health, Checks s es health := by
  constructor
  · rw [← hs]
    exact Visit.run_config c script directory acts
  · have hmoves := (Visit.start c script directory).run_moves acts
    have hfresh : (Visit.start c script directory).store.link.client.KeepsOnlyConfiguration := nofun
    have hkept := hmoves.keepsOnlyConfiguration hfresh
    rw [hs] at hkept
    exact s.exists_checks hconnect hkept hanswer

def Health.words? : Health → Option String
  | .good => none
  | .bad f => f.text?

def ailing : List Answer :=
  [.fault (.raise .connectionLost ""), .response 200 (.text "\x7b\"status\":\"rEd\"\x7d")]

def unsettled : Storage := ((Visit.start {} ailing ⟨[], []⟩).run [.ensure]).2.store

theorem run_checks_ailing :
    unsettled.Connectable ∧
      (∀ f, unsettled.link.wire.answers.head? = some (.fault f) → f.kind.isTransport = true) ∧
      ∃ es f, Checks unsettled es (.bad f) ∧ f.text? = some "健康状态为 RED" := by
  have hconnect : unsettled.Connectable := .inl (by decide +kernel)
  have hhead : unsettled.link.wire.answers.head? =
      some (.response 200 (.text "\x7b\"status\":\"rEd\"\x7d")) := rfl
  have hanswer : ∀ f, unsettled.link.wire.answers.head? = some (.fault f) →
      f.kind.isTransport = true := by
    rw [hhead]
    exact nofun
  have hwords : unsettled.check.1.toOption.bind Health.words? = some "健康状态为 RED" := by
    decide +kernel
  obtain ⟨-, es, health, hchecks⟩ :=
    run_checks {} ailing ⟨[], []⟩ [.ensure] (s := unsettled) rfl hconnect hanswer
  rw [hchecks.reports] at hwords
  cases health with
  | good => cases hwords
  | bad f => exact ⟨hconnect, hanswer, es, f, hchecks, hwords⟩

end Store

end SpanStore
