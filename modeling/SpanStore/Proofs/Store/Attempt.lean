import SpanStore.Proofs.Http.Reach
import SpanStore.Proofs.Store.Preparation

/-!
One attempt to make sure of the schema, as the exchanges that it consists of and what it gives. It
asks for the version, then for the template, and installs the template if it is missing; it ends
with the first request that leaves nothing to do or cannot be followed by another.
-/
namespace SpanStore.Store

open Http (Answer Call Client Exchange Link Sent Wire)
open Template (Branch IndexTemplate Schema)

def nameTarget (name : String) : List Char :=
  templatesPath ++ Text.Percent.encodeSegment name.toList

def LooksFor (name : String) (s : Sent) : Prop := s.method = "GET" ∧ s.target = nameTarget name

def InstallsAs (name text : String) (s : Sent) : Prop :=
  s.method = "PUT" ∧ s.target = nameTarget name ∧ s.body = some (Text.Utf8.encode text.toList)

def told (a : Answer) : Except Fault String :=
  Client.converted Template.versionRequest.tag Template.readVersion a

theorem told_eq_ok_iff {a : Answer} {version : String} :
    told a = .ok version ↔ ∃ body, a.accepted? = some body ∧
      Response.read ["version", "number"] body = .ok (some (.text version)) := by
  simp only [told, Client.converted_eq_ok_iff, readVersion_eq_ok_iff]

/-- The template of a name is looked for and installed if it is missing, and only then. -/
inductive Installation (name text : String) : List Exchange → Except Fault Bool → Prop where
  | found {look : Exchange} (hlook : LooksFor name look.request)
      (hfound : look.answer.accepted?.isSome = true) : Installation name text [look] (.ok false)
  | unclear {look : Exchange} {f : Fault} (hlook : LooksFor name look.request)
      (hother : look.answer.status? ≠ some 404)
      (hfailed : Client.outcome "get-template" look.answer = .error f) :
      Installation name text [look] (.error f)
  | installed {look install : Exchange} (hlook : LooksFor name look.request)
      (hmissing : look.answer.status? = some 404) (hinstall : InstallsAs name text install.request)
      (hinstalled : install.answer.accepted?.isSome = true) :
      Installation name text [look, install] (.ok true)
  | rejected {look install : Exchange} {f : Fault} (hlook : LooksFor name look.request)
      (hmissing : look.answer.status? = some 404) (hinstall : InstallsAs name text install.request)
      (hfailed : Client.outcome "update-template" install.answer = .error f) :
      Installation name text [look, install] (.error f)

/-- An attempt with what reaching the client gave. Without a client nothing is sent. -/
inductive Attempt (name : String) (template : IndexTemplate) :
    Except Fault Client → List Exchange → Except Fault Unit → Prop where
  | unreached {f : Fault} : Attempt name template (.error f) [] (.error f)
  | untold {c : Client} {root : Exchange} {f : Fault} (hroot : Greets root.request)
      (htold : told root.answer = .error f) : Attempt name template (.ok c) [root] (.error f)
  | unsupported {c : Client} {root : Exchange} {version : String} (hroot : Greets root.request)
      (htold : told root.answer = .ok version)
      (hmajor : ∀ b, (Text.cut (· == '.') (Text.trim version.toList)).1 ≠ [majorDigit b]) :
      Attempt name template (.ok c) [root] (.error (.unsupportedVersion (some version)))
  | failed {c : Client} {root : Exchange} {b : Branch} {es : List Exchange} {f : Fault}
      (hroot : Announces b root)
      (hinstall : Installation name (template.renderText b) es (.error f)) :
      Attempt name template (.ok c) (root :: es) (.error f)
  | succeeded {c : Client} {root : Exchange} {b : Branch} {es : List Exchange} {installed : Bool}
      (hroot : Announces b root)
      (hinstall : Installation name (template.renderText b) es (.ok installed)) :
      Attempt name template (.ok c) (root :: es) (.ok ())

def Receptive (w : Wire) : Prop := w.isClosed = false ∧ w.Answers Foreign

theorem Receptive.exchange {w : Wire} (h : Receptive w) (s : Sent) :
    Foreign (w.exchange s).1 ∧ Receptive (w.exchange s).2 := by
  obtain ⟨hopen, hanswers⟩ := h
  obtain ⟨hforeign, hrest⟩ := hanswers.exchange s
  exact ⟨hforeign, hopen, hrest⟩

section Calls

variable {w : Wire} (c : Client)

theorem version_told (h : Receptive w) :
    Template.version c w =
      (told (w.exchange (Template.versionRequest.toSent c.config.requestTimeout)).1,
        (w.exchange (Template.versionRequest.toSent c.config.requestTimeout)).2) :=
  c.execute_pure_open Template.versionRequest Template.readVersion h.1

theorem isSome_accepted? {tag : String} {a : Answer} {body : List UInt8}
    (h : Client.outcome tag a = .ok body) : a.accepted?.isSome = true := by
  rw [Client.outcome_eq_ok_iff.mp h]
  rfl

theorem lookRequest_looksFor (name : String) (timeout : Quantity) :
    LooksFor name ((Template.lookRequest name).toSent timeout) := by
  have htarget : ((Template.lookRequest name).toSent timeout).target =
      templatesPath ++ (Text.Percent.encodeSegment name.toList ++ []) := rfl
  refine ⟨rfl, ?_⟩
  rw [htarget, List.append_nil, nameTarget]

theorem installRequest_installsAs (name text : String) (timeout : Quantity) :
    InstallsAs name text ((Template.installRequest name text).toSent timeout) := by
  have htarget : ((Template.installRequest name text).toSent timeout).target =
      templatesPath ++ (Text.Percent.encodeSegment name.toList ++ []) := rfl
  refine ⟨rfl, ?_, rfl⟩
  rw [htarget, List.append_nil, nameTarget]

theorem install_installation (name text : String) (h : Receptive w) :
    ∃ es, Wire.Sends w es (Template.install name text c w).2 ∧
      Receptive (Template.install name text c w).2 ∧
      Installation name text es (Template.install name text c w).1 := by
  have hlook := lookRequest_looksFor name c.config.requestTimeout
  have hput := installRequest_installsAs name text c.config.requestTimeout
  obtain ⟨hforeign, hw⟩ := h.exchange
    ((Template.lookRequest name).toSent c.config.requestTimeout)
  have hsends := Wire.Sends.one w ((Template.lookRequest name).toSent c.config.requestTimeout)
  unfold Template.install
  rw [c.execute_ignore_open _ h.1]
  generalize (Template.lookRequest name).toSent c.config.requestTimeout = look at *
  cases houtcome : Client.outcome (Template.lookRequest name).tag (w.exchange look).1 with
  | ok body => exact ⟨_, hsends, hw, .found hlook (isSome_accepted? houtcome)⟩
  | error f =>
      have hmissing := Client.outcome_notFound houtcome hforeign
      simp only [Except.map]
      split
      · rename_i hkind
        rw [c.execute_ignore_open _ hw.1]
        have hsends' := hsends.trans (.one _
          ((Template.installRequest name text).toSent c.config.requestTimeout))
        have hw' := (hw.exchange
          ((Template.installRequest name text).toSent c.config.requestTimeout)).2
        generalize (Template.installRequest name text).toSent c.config.requestTimeout = put at *
        cases hresult : Client.outcome (Template.installRequest name text).tag
            ((w.exchange look).2.exchange put).1 with
        | ok body =>
            exact ⟨_, hsends', hw',
              .installed hlook (hmissing.mp hkind) hput (isSome_accepted? hresult)⟩
        | error g => exact ⟨_, hsends', hw', .rejected hlook (hmissing.mp hkind) hput hresult⟩
      · rename_i hkind
        exact ⟨_, hsends, hw, .unclear hlook (fun hstatus => hkind (hmissing.mpr hstatus)) houtcome⟩

end Calls

/-- Making sure of the schema is one attempt, and it changes its link only as reaching the client
and sending do. -/
theorem bootstrap_attempt (s : Schema) {l : Link} (h : Receptive l.wire) :
    ∃ es w, (s.bootstrap l).2 = (l.reach s.target).2.withWire w ∧ Wire.Sends l.wire es w ∧
      Receptive w ∧ Attempt s.name s.template (l.reach s.target).1 es (s.bootstrap l).1 := by
  unfold Schema.bootstrap
  cases hreach : (l.reach s.target).1 with
  | error f =>
      have hwire : (l.reach s.target).2.withWire l.wire = (l.reach s.target).2 := by
        rw [← l.reach_wire s.target]
        rfl
      rw [Link.call_of_reach_error _ hreach]
      exact ⟨[], l.wire, hwire.symm, .refl, h, .unreached⟩
  | ok c =>
      have hgreets : Greets (Template.versionRequest.toSent c.config.requestTimeout) := ⟨rfl, rfl⟩
      have hsends := Wire.Sends.one l.wire
        (Template.versionRequest.toSent c.config.requestTimeout)
      obtain ⟨-, hw⟩ := h.exchange (Template.versionRequest.toSent c.config.requestTimeout)
      rw [Link.call_of_reach_ok _ hreach, version_told c h]
      generalize Template.versionRequest.toSent c.config.requestTimeout = root at *
      cases htold : told (l.wire.exchange root).1 with
      | error f => exact ⟨_, _, rfl, hsends, hw, .untold hgreets htold⟩
      | ok version =>
          simp only
          cases hbranch : Branch.ofVersion (some version) with
          | error f =>
              have hmajor (b : Branch) :
                  (Text.cut (· == '.') (Text.trim version.toList)).1 ≠ [majorDigit b] := by
                intro hb
                rw [ofVersion_eq_ok_iff.mpr hb] at hbranch
                cases hbranch
              obtain rfl : .unsupportedVersion (some version) = f := by
                unfold Branch.ofVersion at hbranch
                split at hbranch <;> cases hbranch
                rfl
              exact ⟨_, _, rfl, hsends, hw, .unsupported hgreets htold hmajor⟩
          | ok b =>
              obtain ⟨body, hbody, hread⟩ := told_eq_ok_iff.mp htold
              have hroot : Announces b ⟨root, (l.wire.exchange root).1⟩ :=
                ⟨hgreets, body, version, hbody, hread, ofVersion_eq_ok_iff.mp hbranch⟩
              obtain ⟨es, hsends', hw', hinstall⟩ :=
                install_installation c s.name (s.template.renderText b) hw
              simp only [Link.call_again _ hreach]
              cases hresult : (Template.install s.name (s.template.renderText b) c
                  (l.wire.exchange root).2).1 with
              | error f =>
                  rw [hresult] at hinstall
                  exact ⟨_, _, rfl, hsends.trans hsends', hw', .failed hroot hinstall⟩
              | ok installed =>
                  rw [hresult] at hinstall
                  exact ⟨_, _, rfl, hsends.trans hsends', hw', .succeeded hroot hinstall⟩

end SpanStore.Store
