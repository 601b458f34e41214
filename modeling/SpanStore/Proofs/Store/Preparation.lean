import SpanStore.Proofs.Store.Guard

namespace SpanStore.Store

open Http (Answer Call Client Exchange Link Sent Wire)
open Template (Branch Schema)

/-- The transport knows nothing of the fault that the store has for what was not found. -/
def Foreign (a : Answer) : Prop := ∀ f, a = .fault f → f.kind ≠ .notFound

theorem foreign_response (status : Int) (body : Http.Payload) :
    Foreign (.response status body) := by
  intro f hf
  cases hf

theorem foreign_fault {f : Fault} (h : f.kind ≠ .notFound) : Foreign (.fault f) := by
  intro g hg
  cases hg
  exact h

def Leads (c : Config) (w : Wire) (g : Gate) (v : Wire) (g' : Gate) : Prop :=
  ∃ es, Wire.Sends w es v ∧ Guarded c g es ∧ es.foldl (Gate.advance c) g = g'

namespace Leads

variable {c : Config} {u v w : Wire} {g g' g'' : Gate}

theorem refl (w : Wire) (g : Gate) : Leads c w g w g := ⟨[], .refl, trivial, rfl⟩

theorem trans (h : Leads c u g v g') (h' : Leads c v g' w g'') : Leads c u g w g'' := by
  obtain ⟨es, hsends, hguarded, rfl⟩ := h
  obtain ⟨fs, hsends', hguarded', rfl⟩ := h'
  exact ⟨es ++ fs, hsends.trans hsends', hguarded.append hguarded', List.foldl_append⟩

theorem close (h : Leads c u g v g') : Leads c u g v.close g' := by
  obtain ⟨es, hsends, hrest⟩ := h
  exact ⟨es, hsends.close, hrest⟩

theorem answers (h : Leads c u g v g') {P : Answer → Prop} (hu : u.Answers P) : v.Answers P := by
  obtain ⟨es, hsends, -⟩ := h
  exact hsends.answers hu

theorem opened (h : Leads c u .opened v g') : g' = .opened := by
  obtain ⟨es, -, -, rfl⟩ := h
  exact Gate.foldl_opened es

theorem prepare (w : Wire) {s : Sent} (hs : s.method ≠ "POST") (hg : g ≠ .opened) :
    Leads c w g (w.exchange s).2 (g.advance c ⟨s, (w.exchange s).1⟩) := by
  refine ⟨_, Wire.Sends.one w s, ⟨?_, fun h => absurd h hg, trivial⟩, rfl⟩
  rintro (hwrites | hsearches)
  · exact absurd hwrites.post.1 hs
  · exact absurd hsearches.post.1 hs

theorem of_manages {α : Type} {call : Call α} (h : Call.Within Manages call) (w : Wire)
    (g : Gate) : ∃ g', Leads c w g (call w).2 g' ∧ (g' = .opened ↔ g = .opened) := by
  obtain ⟨es, hsends, hes⟩ := h w
  obtain ⟨hguarded, hopened⟩ := Guarded.of_manages (c := c) hes g
  exact ⟨_, ⟨es, hsends, hguarded, rfl⟩, hopened⟩

theorem of_opened {α : Type} {call : Call α} (h : Call.Within (fun s => ¬ Prepares s) call)
    (w : Wire) : Leads c w .opened (call w).2 .opened := by
  obtain ⟨es, hsends, hes⟩ := h w
  exact ⟨es, hsends, .of_opened hes, Gate.foldl_opened es⟩

end Leads

section Attempt

variable {c : Config} (client : Client) {w : Wire} {g : Gate}

theorem version_leads (w : Wire) (hg : g ≠ .opened) :
    ∃ g', Leads c w g (Template.version client w).2 g' ∧ g' ≠ .opened ∧
      ∀ number b, (Template.version client w).1 = .ok number →
        Branch.ofVersion (some number) = .ok b → g' = .announced b := by
  have hgreets : Greets (Template.versionRequest.toSent client.config.requestTimeout) := ⟨rfl, rfl⟩
  rw [Template.version]
  rcases client.execute_pure_cases Template.versionRequest Template.readVersion w with
    hcall | hcall
  · rw [hcall]
    exact ⟨g, .refl w g, hg, nofun⟩
  · rw [hcall]
    refine ⟨_, .prepare w (show "GET" ≠ "POST" by decide) hg, ?_, ?_⟩
    · rw [Gate.advance_greets hg hgreets]
      cases announced? _ with
      | none => exact nofun
      | some b => exact nofun
    · intro number b hnumber hbranch
      obtain ⟨body, hbody, hread⟩ := Client.converted_eq_ok_iff.mp hnumber
      exact Gate.advance_announces hg ⟨hgreets, body, number, hbody,
        readVersion_eq_ok_iff.mp hread, ofVersion_eq_ok_iff.mp hbranch⟩

variable {name : String} {text : Branch → String}

theorem lookRequest_looks (hname : name = c.index ++ "_template") (timeout : Quantity) :
    Looks c ((Template.lookRequest name).toSent timeout) := by
  subst hname
  have htarget : ((Template.lookRequest (c.index ++ "_template")).toSent timeout).target =
      templatesPath ++ (Text.Percent.encodeSegment (c.index ++ "_template").toList ++ []) := rfl
  refine ⟨rfl, ?_⟩
  rw [htarget, List.append_nil, templatePath]

theorem installRequest_installs (hname : name = c.index ++ "_template") (b : Branch)
    (timeout : Quantity) :
    Installs c b
      ((Template.installRequest name ((template c).renderText b)).toSent timeout) := by
  subst hname
  have htarget : ((Template.installRequest (c.index ++ "_template")
      ((template c).renderText b)).toSent timeout).target =
      templatesPath ++ (Text.Percent.encodeSegment (c.index ++ "_template").toList ++ []) := rfl
  refine ⟨rfl, ?_, rfl⟩
  rw [htarget, List.append_nil, templatePath]

theorem install_missing_leads (hname : name = c.index ++ "_template") (b : Branch) (w : Wire) :
    ∃ g', Leads c w (.missing b) (client.execute
        (Template.installRequest name ((template c).renderText b)) Call.ignore w).2 g' ∧
      ((client.execute (Template.installRequest name ((template c).renderText b))
        Call.ignore w).1 = .ok () ↔ g' = .opened) := by
  have hinstalls := installRequest_installs hname b client.config.requestTimeout
  generalize Template.installRequest name ((template c).renderText b) = r at hinstalls
  have hmethod : (r.toSent client.config.requestTimeout).method ≠ "POST" := by
    rw [hinstalls.1]
    decide
  rcases client.execute_pure_cases r (fun _ => .ok ()) w with hcall | hcall
  · change client.execute r Call.ignore w = _ at hcall
    rw [hcall]
    exact ⟨_, .refl w _, by simp⟩
  · change client.execute r Call.ignore w = _ at hcall
    rw [hcall]
    refine ⟨_, .prepare w hmethod nofun, ?_⟩
    have hnone := Gate.announced?_eq_none (Gate.not_greets_of_installs hinstalls)
      (w.exchange (r.toSent client.config.requestTimeout)).1
    simp [Client.converted_eq_ok_iff, Gate.advance, hinstalls, hnone, Option.isSome_iff_exists]

theorem install_leads (hname : name = c.index ++ "_template") (b : Branch)
    (hanswers : w.Answers Foreign) :
    ∃ g', Leads c w (.announced b)
        (Template.install name ((template c).renderText b) client w).2 g' ∧
      ((∃ installed, (Template.install name ((template c).renderText b) client w).1 =
        .ok installed) ↔ g' = .opened) := by
  have hlooks := lookRequest_looks hname client.config.requestTimeout
  unfold Template.install
  rcases client.execute_pure_cases (Template.lookRequest name) (fun _ => .ok ()) w with
    hcall | hcall
  · change client.execute _ Call.ignore w = _ at hcall
    rw [hcall]
    exact ⟨_, .refl w _, by simp [Fault.kind]⟩
  · change client.execute _ Call.ignore w = _ at hcall
    have hclosed : Gate.announced b ≠ .opened := by
      intro h
      cases h
    have hleads : Leads c w (.announced b) _ _ := .prepare w
      (s := (Template.lookRequest name).toSent client.config.requestTimeout)
      (show "GET" ≠ "POST" by decide) hclosed
    have hforeign := (hanswers.exchange
      ((Template.lookRequest name).toSent client.config.requestTimeout)).1
    rw [hcall]
    generalize (Template.lookRequest name).toSent client.config.requestTimeout = s at *
    cases hlook : Client.converted (Template.lookRequest name).tag (fun _ => .ok ())
        (w.exchange s).1 with
    | ok u =>
        obtain ⟨body, hbody, -⟩ := Client.converted_eq_ok_iff.mp hlook
        exact ⟨_, hleads, by simp [Gate.advance, hlooks, hbody]⟩
    | error f =>
        have houtcome := Client.outcome_of_ignored_error hlook
        have hrefused := Client.accepted?_eq_none_of_error houtcome
        have hmissing := Client.outcome_notFound houtcome hforeign
        -- The fault alone decides whether the template is installed, not the status.
        by_cases hkind : f.kind = .notFound
        · have hgate : Gate.advance c (.announced b) ⟨s, (w.exchange s).1⟩ = .missing b := by
            simp [Gate.advance, hlooks, hrefused, hmissing.mp hkind]
          rw [hgate] at hleads
          obtain ⟨g', hinstall, hopened⟩ :=
            install_missing_leads client hname b (w.exchange s).2
          simp only [hkind, if_true]
          cases hexecute : client.execute
              (Template.installRequest name ((template c).renderText b)) Call.ignore
              (w.exchange s).2 with
          | mk result v =>
              rw [hexecute] at hinstall hopened
              cases result with
              | error f => exact ⟨g', hleads.trans hinstall, by simpa using hopened⟩
              | ok u => exact ⟨g', hleads.trans hinstall, by simpa using hopened⟩
        · have hstatus : ¬ (w.exchange s).1.status? = some 404 :=
            fun h => hkind (hmissing.mpr h)
          have hgate : Gate.advance c (.announced b) ⟨s, (w.exchange s).1⟩ = .shut := by
            simp [Gate.advance, hlooks, hrefused, hstatus]
          rw [hgate] at hleads
          refine ⟨.shut, ?_, ?_⟩
          · simpa [hkind] using hleads
          · simp [hkind]

end Attempt

section Schema

variable {c : Config} {s : Schema} {l : Link} {g : Gate}

def Wanted (c : Config) (s : Schema) : Prop :=
  s.template = template c ∧ s.name = c.index ++ "_template"

theorem bootstrap_leads (hs : Wanted c s) (hanswers : l.wire.Answers Foreign) (hg : g ≠ .opened) :
    ∃ g', Leads c l.wire g (s.bootstrap l).2.wire g' ∧
      ((s.bootstrap l).1 = .ok () ↔ g' = .opened) := by
  obtain ⟨htemplate, hname⟩ := hs
  unfold Schema.bootstrap
  have hversion := l.call_cases s.target Template.version
  cases hcall : l.call s.target Template.version with
  | mk result k =>
      rw [hcall] at hversion
      rcases hversion with ⟨f, rfl, hwire⟩ | ⟨client, hresult, hwire⟩
      · refine ⟨g, ?_, by simp [hg]⟩
        rw [hwire]
        exact .refl _ _
      · obtain ⟨g', hleads, hg', hannounced⟩ := version_leads (c := c) client l.wire hg
        rw [← hwire] at hleads
        rw [← hresult] at hannounced
        cases result with
        | error f => exact ⟨g', hleads, by simp [hg']⟩
        | ok number =>
            cases hbranch : Branch.ofVersion (some number) with
            | error f => exact ⟨g', by simpa [hbranch] using hleads, by simp [hg', hbranch]⟩
            | ok b =>
                obtain rfl := hannounced number b rfl hbranch
                have hinstall :=
                  k.call_cases s.target (Template.install s.name (s.template.renderText b))
                simp only [hbranch]
                cases hcall : k.call s.target
                    (Template.install s.name (s.template.renderText b)) with
                | mk result m =>
                    rw [hcall] at hinstall
                    rcases hinstall with ⟨f, rfl, hwire⟩ | ⟨client, hresult, hwire⟩
                    · refine ⟨.announced b, ?_, by simp⟩
                      rw [hwire]
                      exact hleads
                    · obtain ⟨g', hleads', hopened⟩ :=
                        install_leads client hname b (hleads.answers hanswers)
                      rw [← htemplate, ← hwire] at hleads'
                      rw [← htemplate, ← hresult] at hopened
                      refine ⟨g', ?_, ?_⟩
                      · cases result <;> exact hleads.trans hleads'
                      · cases result with
                        | error f => simpa using hopened
                        | ok installed => simpa using hopened

/-- The schema is ready exactly if the gate is open, and stays so. -/
theorem ensure_leads (hs : Wanted c s) (hanswers : l.wire.Answers Foreign)
    (hready : s.once.phase = .ready () ↔ g = .opened) :
    ∃ g', Leads c l.wire g (s.ensure l).2.2.wire g' ∧
      ((s.ensure l).2.1.once.phase = .ready () ↔ g' = .opened) ∧
      ((s.ensure l).1 = .ok () → g' = .opened) := by
  by_cases hphase : s.once.phase = .ready ()
  · rw [Schema.ensure, Once.get_ready _ hphase]
    exact ⟨g, .refl _ g, hready, fun _ => hready.mp hphase⟩
  · by_cases hfailed : ∃ f, s.once.phase = .failed f
    · obtain ⟨f, hf⟩ := hfailed
      rw [Schema.ensure, Once.get_failed _ hf]
      exact ⟨g, .refl _ g, hready, nofun⟩
    · have hclosed : g ≠ .opened := fun hg => hphase (hready.mpr hg)
      have hvalue : ∀ a, s.once.phase ≠ .ready a := fun _ => hphase
      have hfault : ∀ f, s.once.phase ≠ .failed f := fun f hf => hfailed ⟨f, hf⟩
      obtain ⟨g', hleads, hopened⟩ := bootstrap_leads hs hanswers hclosed
      rw [Schema.ensure, Once.get_compute _ hvalue hfault]
      refine ⟨g', hleads, ?_, hopened.mp⟩
      exact (Once.settle_ready_iff _).trans hopened

end Schema

end SpanStore.Store
