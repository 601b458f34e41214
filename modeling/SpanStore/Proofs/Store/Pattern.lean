import SpanStore.Proofs.Calendar.Pattern
import SpanStore.Proofs.Http.Target
import SpanStore.Proofs.Store.Bootstrap
import SpanStore.Proofs.Store.Settings
import SpanStore.Proofs.Template.Rendering

namespace SpanStore.Store

open Http (Addresses Call Client Exchange Link Sent Wire)
open Template (Branch Schema)

section Installing

variable {c : Config}

def PutsTemplate (c : Config) (s : Sent) : Prop := s.method = "PUT" → ∃ b, Installs c b s

theorem version_puts (client : Client) : (Template.version client).Within (PutsTemplate c) := by
  have hmethod : ¬ "GET" = "PUT" := by decide
  exact .execute (fun hput => absurd hput hmethod) (.of_conversion Template.readVersion)

theorem install_puts {name : String} (hname : name = c.index ++ "_template") (b : Branch)
    (client : Client) :
    (Template.install name ((template c).renderText b) client).Within (PutsTemplate c) := by
  have hmethod : ¬ "GET" = "PUT" := by decide
  have hinstalls := installRequest_installs hname b client.config.requestTimeout
  exact install_within name _ client (fun hput => absurd hput hmethod) fun _ => ⟨b, hinstalls⟩

theorem bootstrap_puts {s : Schema} (hs : Wanted c s) (l : Link) :
    Link.Sending (PutsTemplate c) l (s.bootstrap l).2 := by
  obtain ⟨htemplate, hname⟩ := hs
  have hversion := Link.Sending.call (version_puts (c := c)) s.target l
  unfold Schema.bootstrap
  cases hcall : l.call s.target Template.version with
  | mk result m =>
      rw [hcall] at hversion
      cases result with
      | error f => exact hversion
      | ok number =>
          simp only
          cases Branch.ofVersion (some number) with
          | error f => exact hversion
          | ok b =>
              have hinstall := Link.Sending.call (install_puts hname b) s.target m
              rw [← htemplate] at hinstall
              simp only
              split <;>
              · rename_i hcall'
                rw [hcall'] at hinstall
                exact hversion.trans hinstall

theorem ensure_puts {s : Storage} (hs : Wanted c s.schema) :
    Link.Sending (PutsTemplate c) s.link s.ensure.2.link :=
  Once.get_kept (P := fun l => Link.Sending (PutsTemplate c) s.link l)
    (fun _ l h => h.trans (bootstrap_puts hs l)) s.schema.once (.of_wire rfl)

end Installing

/-- Exchanges for the rows of segments in this order, of which the last may be left out. -/
def AsksFor (rows : List (List String)) (es : List Exchange) : Prop :=
  List.Forall₂ (fun segments e => Addresses segments [] e.request.target) (rows.take es.length) es

def Present (s : Storage) : Prop :=
  (∃ c, (s.link.reach s.target).1 = .ok c) ∧ s.link.wire.isClosed = false

section Asking

variable {α : Type} {rows : List (List String)} {s : Storage} {f : Client → Call α}

theorem asksFor_nil (rows : List (List String)) : AsksFor rows [] := .nil

theorem call_asks (hclosed : ∀ c w, w.isClosed = true → (f c w).2 = w)
    (hopen : ∀ c w, w.isClosed = false →
      ∃ es, es ≠ [] ∧ Wire.Sends w es (f c w).2 ∧ AsksFor rows es) :
    ∃ es, Wire.Sends s.link.wire es (s.link.call s.target f).2.wire ∧ AsksFor rows es ∧
      (Present s → es ≠ []) := by
  cases hreach : (s.link.reach s.target).1 with
  | error e =>
      have hwire := s.link.reach_wire s.target
      refine ⟨[], ?_, asksFor_nil rows, ?_⟩
      · rw [Link.call_of_reach_error f hreach, hwire]
        exact .refl
      · rintro ⟨⟨c, hc⟩, -⟩
        rw [hreach] at hc
        cases hc
  | ok c =>
      rw [Link.call_of_reach_ok f hreach, Link.withWire_wire]
      cases hwire : s.link.wire.isClosed with
      | true =>
          refine ⟨[], ?_, asksFor_nil rows, fun hpresent => ?_⟩
          · rw [hclosed c _ hwire]
            exact .refl
          · rw [hpresent.2] at hwire
            cases hwire
      | false =>
          obtain ⟨es, hne, hsends, hasks⟩ := hopen c _ hwire
          exact ⟨es, hsends, hasks, fun _ => hne⟩

theorem clear_asks (s : Storage) :
    ∃ es, Wire.Sends s.link.wire es s.clear.2.link.wire ∧
      AsksFor [[s.naming.all], [s.naming.all, "_flush"]] es ∧ (Present s → es ≠ []) := by
  apply call_asks
  · exact fun c w hclosed => (clear_abides c s.naming.all w).2 hclosed
  · intro c w hopen
    have hdelete : Addresses [s.naming.all] []
        ((deleteRequest s.naming.all).toSent c.config.requestTimeout).target :=
      Http.Request.target_addresses (List.cons_ne_nil _ _) "DELETE" "delete-index" [] .absent
        Http.json
    have hflush : Addresses [s.naming.all, "_flush"] []
        ((Bulk.flushRequest s.naming.all).toSent c.config.requestTimeout).target :=
      Http.Request.target_addresses (List.cons_ne_nil _ _) "POST" "flush-index" [] (.bytes [])
        Http.json
    have hsends := Wire.Sends.one w
      ((deleteRequest s.naming.all).toSent c.config.requestTimeout)
    rw [c.execute_ignore_open _ hopen]
    generalize (deleteRequest s.naming.all).toSent c.config.requestTimeout = delete at *
    have hsends' := hsends.trans (.one _
      ((Bulk.flushRequest s.naming.all).toSent c.config.requestTimeout))
    have hflushed := c.execute_ignore_open (w := (w.exchange delete).2)
      (Bulk.flushRequest s.naming.all) hopen
    cases Client.outcome (deleteRequest s.naming.all).tag (w.exchange delete).1 with
    | error f => exact ⟨_, List.cons_ne_nil _ _, hsends, .cons hdelete .nil⟩
    | ok body =>
        simp only [Except.map, Bulk.flush, hflushed]
        exact ⟨_, List.cons_ne_nil _ _, hsends', .cons hdelete (.cons hflush .nil)⟩

theorem check_asks (s : Storage) :
    ∃ es, Wire.Sends s.link.wire es s.check.2.link.wire ∧
      AsksFor [["_cluster", "health", s.naming.all]] es ∧ (Present s → es ≠ []) := by
  rw [Storage.check_store]
  apply call_asks
  · exact fun c w hclosed => (check_abides c s.naming.all w).2 hclosed
  · intro c w hopen
    have hhealth : Addresses ["_cluster", "health", s.naming.all] []
        ((healthRequest s.naming.all).toSent c.config.requestTimeout).target :=
      Http.Request.target_addresses (List.cons_ne_nil _ _) "GET" "get-cluster-health" [] .absent
        Http.json
    have hsends := Wire.Sends.one w
      ((healthRequest s.naming.all).toSent c.config.requestTimeout)
    rw [c.execute_pure_open _ _ hopen]
    exact ⟨_, List.cons_ne_nil _ _, hsends, .cons hhealth .nil⟩

end Asking

/-- All that a store does with its indices is for one pattern. -/
structure OnePattern (c : Config) (s : Storage) (pattern : String) : Prop where
  puts : Link.Sending (PutsTemplate c) s.link s.ensure.2.link
  decodes_iff : ∀ b v,
    Json.Encodes v (Text.Utf8.encode ((template c).renderText b).toList) ↔
      v = (template c).render b
  distinct : ∀ b, ((template c).render b).distinct = (template c).render b
  member : ∀ b, ∃ members, (template c).render b = .object members ∧
    Ordered.get? "template" members = some (.text pattern)
  clears : ∃ es, Wire.Sends s.link.wire es s.clear.2.link.wire ∧
    AsksFor [[pattern], [pattern, "_flush"]] es ∧ (Present s → es ≠ [])
  checks : ∃ es, Wire.Sends s.link.wire es s.check.2.link.wire ∧
    AsksFor [["_cluster", "health", pattern]] es ∧ (Present s → es ≠ [])
  instants : ∀ millis name, s.naming.ofInstant millis = .ok name →
    Calendar.Matches pattern.toList name.toList
  ranges : ∀ first last names, s.naming.ofRange first last = .ok names →
    ∀ name ∈ names, Calendar.Matches pattern.toList name.toList

/-- At any point of any visit a store has one pattern, whatever its prefix is and however many shards
and replicas it wants. -/
theorem run_onePattern (c : Config) (script : List Http.Answer) (directory : Net.Directory)
    (acts : List Act) {s : Storage} (hs : ((Visit.start c script directory).run acts).2.store = s)
    (hshards : ∀ f, c.shards = .real f → Binary64.isFinite f = true)
    (hreplicas : ∀ f, c.replicas = .real f → Binary64.isFinite f = true) :
    OnePattern c s (Calendar.IndexNaming.all ⟨c.index⟩) := by
  have hconfig : s.config = c := by
    rw [← hs]
    exact Visit.run_config c script directory acts
  have hwanted : Wanted c s.schema := by
    rw [← hs]
    exact Visit.run_wanted c script directory acts
  have hnaming : s.naming = ⟨c.index⟩ := by
    rw [Storage.naming, hconfig]
  rw [← hnaming]
  exact {
    puts := ensure_puts hwanted
    decodes_iff := fun b v => Template.IndexTemplate.encodes_renderText_iff hshards hreplicas
    distinct := (template c).distinct_render
    member := by
      intro b
      rw [hnaming]
      exact (template c).render_template b
    clears := clear_asks s
    checks := check_asks s
    instants := fun _ _ h => Calendar.IndexNaming.ofInstant_matches h
    ranges := fun _ _ _ h => Calendar.IndexNaming.ofRange_matches h }

def escaped : Config :=
  { index := "a\"b/é😀*?", shards := .whole (2 ^ 70), strictTraceId := false }

theorem run_onePattern_escaped :
    (∀ f, escaped.shards = .real f → Binary64.isFinite f = true) ∧
      (∀ f, escaped.replicas = .real f → Binary64.isFinite f = true) ∧
      (Storage.create escaped (.fresh hesitant.tail) ⟨[], []⟩).ensure.2.link.wire.sent.map
        Sent.method = ["GET", "GET", "PUT"] ∧
      OnePattern escaped (.create escaped (.fresh hesitant.tail) ⟨[], []⟩) "a\"b/é😀*?-*" :=
  ⟨nofun, nofun, by decide +kernel,
    run_onePattern escaped hesitant.tail ⟨[], []⟩ [] rfl nofun nofun⟩

end SpanStore.Store
