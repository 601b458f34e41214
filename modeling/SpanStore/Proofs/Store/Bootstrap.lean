import SpanStore.Proofs.Store.Visit

namespace SpanStore.Store

open Http (Answer Call Client Exchange Link Sent Wire)
open Json (Value)

/-- A store whose gate is known: it is open exactly if the schema is ready. -/
structure Sound (c : Config) (s : Storage) (g : Gate) : Prop where
  answers : s.link.wire.Answers Foreign
  ready_iff : s.schema.once.phase = .ready () ↔ g = .opened
  wanted : Wanted c s.schema

def Reaches (c : Config) (s : Storage) (g : Gate) (t : Storage) (g' : Gate) : Prop :=
  Leads c s.link.wire g t.link.wire g' ∧ Sound c t g'

namespace Sound

variable {c : Config} {s : Storage} {g g' : Gate} {α : Type}

theorem start (c : Config) {script : List Answer} (directory : Net.Directory)
    (h : ∀ a ∈ script, Foreign a) : Sound c (.create c (.fresh script) directory) .shut where
  answers := ⟨nofun, h⟩
  ready_iff := ⟨nofun, nofun⟩
  wanted := by
    refine ⟨rfl, ?_⟩
    rfl

theorem onLink (h : Sound c s g) {f : Link → Except Fault α × Link}
    (hleads : Leads c s.link.wire g (f s.link).2.wire g') (hg : g' = .opened ↔ g = .opened) :
    Reaches c s g (s.onLink f).2 g' :=
  ⟨hleads, hleads.answers h.answers, h.ready_iff.trans hg.symm, h.wanted⟩

theorem ensure (h : Sound c s g) :
    ∃ g', Reaches c s g s.ensure.2 g' ∧ (s.ensure.1 = .ok () → g' = .opened) := by
  obtain ⟨g', hleads, hready, hopened⟩ := ensure_leads h.wanted h.answers h.ready_iff
  exact ⟨g', ⟨hleads, hleads.answers h.answers, hready, h.wanted⟩, hopened⟩

theorem client (h : Sound c s g) :
    ∃ g', Reaches c s g s.client.2 g' ∧ ∀ client, s.client.1 = .ok client → g' = .opened := by
  obtain ⟨g', ⟨hleads, hsound⟩, hopened⟩ := h.ensure
  unfold Storage.client
  cases hensure : s.ensure with
  | mk result t =>
      rw [hensure] at hleads hsound hopened
      cases result with
      | error f => exact ⟨g', ⟨hleads, hsound⟩, nofun⟩
      | ok u =>
          have hreach : Leads c t.link.wire g' (t.link.reach t.target).2.wire g' := by
            rw [Link.reach_wire]
            exact .refl _ g'
          obtain ⟨hleads', hsound'⟩ := hsound.onLink hreach Iff.rfl
          exact ⟨g', ⟨hleads.trans hleads', hsound'⟩, fun _ _ => hopened rfl⟩

theorem batch (h : Sound c s g) (typeName : String)
    (serialize : Value → Except Fault (List UInt8)) :
    ∃ g', Reaches c s g (s.batch typeName serialize).2 g' ∧
      ∀ b, (s.batch typeName serialize).1 = .ok b → g' = .opened := by
  obtain ⟨g', hreaches, hopened⟩ := h.client
  unfold Storage.batch
  cases hclient : s.client with
  | mk result t =>
      rw [hclient] at hreaches hopened
      cases result with
      | error f => exact ⟨g', hreaches, nofun⟩
      | ok client => exact ⟨g', hreaches, fun _ _ => hopened client rfl⟩

theorem manage (h : Sound c s g) (f : Client → Call α)
    (hf : ∀ client, Call.Within Manages (f client)) :
    ∃ g', Reaches c s g (s.onLink (Link.call s.target f)).2 g' ∧ (g' = .opened ↔ g = .opened) := by
  rcases s.link.call_cases s.target f with ⟨e, -, hwire⟩ | ⟨client, -, hwire⟩
  · have hleads : Leads c s.link.wire g (s.link.call s.target f).2.wire g := by
      rw [hwire]
      exact .refl _ g
    exact ⟨g, h.onLink hleads Iff.rfl, Iff.rfl⟩
  · obtain ⟨g', hleads, hg⟩ := Leads.of_manages (c := c) (hf client) s.link.wire g
    rw [← hwire] at hleads
    exact ⟨g', h.onLink hleads hg, hg⟩

theorem onWire (h : Sound c s .opened) {call : Call α}
    (hcall : Call.Within (fun s => ¬ Prepares s) call) :
    Reaches c s .opened (s.onWire call).2 .opened :=
  h.onLink (f := fun l => l.onWire call) (Leads.of_opened hcall s.link.wire) Iff.rfl

theorem close (h : Sound c s g) : Reaches c s g s.close g := by
  unfold Storage.close
  split
  · exact h.onLink (f := fun l => l.onWire fun w => (.ok (), w.close))
      (Leads.refl s.link.wire g).close Iff.rfl
  · exact ⟨.refl _ g, h⟩

end Sound

/-- An act that leaves the schema to the store: a search does not go after it in its conversion, and
what is sent through a client directly does not ask for it either. -/
def Act.Spares : Act → Prop
  | .search _ _ conversion | .submitSearch _ _ conversion .. =>
      ∀ body, (conversion.convert body).Within fun s => ¬ Prepares s
  | .execute _ r conversion | .submit _ r conversion .. =>
      (∀ timeout, ¬ Prepares (r.toSent timeout)) ∧
        ∀ body, (conversion.convert body).Within fun s => ¬ Prepares s
  | _ => True

namespace Visit

variable {c : Config} {v : Visit} {g g' : Gate}

/-- The store is sound, and it gave nothing before the gate was open. -/
structure Kept (c : Config) (v : Visit) (g : Gate) : Prop where
  sound : Sound c v.store g
  given : g = .opened ∨ v.batches = [] ∧ v.searchers = [] ∧ v.clients = []

def Goes (c : Config) (v : Visit) (g : Gate) (u : Visit) (g' : Gate) : Prop :=
  Leads c v.store.link.wire g u.store.link.wire g' ∧ Kept c u g'

namespace Kept

theorem operate {α : Type} (h : Kept c v g) {op : Operation α}
    (hop : Reaches c v.store g (op v.store).2 g') : Goes c v g (v.operate op).2 g' := by
  obtain ⟨hleads, hsound⟩ := hop
  refine ⟨hleads, hsound, ?_⟩
  rcases h.given with rfl | hnone
  · exact .inl hleads.opened
  · exact .inr hnone

theorem give {α : Type} (h : Kept c v g) {op : Operation α}
    (hop : Reaches c v.store g (op v.store).2 g')
    (hopened : ∀ a, (op v.store).1 = .ok a → g' = .opened) {u : Visit}
    (hstore : u.store = (op v.store).2)
    (hnone : ∀ f, (op v.store).1 = .error f → u = (v.operate op).2) : Goes c v g u g' := by
  cases hresult : (op v.store).1 with
  | error f =>
      rw [hnone f hresult]
      exact h.operate hop
  | ok a =>
      obtain ⟨hleads, hsound⟩ := hop
      rw [← hstore] at hleads hsound
      exact ⟨hleads, hsound, .inl (hopened a hresult)⟩

theorem withHeld {α β : Type} (h : Kept c v g) {held : Option α}
    (hheld : ∀ a, held = some a → g = .opened) {f : α → Wire → β × Wire}
    (hf : ∀ a, Call.Within (fun s => ¬ Prepares s) fun w => (.ok (f a w).1, (f a w).2)) :
    Goes c v g (v.withHeld held f).2 g := by
  cases held with
  | none => exact ⟨.refl _ g, h⟩
  | some a =>
      obtain rfl := hheld a rfl
      obtain ⟨hleads, hsound⟩ := h.sound.onWire (hf a)
      exact ⟨hleads, hsound, .inl rfl⟩

theorem opened_of_held {α : Type} {held : List α} (hgiven : g = .opened ∨ held = []) {i : Nat}
    (a : α) (ha : held[i]? = some a) : g = .opened := by
  rcases hgiven with hg | rfl
  · exact hg
  · cases ha

theorem perform (h : Kept c v g) {a : Act} (ha : a.Spares) :
    ∃ g', Goes c v g (v.perform a).2 g' := by
  have hbatch {i : Nat} := opened_of_held (i := i) (h.given.imp_right fun hnone => hnone.1)
  have hsearcher {i : Nat} := opened_of_held (i := i) (h.given.imp_right fun hnone => hnone.2.1)
  have hclient {i : Nat} := opened_of_held (i := i) (h.given.imp_right fun hnone => hnone.2.2)
  cases a with
  | ensure =>
      obtain ⟨g', hreaches, -⟩ := h.sound.ensure
      exact ⟨g', h.operate hreaches⟩
  | http =>
      obtain ⟨g', hreaches, hopened⟩ := h.sound.client
      refine ⟨g', h.give hreaches hopened rfl fun f hf => ?_⟩
      simp [Visit.perform, Visit.operate, hf, Except.toOption]
  | batch typeName serialize =>
      obtain ⟨g', hreaches, hopened⟩ := h.sound.batch typeName serialize
      refine ⟨g', h.give hreaches hopened rfl fun f hf => ?_⟩
      simp [Visit.perform, Visit.operate, hf, Except.toOption]
  | searcher =>
      obtain ⟨g', hreaches, hopened⟩ := h.sound.client
      refine ⟨g', h.give hreaches hopened rfl fun f hf => ?_⟩
      simp [Visit.perform, Visit.operate, hf, Except.toOption]
  | flush index =>
      obtain ⟨g', hreaches, -⟩ := h.sound.manage (fun client => Bulk.flush client index)
        fun client => flush_within client index
      exact ⟨g', h.operate hreaches⟩
  | clear =>
      obtain ⟨g', hreaches, -⟩ := h.sound.manage _ fun client =>
        clear_within client v.store.naming.all
      exact ⟨g', h.operate hreaches⟩
  | check =>
      obtain ⟨g', hreaches, -⟩ := h.sound.manage _ fun client =>
        check_within client v.store.naming.all
      rw [← Storage.check_store] at hreaches
      exact ⟨g', h.operate hreaches⟩
  | close =>
      obtain ⟨hleads, hsound⟩ := h.sound.close
      exact ⟨g, hleads, hsound, h.given⟩
  | add i index document key =>
      refine ⟨g, .refl _ g, h.sound, h.given.imp_right ?_⟩
      rintro ⟨hbatches, hrest⟩
      exact ⟨by simp [Visit.perform, hbatches], hrest⟩
  | write i => exact ⟨g, h.withHeld hbatch execute_batch_within⟩
  | submitWrite i meanwhile callback k =>
      obtain ⟨hleads, hkept⟩ := h.withHeld hbatch fun b =>
        submit_batch_within b (grow meanwhile b) callback k
      refine ⟨g, hleads, hkept.sound, hkept.given.imp_right ?_⟩
      rintro ⟨hbatches, hrest⟩
      exact ⟨by simp [Visit.perform, hbatches], hrest⟩
  | search i q conversion =>
      exact ⟨g, h.withHeld hsearcher fun client => execute_search_within client q ha⟩
  | submitSearch i q conversion callback k =>
      exact ⟨g, h.withHeld hsearcher fun client => submit_search_within client q ha callback k⟩
  | execute i r conversion =>
      exact ⟨g, h.withHeld hclient fun client => .execute (ha.1 _) ha.2⟩
  | submit i r conversion callback k =>
      refine ⟨g, h.withHeld hclient fun client => ?_⟩
      exact (Call.Within.execute (ha.1 _) ha.2).congr fun w =>
        client.submit_wire r conversion.convert callback k w
  | shut i => exact ⟨g, h.withHeld hclient fun _ w =>
      ⟨[], Wire.Sends.refl.close, List.forall_mem_nil _⟩⟩

theorem run (h : Kept c v g) {as : List Act} (has : ∀ a ∈ as, a.Spares) :
    ∃ g', Goes c v g (v.run as).2 g' := by
  induction as generalizing v g with
  | nil => exact ⟨g, .refl _ g, h⟩
  | cons a as ih =>
      obtain ⟨ha, hrest⟩ := List.forall_mem_cons.mp has
      obtain ⟨g', hleads, hkept⟩ := h.perform ha
      obtain ⟨g'', hleads', hkept'⟩ := ih hkept hrest
      exact ⟨g'', hleads.trans hleads', hkept'⟩

end Kept

end Visit

/-- What the exchanges of a visit show, in whatever order its acts come and whatever they
meet: reads and writes are gated, and the gate is passed once. -/
structure Gated (c : Config) (es : List Exchange) : Prop where
  before : ∀ earlier e later, es = earlier ++ e :: later → Writes e.request ∨ Searches e.request →
    ∃ block, Opens c block ∧ block <:+: earlier
  after : ∀ earlier block later, es = earlier ++ block ++ later → Opens c block →
    ∀ e ∈ later, ¬ Prepares e.request

theorem gated_of_guarded {c : Config} {es : List Exchange} (h : Guarded c .shut es) :
    Gated c es where
  before := by
    rintro earlier e later rfl hdata
    have hopened : Gate.after c earlier = .opened := h.split.1 hdata
    have hshows := Gate.shows_after (c := c) earlier
    rw [hopened] at hshows
    obtain ⟨front, block, rest, rfl, hblock⟩ := hshows
    exact ⟨block, hblock, front, rest, rfl⟩
  after := by
    rintro earlier block later rfl hblock e he
    obtain ⟨front, rest, rfl⟩ := List.append_of_mem he
    have hopened : ((earlier ++ block) ++ front).foldl (Gate.advance c) .shut = .opened := by
      rw [List.foldl_append, List.foldl_append, Gate.foldl_opens hblock, Gate.foldl_opened]
    rw [← List.append_assoc] at h
    exact h.split.2 hopened

/-- Reads and writes of any visit come after exchanges that made sure of the schema, and no request
for the version or about a template comes after these. -/
theorem run_gated (c : Config) (script : List Answer) (directory : Net.Directory) (as : List Act)
    (h : ∀ a ∈ script, Foreign a) (has : ∀ a ∈ as, a.Spares) :
    Gated c (((Visit.start c script directory).run as).2.exchanges script) := by
  have hstart : Visit.Kept c (.start c script directory) .shut :=
    ⟨.start c directory h, .inr ⟨rfl, rfl, rfl⟩⟩
  obtain ⟨g, ⟨es, hsends, hguarded, -⟩, -⟩ := hstart.run has
  rw [Visit.exchanges, hsends.meet_fresh.2]
  exact gated_of_guarded hguarded

def hesitant : List Answer :=
  [.fault (.raise .connectionLost ""),
    .response 200 (.text "\x7b\"version\":\x7b\"number\":\"5.6.4\"\x7d\x7d"),
    .response 404 .absent, .response 200 .absent]

def firstDocument : List Act :=
  [.http, .batch "span" fun _ => .ok [0x7B, 0x7D], .add 0 "zipkin-2016-10-01" .null .null,
    .write 0, .close, .write 0]

theorem hesitant_foreign : ∀ a ∈ hesitant, Foreign a := by
  simp only [hesitant, List.forall_mem_cons, List.not_mem_nil, false_implies, implies_true,
    and_true]
  exact ⟨foreign_fault (by decide), foreign_response _ _, foreign_response _ _,
    foreign_response _ _⟩

theorem run_gated_hesitant :
    let es := ((Visit.start {} hesitant ⟨[], []⟩).run firstDocument).2.exchanges hesitant
    es.map (fun e => e.request.method) = ["GET", "GET", "GET", "PUT", "POST"] ∧ Gated {} es := by
  have hspares : ∀ a ∈ firstDocument, a.Spares := by
    simp [firstDocument, Act.Spares]
  exact ⟨by decide +kernel, run_gated {} hesitant ⟨[], []⟩ firstDocument hesitant_foreign hspares⟩

end SpanStore.Store
