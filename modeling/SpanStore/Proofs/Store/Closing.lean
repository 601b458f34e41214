import SpanStore.Proofs.Store.Bootstrap

namespace SpanStore.Store

open Http (Call Callback Client Link Wire)
open Template (Schema)

def Refused {α : Type} (r : Except Fault α) : Prop := ∃ f, r = .error f ∧ f.kind = .client

theorem refused_call {α : Type} (tag : String) :
    Refused (α := α) (.error (.closedToCalls tag)) := ⟨_, rfl, rfl⟩

theorem refused_submission {α : Type} (tag : String) :
    Refused (α := α) (.error (.closedToSubmissions tag)) := ⟨_, rfl, rfl⟩

structure Shut (l : Link) (c : Client) : Prop where
  ready : l.client.phase = .ready c
  closed : l.wire.isClosed = true

section Refusals

variable {α κ : Type} {l : Link} {c : Client} {w : Wire}

theorem execute_refused (c : Client) (r : Http.Request) (convert : List UInt8 → Call α)
    (h : w.isClosed = true) : Refused (c.execute r convert w).1 := by
  rw [c.execute_closed r convert h]
  exact refused_call r.tag

theorem submit_refused (c : Client) (r : Http.Request) (convert : List UInt8 → Call α)
    (callback : Option (Callback κ α)) (k : κ) (h : w.isClosed = true) :
    ∃ o, (c.submit r convert callback k w).1 = (o, k) ∧ Refused o := by
  rw [c.submit_closed r callback k h]
  exact ⟨_, rfl, refused_submission r.tag⟩

theorem exists_request {b : Bulk.Batch} (h : b.actions ≠ []) : ∃ r, b.request = .ok r := by
  have hempty : ¬ b.actions.isEmpty = true := by simpa using h
  exact ⟨_, if_neg hempty⟩

theorem exists_search_request {q : Search.Query} (h : q.indices ≠ []) : ∃ r, q.request = .ok r := by
  have hempty : ¬ q.indices.isEmpty = true := by simpa using h
  exact ⟨_, if_neg hempty⟩

theorem execute_batch_refused {b : Bulk.Batch} (hactions : b.actions ≠ [])
    (h : w.isClosed = true) : Refused (b.execute w).1 := by
  obtain ⟨r, hr⟩ := exists_request hactions
  rw [Bulk.Batch.execute, hr]
  exact execute_refused b.client r b.conclude h

theorem submit_batch_refused {b : Bulk.Batch} (later : Bulk.Batch) (hactions : b.actions ≠ [])
    (callback : Option (Callback κ Bulk.Result)) (k : κ) (h : w.isClosed = true) :
    ∃ o, (b.submit later callback k w).1 = (o, k) ∧ Refused o := by
  obtain ⟨r, hr⟩ := exists_request hactions
  rw [Bulk.Batch.submit, hr]
  exact submit_refused b.client r later.conclude callback k h

theorem execute_search_refused (c : Client) {q : Search.Query} (hindices : q.indices ≠ [])
    (convert : List UInt8 → Call α) (h : w.isClosed = true) :
    Refused (Search.execute c q convert w).1 := by
  obtain ⟨r, hr⟩ := exists_search_request hindices
  rw [Search.execute, hr]
  exact execute_refused c r convert h

theorem submit_search_refused (c : Client) {q : Search.Query} (hindices : q.indices ≠ [])
    (convert : List UInt8 → Call α) (callback : Option (Callback κ α)) (k : κ)
    (h : w.isClosed = true) :
    ∃ o, (Search.submit c q convert callback k w).1 = (o, k) ∧ Refused o := by
  obtain ⟨r, hr⟩ := exists_search_request hindices
  rw [Search.submit, hr]
  exact submit_refused c r convert callback k h

theorem close_link {s : Storage} (h : s.link.client.phase = .ready c) :
    s.close.link = s.link.withWire s.link.wire.close := by
  have hready : s.link.client.isReady = true := by
    rw [Once.isReady, h]
  rw [Storage.close, if_pos hready]
  rfl

namespace Shut

theorem call (h : Shut l c) (t : Http.Target) {f : Client → Call α}
    (hf : Refused (f c l.wire).1) : Refused (l.call t f).1 := by
  rw [Link.call_ready t f h.ready]
  exact hf

theorem ensure (h : Shut l c) (s : Schema) :
    (s.ensure l).1 = .ok () ∨ (∃ f, (s.ensure l).1 = .error f ∧ s.once.phase = .failed f) ∨
      Refused (s.ensure l).1 := by
  by_cases hready : s.once.phase = .ready ()
  · rw [Schema.ensure, Once.get_ready _ hready]
    exact .inl rfl
  · by_cases hfailed : ∃ f, s.once.phase = .failed f
    · obtain ⟨f, hf⟩ := hfailed
      rw [Schema.ensure, Once.get_failed _ hf]
      exact .inr (.inl ⟨f, rfl, hf⟩)
    · rw [Schema.ensure, Once.get_compute _ (fun _ => hready) fun f hf => hfailed ⟨f, hf⟩]
      refine .inr (.inr ?_)
      rw [Schema.bootstrap, Link.call_ready _ _ h.ready, Template.version,
        c.execute_closed _ _ h.closed]
      exact refused_call _

theorem close {s : Storage} (h : s.link.client.phase = .ready c) : Shut s.close.link c := by
  rw [close_link h]
  exact ⟨h, Wire.isClosed_close s.link.wire⟩

theorem client {s : Storage} (h : Shut s.link c) {c' : Client} (hc' : s.client.1 = .ok c') :
    s.link.client.phase = .ready c' := by
  have hlink := s.ensure_moves.eq_of_closed h.ready h.closed
  unfold Storage.client at hc'
  cases hensure : s.ensure with
  | mk result t =>
      rw [hensure] at hc' hlink
      cases result with
      | error f => cases hc'
      | ok u =>
          change (t.link.reach t.target).1 = .ok c' at hc'
          rw [hlink, Link.reach_ready _ h.ready] at hc'
          rw [h.ready, Except.ok.inj hc']

theorem batch {s : Storage} (h : Shut s.link c) {typeName : String}
    {serialize : Json.Value → Except Fault (List UInt8)} {b : Bulk.Batch}
    (hb : (s.batch typeName serialize).1 = .ok b) : s.link.client.phase = .ready b.client := by
  have hclient := @h.client
  unfold Storage.batch at hb
  cases hresult : s.client with
  | mk result t =>
      rw [hresult] at hb hclient
      cases result with
      | error f => cases hb
      | ok c' =>
          simp only [Bulk.Batch.create] at hb
          split at hb
          · cases hb
          · obtain rfl := Except.ok.inj hb
            exact hclient rfl

theorem check {s : Storage} (h : Shut s.link c) :
    ∃ f, s.check.1 = .ok (.bad f) ∧ f.kind = .client := by
  refine ⟨.closedToCalls (healthRequest s.naming.all).tag, ?_, rfl⟩
  simp only [Storage.check, Storage.onLink, Link.call_ready _ _ h.ready,
    c.execute_closed _ _ h.closed]
  rfl

end Shut

end Refusals

namespace Visit

variable {c : Client}

/-- How a shut store answers. What gets past the checks of its own arguments is refused and its
callback is left alone, and no other client is given. -/
def Refuses (v : Visit) : (a : Act) → a.Answer → Prop
  | .ensure => fun (r : Except Fault Unit) =>
      r = .ok () ∨ (∃ f, r = .error f ∧ v.store.schema.once.phase = .failed f) ∨ Refused r
  | .http | .searcher => fun (r : Except Fault Client) =>
      ∀ c, r = .ok c → v.store.link.client.phase = .ready c
  | .batch .. => fun (r : Except Fault Bulk.Batch) =>
      ∀ b, r = .ok b → v.store.link.client.phase = .ready b.client
  | .flush _ | .clear => fun (r : Except Fault Unit) => Refused r
  | .check => fun (r : Except Fault Health) => ∃ f, r = .ok (.bad f) ∧ f.kind = .client
  | .close | .add .. | .shut _ => fun _ => True
  | .write i => fun (r : Option (Except Fault Bulk.Result)) =>
      ∀ b, v.batches[i]? = some b → b.actions ≠ [] → ∃ o, r = some o ∧ Refused o
  | .submitWrite (κ := κ) i _ _ k => fun (r : Option (Except Fault Bulk.Result × κ)) =>
      ∀ b, v.batches[i]? = some b → b.actions ≠ [] → ∃ o, r = some (o, k) ∧ Refused o
  | .search (α := α) i q _ => fun (r : Option (Except Fault α)) =>
      i < v.searchers.length → q.indices ≠ [] → ∃ o, r = some o ∧ Refused o
  | .submitSearch (κ := κ) (α := α) i q _ _ k => fun (r : Option (Except Fault α × κ)) =>
      i < v.searchers.length → q.indices ≠ [] → ∃ o, r = some (o, k) ∧ Refused o
  | .execute (α := α) i _ _ => fun (r : Option (Except Fault α)) =>
      i < v.clients.length → ∃ o, r = some o ∧ Refused o
  | .submit (κ := κ) (α := α) i _ _ _ k => fun (r : Option (Except Fault α × κ)) =>
      i < v.clients.length → ∃ o, r = some (o, k) ∧ Refused o

theorem withHeld_some {α β : Type} (v : Visit) {held : Option α} {a : α} (h : held = some a)
    (f : α → Wire → β × Wire) : (v.withHeld held f).1 = some (f a v.store.link.wire).1 := by
  rw [h]
  rfl

theorem withHeld_refused {α β κ : Type} (v : Visit) {held : Option α} {a : α}
    (h : held = some a) {f : α → Wire → (Except Fault β × κ) × Wire} {k : κ}
    (hf : ∃ o, (f a v.store.link.wire).1 = (o, k) ∧ Refused o) :
    ∃ o, (v.withHeld held f).1 = some (o, k) ∧ Refused o := by
  obtain ⟨o, ho, hrefused⟩ := hf
  exact ⟨o, by rw [v.withHeld_some h, ho], hrefused⟩

theorem perform_refuses {v : Visit} (h : Shut v.store.link c) (a : Act) :
    v.Refuses a (v.perform a).1 := by
  cases a with
  | ensure => exact h.ensure v.store.schema
  | http => exact fun c' hc' => h.client hc'
  | batch typeName serialize => exact fun b hb => h.batch hb
  | searcher => exact fun c' hc' => h.client hc'
  | flush index => exact h.call v.store.target (execute_refused c _ _ h.closed)
  | clear =>
      refine h.call v.store.target ?_
      simp only [c.execute_closed _ _ h.closed]
      exact refused_call _
  | check => exact h.check
  | close => trivial
  | add i index document key => trivial
  | write i =>
      intro b hb hactions
      exact ⟨_, v.withHeld_some hb _, execute_batch_refused hactions h.closed⟩
  | submitWrite i meanwhile callback k =>
      intro b hb hactions
      have hrefused := submit_batch_refused (grow meanwhile b) hactions callback k h.closed
      exact v.withHeld_refused (f := fun b => b.submit (grow meanwhile b) callback k) hb hrefused
  | search i q conversion =>
      intro hi hindices
      exact ⟨_, v.withHeld_some (List.getElem?_eq_getElem hi) _,
        execute_search_refused _ hindices conversion.convert h.closed⟩
  | submitSearch i q conversion callback k =>
      intro hi hindices
      exact v.withHeld_refused (List.getElem?_eq_getElem hi)
        (submit_search_refused _ hindices conversion.convert callback k h.closed)
  | execute i r conversion =>
      intro hi
      exact ⟨_, v.withHeld_some (List.getElem?_eq_getElem hi) _, execute_refused _ r _ h.closed⟩
  | submit i r conversion callback k =>
      intro hi
      exact v.withHeld_refused (List.getElem?_eq_getElem hi)
        (submit_refused _ r conversion.convert callback k h.closed)
  | shut i => trivial

/-- What closing a store leaves, whatever acts follow: nothing more is sent, its one client stays,
the wire was closed once, and each act is answered so. -/
structure Final (v : Visit) (after : List Act) : Prop where
  sent : (v.run (.close :: after)).2.store.link.wire.sent = v.store.link.wire.sent
  closings : (v.run (.close :: after)).2.store.link.wire.closings = 1
  client : (v.run (.close :: after)).2.store.link.client = v.store.link.client
  pools : (v.run (.close :: after)).2.store.link.surroundings.pools =
    v.store.link.surroundings.pools
  refuses : ∀ earlier a later, after = earlier ++ a :: later →
    (v.run (.close :: earlier)).2.Refuses a ((v.run (.close :: earlier)).2.perform a).1

theorem closings_run (c : Config) (script : List Http.Answer) (directory : Net.Directory)
    (acts : List Act) : ((start c script directory).run acts).2.store.link.wire.closings ≤ 1 := by
  obtain ⟨es, hsends⟩ := ((start c script directory).run_moves acts).sends
  exact hsends.closings_le (Nat.zero_le 1)

theorem run_close {v : Visit} (h : v.store.link.client.phase = .ready c) (after : List Act) :
    (v.run (.close :: after)).2.store.link = v.store.link.withWire v.store.link.wire.close := by
  have hshut : Shut v.store.close.link c := .close h
  rw [← close_link h]
  exact ((v.perform .close).2.run_moves after).eq_of_closed hshut.ready hshut.closed

theorem final_of_ready {v : Visit} (h : v.store.link.client.phase = .ready c)
    (hclosings : v.store.link.wire.closings ≤ 1) (after : List Act) : v.Final after where
  sent := by
    rw [run_close h]
    exact Wire.close_sent v.store.link.wire
  closings := by
    rw [run_close h]
    exact Wire.closings_close hclosings
  client := by
    rw [run_close h]
    rfl
  pools := by
    rw [run_close h]
    rfl
  refuses earlier a later _ := by
    refine perform_refuses (c := c) ?_ a
    rw [run_close h]
    exact ⟨h, Wire.isClosed_close v.store.link.wire⟩

end Visit

theorem exists_ready {l : Link} (h : l.client.isReady = true) : ∃ c, l.client.phase = .ready c := by
  unfold Once.isReady at h
  split at h
  · rename_i c hc
    exact ⟨c, hc⟩
  · cases h

/-- At any moment of any visit, closing is final if the client is there, and does nothing if it is
not. -/
theorem close_final (c : Config) (script : List Http.Answer) (directory : Net.Directory)
    (before after : List Act) {v : Visit}
    (hv : ((Visit.start c script directory).run before).2 = v) :
    (v.store.link.client.isReady = true → v.Final after) ∧
      (v.store.link.client.isReady = false →
        v.run (.close :: after) = (⟨.close, ()⟩ :: (v.run after).1, (v.run after).2)) := by
  constructor
  · intro hready
    obtain ⟨client, hclient⟩ := exists_ready hready
    refine v.final_of_ready hclient ?_ after
    rw [← hv]
    exact Visit.closings_run c script directory before
  · intro hready
    have hclose : v.store.close = v.store := by
      rw [Storage.close, if_neg (by simp [hready])]
    have hperform : v.perform .close = ((), v) := by
      rw [Visit.perform, hclose]
      rfl
    rw [Visit.run, hperform]

def given : List Act :=
  [.http, .http, .searcher, .batch "span" fun _ => .ok [0x7B, 0x7D],
    .add 0 "zipkin-2016-10-01" .null .null]

def afterwards : List Act :=
  [.write 0, .close, .check, .http,
    .execute 0 Template.versionRequest ⟨Call.ignore, ignore_open⟩, .flush "zipkin-2016-10-01"]

def visited : Visit := ((Visit.start {} hesitant ⟨[], []⟩).run given).2

theorem close_final_hesitant :
    visited.store.link.client.isReady = true ∧ visited.batches.length = 1 ∧
      visited.clients.length = 1 ∧ visited.store.link.wire.sent.length = 4 ∧
      visited.Final afterwards ∧
      (Visit.start {} hesitant ⟨[], []⟩).run (.close :: given) =
        (⟨.close, ()⟩ :: ((Visit.start {} hesitant ⟨[], []⟩).run given).1, visited) := by
  have hready : visited.store.link.client.isReady = true := by decide +kernel
  refine ⟨hready, by decide +kernel, by decide +kernel, by decide +kernel, ?_, ?_⟩
  · exact (close_final {} hesitant ⟨[], []⟩ given afterwards (v := visited) rfl).1 hready
  · exact (close_final {} hesitant ⟨[], []⟩ [] given rfl).2 rfl

end SpanStore.Store
