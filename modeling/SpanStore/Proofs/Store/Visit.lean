import SpanStore.Proofs.Http.Closed
import SpanStore.Proofs.Store.Preparation

namespace SpanStore.Store

open Http (Call Callback Client Conversion Link Request Wire)
open Json (Value)

/-- Batches, searchers and clients are numbered in the order in which the store gave them. -/
inductive Act : Type 1 where
  | ensure
  | http
  | batch (typeName : String) (serialize : Value → Except Fault (List UInt8))
  | searcher
  | flush (index : String)
  | clear
  | check
  | close
  | add (i : Nat) (index : String) (document id : Value)
  | write (i : Nat)
  | submitWrite {κ : Type} (i : Nat) (meanwhile : List (String × Value × Value))
      (callback : Option (Callback κ Bulk.Result)) (k : κ)
  | search {α : Type} (i : Nat) (q : Search.Query) (conversion : Conversion α)
  | submitSearch {κ α : Type} (i : Nat) (q : Search.Query) (conversion : Conversion α)
      (callback : Option (Callback κ α)) (k : κ)
  | execute {α : Type} (i : Nat) (r : Request) (conversion : Conversion α)
  | submit {κ α : Type} (i : Nat) (r : Request) (conversion : Conversion α)
      (callback : Option (Callback κ α)) (k : κ)
  | shut (i : Nat)

/-- What an act is answered; what the store did not give answers nothing. A submission is answered
with how it ended and how it left its callback. -/
def Act.Answer : Act → Type
  | ensure | flush _ | clear => Except Fault Unit
  | http | searcher => Except Fault Client
  | batch .. => Except Fault Bulk.Batch
  | check => Except Fault Health
  | close => Unit
  | add .. => Option (Except Fault Unit)
  | write _ => Option (Except Fault Bulk.Result)
  | submitWrite (κ := κ) .. => Option (Except Fault Bulk.Result × κ)
  | search (α := α) .. | execute (α := α) .. => Option (Except Fault α)
  | submitSearch (κ := κ) (α := α) .. | submit (κ := κ) (α := α) .. =>
      Option (Except Fault α × κ)
  | shut _ => Option Unit

structure Visit where
  store : Storage
  batches : List Bulk.Batch
  searchers : List Client
  clients : List Client

namespace Visit

def start (c : Config) (script : List Http.Answer) (directory : Net.Directory) : Visit :=
  ⟨.create c (.fresh script) directory, [], [], []⟩

section Uses

variable {α β : Type} (v : Visit)

def operate (op : Operation α) : Except Fault α × Visit :=
  ((op v.store).1, { v with store := (op v.store).2 })

def withHeld (held : Option α) (f : α → Wire → β × Wire) : Option β × Visit :=
  match held with
  | none => (none, v)
  | some a =>
      let (r, w) := f a v.store.link.wire
      (some r, { v with store := { v.store with link := v.store.link.withWire w } })

end Uses

def grow (more : List (String × Value × Value)) (b : Bulk.Batch) : Bulk.Batch :=
  more.foldl (fun b a => (b.add a.1 a.2.1 a.2.2).2) b

def perform (v : Visit) : (a : Act) → a.Answer × Visit
  | .ensure => v.operate Storage.ensure
  | .http =>
      let (r, v) := v.operate Storage.client
      (r, { v with clients := v.clients ++ r.toOption.toList })
  | .batch typeName serialize =>
      let (r, v) := v.operate (Storage.batch typeName serialize)
      (r, { v with batches := v.batches ++ r.toOption.toList })
  | .searcher =>
      let (r, v) := v.operate Storage.client
      (r, { v with searchers := v.searchers ++ r.toOption.toList })
  | .flush index => v.operate (Storage.flush index)
  | .clear => v.operate Storage.clear
  | .check => v.operate Storage.check
  | .close => ((), { v with store := v.store.close })
  | .add i index document id =>
      (v.batches[i]?.map fun b => (b.add index document id).1,
        { v with batches := v.batches.modify i fun b => (b.add index document id).2 })
  | .write i => v.withHeld v.batches[i]? Bulk.Batch.execute
  | .submitWrite i meanwhile callback k =>
      let (r, v) := v.withHeld v.batches[i]? fun b => b.submit (grow meanwhile b) callback k
      (r, { v with batches := v.batches.modify i (grow meanwhile) })
  | .search i q conversion =>
      v.withHeld v.searchers[i]? fun c => Search.execute c q conversion.convert
  | .submitSearch i q conversion callback k =>
      v.withHeld v.searchers[i]? fun c => Search.submit c q conversion.convert callback k
  | .execute i r conversion => v.withHeld v.clients[i]? fun c => c.execute r conversion.convert
  | .submit i r conversion callback k =>
      v.withHeld v.clients[i]? fun c => c.submit r conversion.convert callback k
  | .shut i => v.withHeld v.clients[i]? fun _ w => ((), w.close)

def run (v : Visit) : List Act → List (Σ a : Act, a.Answer) × Visit
  | [] => ([], v)
  | a :: as => (⟨a, (v.perform a).1⟩ :: ((v.perform a).2.run as).1, ((v.perform a).2.run as).2)

def exchanges (script : List Http.Answer) (v : Visit) : List Http.Exchange :=
  Wire.meet script v.store.link.wire.sent

end Visit

section Abides

variable {α κ : Type}

theorem conclude_open (b : Bulk.Batch) (body : List UInt8) :
    (b.conclude body).Within fun _ => True :=
  (conclude_within b body).mono fun _ _ => trivial

theorem execute_batch_abides (b : Bulk.Batch) : Wire.Abides b.execute := by
  unfold Bulk.Batch.execute
  cases b.request with
  | error f => exact .of_pure _
  | ok r => exact b.client.execute_abides r (conclude_open b)

theorem submit_batch_abides (b later : Bulk.Batch) (callback : Option (Callback κ Bulk.Result))
    (k : κ) : Wire.Abides (b.submit later callback k) := by
  unfold Bulk.Batch.submit
  cases b.request with
  | error f => exact .of_pure _
  | ok r => exact b.client.submit_abides r (conclude_open later) callback k

theorem execute_search_abides (c : Client) (q : Search.Query) (conversion : Conversion α) :
    Wire.Abides (Search.execute c q conversion.convert) := by
  unfold Search.execute
  cases q.request with
  | error f => exact .of_pure _
  | ok r => exact c.execute_abides r conversion.within

theorem submit_search_abides (c : Client) (q : Search.Query) (conversion : Conversion α)
    (callback : Option (Callback κ α)) (k : κ) :
    Wire.Abides (Search.submit c q conversion.convert callback k) := by
  unfold Search.submit
  cases q.request with
  | error f => exact .of_pure _
  | ok r => exact c.submit_abides r conversion.within callback k

theorem ignore_open (body : List UInt8) : (Call.ignore body).Within fun _ => True := .of_pure _

theorem flush_abides (c : Client) (index : String) : Wire.Abides (Bulk.flush c index) :=
  c.execute_abides _ ignore_open

theorem clear_abides (c : Client) (indices : String) :
    Wire.Abides fun w =>
      match c.execute (deleteRequest indices) Call.ignore w with
      | (.error f, w) => (.error f, w)
      | (.ok (), w) => Bulk.flush c indices w := by
  intro w
  constructor
  · obtain ⟨es, hsends, -⟩ := clear_within c indices w
    exact ⟨es, hsends⟩
  · intro hclosed
    simp only [c.execute_closed _ _ hclosed]

theorem check_abides (c : Client) (indices : String) :
    Wire.Abides (c.execute (healthRequest indices) (Call.ofConversion readHealth)) :=
  c.execute_abides _ (.of_conversion readHealth)

theorem version_abides (c : Client) : Wire.Abides (Template.version c) :=
  c.execute_abides _ (.of_conversion Template.readVersion)

theorem install_within (name text : String) (c : Client) {P : Http.Sent → Prop}
    (hlook : P ((Template.lookRequest name).toSent c.config.requestTimeout))
    (hput : P ((Template.installRequest name text).toSent c.config.requestTimeout)) :
    (Template.install name text c).Within P := by
  have hlooks : (c.execute (Template.lookRequest name) Call.ignore).Within P :=
    .execute hlook fun _ => .of_pure _
  have hputs : (c.execute (Template.installRequest name text) Call.ignore).Within P :=
    .execute hput fun _ => .of_pure _
  intro w
  obtain ⟨es, hsends, hes⟩ := hlooks w
  rw [Template.install]
  cases hcall : c.execute (Template.lookRequest name) Call.ignore w with
  | mk result v =>
      rw [hcall] at hsends
      cases result with
      | ok u => exact ⟨es, hsends, hes⟩
      | error f =>
          simp only
          split
          · obtain ⟨fs, hsends', hfs⟩ := hputs v
            refine ⟨es ++ fs, hsends.trans ?_, List.forall_mem_append.mpr ⟨hes, hfs⟩⟩
            split <;>
            · rename_i hinstall
              rw [hinstall] at hsends'
              exact hsends'
          · exact ⟨es, hsends, hes⟩

theorem install_abides (name text : String) (c : Client) :
    Wire.Abides (Template.install name text c) := by
  intro w
  constructor
  · obtain ⟨es, hsends, -⟩ := install_within name text c (P := fun _ => True) trivial trivial w
    exact ⟨es, hsends⟩
  · intro hclosed
    have hfound : (Fault.closedToCalls (Template.lookRequest name).tag).kind ≠ .notFound := nofun
    rw [Template.install, c.execute_closed _ _ hclosed]
    exact congrArg Prod.snd (if_neg hfound)

end Abides

section Moves

theorem bootstrap_moves (s : Template.Schema) {l m : Link} (h : l.Moves m) :
    l.Moves (s.bootstrap m).2 := by
  have hversion := h.call s.target (f := Template.version) version_abides
  unfold Template.Schema.bootstrap
  cases hcall : m.call s.target Template.version with
  | mk result n =>
      rw [hcall] at hversion
      cases result with
      | error f => exact hversion
      | ok number =>
          simp only
          cases Template.Branch.ofVersion (some number) with
          | error f => exact hversion
          | ok branch =>
              have hinstall := hversion.call s.target
                (install_abides s.name (s.template.renderText branch))
              simp only
              split <;>
              · rename_i hcall'
                rw [hcall'] at hinstall
                exact hinstall

namespace Storage

variable (s : Storage)

theorem check_store :
    s.check.2 = (s.onLink (Link.call s.target fun c =>
      c.execute (healthRequest s.naming.all) (Call.ofConversion readHealth))).2 := by
  unfold check
  split
  · rename_i hcall
    rw [hcall]
  · rename_i hcall
    rw [hcall]
    split <;> rfl

theorem ensure_moves : s.link.Moves s.ensure.2.link :=
  Once.get_kept (P := fun l => s.link.Moves l) (fun _ _ h => bootstrap_moves s.schema h)
    s.schema.once .refl

theorem client_moves : s.link.Moves s.client.2.link := by
  have hensure := s.ensure_moves
  unfold client
  cases hresult : s.ensure with
  | mk result t =>
      rw [hresult] at hensure
      cases result with
      | error f => exact hensure
      | ok u => exact hensure.reach t.target

theorem batch_store (typeName : String) (serialize : Value → Except Fault (List UInt8)) :
    (s.batch typeName serialize).2 = s.client.2 := by
  unfold batch
  cases s.client with
  | mk result t => cases result <;> rfl

theorem close_moves : s.link.Moves s.close.link := by
  unfold close
  split
  · exact Link.Moves.refl.use (.close ())
  · exact .refl

end Storage

namespace Visit

variable (v : Visit)

theorem withHeld_moves {α β : Type} (held : Option α) {f : α → Wire → β × Wire}
    (hf : ∀ a, Wire.Abides (f a)) : v.store.link.Moves (v.withHeld held f).2.store.link := by
  cases held with
  | none => exact .refl
  | some a => exact Link.Moves.refl.use (hf a)

theorem perform_moves (a : Act) : v.store.link.Moves (v.perform a).2.store.link := by
  cases a with
  | ensure => exact v.store.ensure_moves
  | http => exact v.store.client_moves
  | batch typeName serialize =>
      have hmoves := v.store.client_moves
      rw [← v.store.batch_store typeName serialize] at hmoves
      exact hmoves
  | searcher => exact v.store.client_moves
  | flush index => exact Link.Moves.refl.call v.store.target fun c => flush_abides c index
  | clear => exact Link.Moves.refl.call v.store.target fun c => clear_abides c _
  | check =>
      have hmoves : v.store.link.Moves (v.store.check).2.link := by
        rw [Storage.check_store]
        exact Link.Moves.refl.call v.store.target fun c => check_abides c _
      exact hmoves
  | close => exact v.store.close_moves
  | add i index document key => exact .refl
  | write i => exact v.withHeld_moves _ execute_batch_abides
  | submitWrite i meanwhile callback k =>
      exact v.withHeld_moves _ fun b => submit_batch_abides b _ callback k
  | search i q conversion => exact v.withHeld_moves _ fun c => execute_search_abides c q conversion
  | submitSearch i q conversion callback k =>
      exact v.withHeld_moves _ fun c => submit_search_abides c q conversion callback k
  | execute i r conversion => exact v.withHeld_moves _ fun c => c.execute_abides r conversion.within
  | submit i r conversion callback k =>
      exact v.withHeld_moves _ fun c => c.submit_abides r conversion.within callback k
  | shut i => exact v.withHeld_moves _ fun _ => .close ()

theorem run_moves (as : List Act) : v.store.link.Moves (v.run as).2.store.link := by
  induction as generalizing v with
  | nil => exact .refl
  | cons a as ih => exact (v.perform_moves a).trans (ih (v.perform a).2)

end Visit

end Moves

end SpanStore.Store
