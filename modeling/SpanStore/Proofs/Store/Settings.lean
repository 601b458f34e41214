import SpanStore.Proofs.Store.Visit

namespace SpanStore.Store

open Http (Link Wire)

namespace Storage

structure Keeps (s t : Storage) : Prop where
  config : t.config = s.config
  schema : ∃ once, t.schema = { s.schema with once := once }

namespace Keeps

variable {s t u : Storage}

theorem refl : Keeps s s := ⟨rfl, _, rfl⟩

theorem trans (h : Keeps s t) (h' : Keeps t u) : Keeps s u := by
  obtain ⟨hconfig, once, hschema⟩ := h
  obtain ⟨hconfig', once', hschema'⟩ := h'
  exact ⟨hconfig'.trans hconfig, once', by rw [hschema', hschema]⟩

theorem onLink {α : Type} (f : Link → Except Fault α × Link) : Keeps s (s.onLink f).2 :=
  ⟨rfl, _, rfl⟩

theorem ensure : Keeps s s.ensure.2 := ⟨rfl, _, rfl⟩

theorem client : Keeps s s.client.2 := by
  have hensure := ensure (s := s)
  unfold Storage.client
  cases hresult : s.ensure with
  | mk result t =>
      rw [hresult] at hensure
      cases result with
      | error f => exact hensure
      | ok u => exact hensure.trans (.onLink _)

theorem check : Keeps s s.check.2 := by
  rw [check_store]
  exact .onLink _

theorem close : Keeps s s.close := by
  unfold Storage.close
  split
  · exact .onLink _
  · exact .refl

end Keeps

end Storage

namespace Visit

theorem withHeld_keeps {α β : Type} (v : Visit) (held : Option α) (f : α → Wire → β × Wire) :
    v.store.Keeps (v.withHeld held f).2.store := by
  cases held with
  | none => exact .refl
  | some a => exact ⟨rfl, _, rfl⟩

theorem perform_keeps (v : Visit) (a : Act) : v.store.Keeps (v.perform a).2.store := by
  cases a with
  | ensure => exact .ensure
  | http | searcher => exact .client
  | batch typeName serialize =>
      have hkeeps : v.store.Keeps (v.store.batch typeName serialize).2 := by
        rw [v.store.batch_store]
        exact .client
      exact hkeeps
  | flush | clear => exact ⟨rfl, _, rfl⟩
  | check => exact .check
  | close => exact .close
  | add i index document key => exact .refl
  | write | search | submitSearch | execute | submit | shut => exact v.withHeld_keeps _ _
  | submitWrite i meanwhile callback k =>
      exact v.withHeld_keeps v.batches[i]? fun b => b.submit (grow meanwhile b) callback k

theorem run_keeps (v : Visit) (as : List Act) : v.store.Keeps (v.run as).2.store := by
  induction as generalizing v with
  | nil => exact .refl
  | cons a as ih => exact (v.perform_keeps a).trans (ih (v.perform a).2)

variable (c : Config) (script : List Http.Answer) (directory : Net.Directory) (acts : List Act)

theorem run_config : ((start c script directory).run acts).2.store.config = c :=
  ((start c script directory).run_keeps acts).config

theorem run_wanted : Wanted c ((start c script directory).run acts).2.store.schema := by
  obtain ⟨once, hschema⟩ := ((start c script directory).run_keeps acts).schema
  rw [hschema]
  exact ⟨rfl, rfl⟩

end Visit

end SpanStore.Store
