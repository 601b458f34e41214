import SpanStore.Proofs.Store.Gate

namespace SpanStore.Store

open Http (Call Client Exchange Request Sent Wire)

/-- Exchanges that keep to the gate as it stands before each of them. -/
def Guarded (c : Config) : Gate → List Exchange → Prop
  | _, [] => True
  | g, e :: es =>
      (Writes e.request ∨ Searches e.request → g = .opened) ∧
      (g = .opened → ¬ Prepares e.request) ∧ Guarded c (g.advance c e) es

namespace Guarded

variable {c : Config} {g : Gate} {es fs : List Exchange}

theorem append (hes : Guarded c g es) (hfs : Guarded c (es.foldl (Gate.advance c) g) fs) :
    Guarded c g (es ++ fs) := by
  induction es generalizing g with
  | nil => exact hfs
  | cons e es ih =>
      obtain ⟨hopened, hprepares, hrest⟩ := hes
      exact ⟨hopened, hprepares, ih hrest hfs⟩

theorem split {e : Exchange} (h : Guarded c g (es ++ e :: fs)) :
    (Writes e.request ∨ Searches e.request → es.foldl (Gate.advance c) g = .opened) ∧
      (es.foldl (Gate.advance c) g = .opened → ¬ Prepares e.request) := by
  induction es generalizing g with
  | nil => exact ⟨h.1, h.2.1⟩
  | cons d es ih => exact ih h.2.2

theorem of_opened (h : ∀ e ∈ es, ¬ Prepares e.request) : Guarded c .opened es := by
  induction es with
  | nil => trivial
  | cons e es ih =>
      obtain ⟨he, hes⟩ := List.forall_mem_cons.mp h
      exact ⟨fun _ => rfl, fun _ => he, ih hes⟩

end Guarded

/-- Requests that any gate lets through and none notices. -/
def Manages (s : Sent) : Prop := ¬ Writes s ∧ ¬ Searches s ∧ ¬ Prepares s

theorem Gate.advance_manages {c : Config} {g : Gate} {e : Exchange} (h : Manages e.request) :
    g.advance c e = .opened ↔ g = .opened := by
  have hgreets : ¬ Greets e.request := fun hgreets => h.2.2 (.inl hgreets)
  have hlooks : ¬ Looks c e.request :=
    fun hlooks => h.2.2 (.inr ⟨.inl hlooks.1, by rw [hlooks.2]; exact List.prefix_append _ _⟩)
  have hinstalls (b : Template.Branch) : ¬ Installs c b e.request := fun hinstalls =>
    h.2.2 (.inr ⟨.inr hinstalls.1, by rw [hinstalls.2.1]; exact List.prefix_append _ _⟩)
  have hannounced : announced? e = none := announced?_eq_none hgreets e.answer
  cases g <;> simp [advance, hlooks, hinstalls, hannounced]

theorem Guarded.of_manages {c : Config} {es : List Exchange} (h : ∀ e ∈ es, Manages e.request)
    (g : Gate) :
    Guarded c g es ∧ (es.foldl (Gate.advance c) g = .opened ↔ g = .opened) := by
  induction es generalizing g with
  | nil => exact ⟨trivial, Iff.rfl⟩
  | cons e es ih =>
      obtain ⟨he, hes⟩ := List.forall_mem_cons.mp h
      obtain ⟨hrest, hopened⟩ := ih hes (g.advance c e)
      refine ⟨⟨?_, fun _ => he.2.2, hrest⟩, hopened.trans (Gate.advance_manages he)⟩
      rintro (hwrites | hsearches)
      · exact absurd hwrites he.1
      · exact absurd hsearches he.2.1

section Requests

variable {s : Sent}

theorem Writes.post (h : Writes s) :
    s.method = "POST" ∧ s.headers = [("accept", Http.json), ("content-type", Http.jsonLines)] := by
  obtain ⟨b, r, timeout, hr, rfl⟩ := h
  unfold Bulk.Batch.request at hr
  split at hr
  · cases hr
  · cases hr
    exact ⟨rfl, rfl⟩

theorem toJson_ne_nil (q : Search.Query) : q.toJson ≠ [] := by
  intro h
  cases h

theorem Searches.post (h : Searches s) :
    s.method = "POST" ∧ ∃ body, s.body = some body ∧ body ≠ [] := by
  obtain ⟨q, r, timeout, hr, rfl⟩ := h
  unfold Search.Query.request Search.lenientRequest at hr
  split at hr
  · cases hr
  · cases hr
    exact ⟨rfl, q.toJson, rfl, toJson_ne_nil q⟩

theorem not_prepares (hget : s.method ≠ "GET") (hput : s.method ≠ "PUT") : ¬ Prepares s := by
  rintro (hgreets | ⟨hmethod | hmethod, -⟩)
  · exact hget hgreets.1
  · exact hget hmethod
  · exact hput hmethod

theorem Writes.not_prepares (h : Writes s) : ¬ Prepares s := by
  apply Store.not_prepares <;> rw [h.post.1] <;> decide

theorem Searches.not_prepares (h : Searches s) : ¬ Prepares s := by
  apply Store.not_prepares <;> rw [h.post.1] <;> decide

theorem manages_of_not_post (hpost : s.method ≠ "POST") (hprepares : ¬ Prepares s) : Manages s :=
  ⟨fun h => hpost h.post.1, fun h => hpost h.post.1, hprepares⟩

theorem flush_manages (index : String) (timeout : Quantity) :
    Manages ((Bulk.flushRequest index).toSent timeout) := by
  refine ⟨?_, ?_, not_prepares (show "POST" ≠ "GET" by decide) (show "POST" ≠ "PUT" by decide)⟩
  · intro h
    have htypes : (Http.json : String) ≠ Http.jsonLines := by decide
    have hheaders := h.post.2
    injection hheaders with _ hrest
    injection hrest with htype
    exact htypes (Prod.mk.inj htype).2
  · intro h
    obtain ⟨-, body, hbody, hne⟩ := h.post
    obtain rfl : [] = body := Option.some.inj hbody
    exact hne rfl

theorem delete_manages (indices : String) (timeout : Quantity) :
    Manages ((deleteRequest indices).toSent timeout) :=
  manages_of_not_post (show "DELETE" ≠ "POST" by decide)
    (not_prepares (show "DELETE" ≠ "GET" by decide) (show "DELETE" ≠ "PUT" by decide))

theorem health_manages (indices : String) (timeout : Quantity) :
    Manages ((healthRequest indices).toSent timeout) := by
  have htarget : ((healthRequest indices).toSent timeout).target =
      "/_cluster/health/".toList ++ (Text.Percent.encodeSegment indices.toList ++ []) := rfl
  refine manages_of_not_post (show "GET" ≠ "POST" by decide) ?_
  rintro (⟨-, hgreets⟩ | ⟨-, htemplates⟩)
  · rw [htarget] at hgreets
    cases hgreets
  · rw [htarget] at htemplates
    obtain ⟨rest, hrest⟩ := htemplates
    cases hrest

theorem Manages.not_prepares (h : Manages s) : ¬ Prepares s := h.2.2

end Requests

section Calls

variable {α κ : Type}

theorem flush_within (c : Client) (index : String) : Call.Within Manages (Bulk.flush c index) :=
  .execute (flush_manages index _) fun _ => .of_pure _

theorem clear_within (c : Client) (indices : String) :
    Call.Within Manages fun w =>
      match c.execute (deleteRequest indices) Call.ignore w with
      | (.error f, w) => (.error f, w)
      | (.ok (), w) => Bulk.flush c indices w :=
  .andThen (.execute (delete_manages indices _) fun _ => .of_pure _) (flush_within c indices)

theorem check_within (c : Client) (indices : String) :
    Call.Within Manages (c.execute (healthRequest indices) (Call.ofConversion readHealth)) :=
  .execute (health_manages indices _) (.of_conversion readHealth)

theorem conclude_within (b : Bulk.Batch) (body : List UInt8) :
    Call.Within (fun s => ¬ Prepares s) (b.conclude body) := by
  intro w
  unfold Bulk.Batch.conclude
  split
  · obtain ⟨es, hsends, hes⟩ := flush_within b.client (String.intercalate "," b.indices) w
    refine ⟨es, ?_, fun e he => (hes e he).not_prepares⟩
    split <;>
    · rename_i hflush
      rw [hflush] at hsends
      exact hsends
  · exact ⟨[], .refl, fun _ h => absurd h List.not_mem_nil⟩

theorem execute_batch_within (b : Bulk.Batch) :
    Call.Within (fun s => ¬ Prepares s) b.execute := by
  unfold Bulk.Batch.execute
  cases hr : b.request with
  | error f => exact .of_pure _
  | ok r =>
      have hwrites : Writes (r.toSent b.client.config.requestTimeout) := ⟨b, r, _, hr, rfl⟩
      exact .execute hwrites.not_prepares (conclude_within b)

theorem submit_batch_within (b later : Bulk.Batch)
    (callback : Option (Http.Callback κ Bulk.Result)) (k : κ) :
    Call.Within (fun s => ¬ Prepares s) fun w =>
      (.ok (b.submit later callback k w).1, (b.submit later callback k w).2) := by
  unfold Bulk.Batch.submit
  cases hr : b.request with
  | error f => exact .of_pure (.ok (Except.error f, k))
  | ok r =>
      have hwrites : Writes (r.toSent b.client.config.requestTimeout) := ⟨b, r, _, hr, rfl⟩
      exact (Call.Within.execute hwrites.not_prepares (conclude_within later)).congr
        fun w => b.client.submit_wire r later.conclude callback k w

theorem execute_search_within (c : Client) (q : Search.Query) {convert : List UInt8 → Call α}
    (hconvert : ∀ body, Call.Within (fun s => ¬ Prepares s) (convert body)) :
    Call.Within (fun s => ¬ Prepares s) (Search.execute c q convert) := by
  unfold Search.execute
  cases hr : q.request with
  | error f => exact .of_pure _
  | ok r =>
      have hsearches : Searches (r.toSent c.config.requestTimeout) := ⟨q, r, _, hr, rfl⟩
      exact .execute hsearches.not_prepares hconvert

theorem submit_search_within (c : Client) (q : Search.Query) {convert : List UInt8 → Call α}
    (hconvert : ∀ body, Call.Within (fun s => ¬ Prepares s) (convert body))
    (callback : Option (Http.Callback κ α)) (k : κ) :
    Call.Within (fun s => ¬ Prepares s) fun w =>
      (.ok (Search.submit c q convert callback k w).1, (Search.submit c q convert callback k w).2) := by
  unfold Search.submit
  cases hr : q.request with
  | error f => exact .of_pure (.ok (Except.error f, k))
  | ok r =>
      have hsearches : Searches (r.toSent c.config.requestTimeout) := ⟨q, r, _, hr, rfl⟩
      exact (Call.Within.execute hsearches.not_prepares hconvert).congr
        fun w => c.submit_wire r convert callback k w

end Calls

end SpanStore.Store
