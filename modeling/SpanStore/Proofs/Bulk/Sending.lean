import SpanStore.Proofs.Bulk.Report
import SpanStore.Proofs.Http.Outcome
import SpanStore.Proofs.Http.Target

namespace SpanStore

namespace Http

/-- A request with the tag that meets the answer ends with the fault, whatever it is for. -/
def Raises (tag : String) (a : Answer) (f : Fault) : Prop :=
  ∀ (r : Request) (v : Wire), r.tag = tag → Ends r Call.ignore v a (.error f) v

theorem raises_of_outcome {tag : String} {a : Answer} {f : Fault}
    (h : Client.outcome tag a = .error f) : Raises tag a f := by
  rintro r v rfl
  cases a with
  | fault g =>
      obtain rfl : Client.wireFault r.tag g = f := Except.error.inj h
      exact Client.ends_fault r _ v g
  | response status body =>
      simp only [Client.outcome] at h
      split at h
      · cases h
      · rename_i hstatus
        obtain rfl := Except.error.inj h
        exact Client.ends_refused r _ v hstatus

end Http

namespace Bulk

open Http (Addresses Answer Client Exchange Raises Request Sent Wire)

/-- The names of a list, each once, in the order in which they come first. -/
structure FirstAppearances (all names : List String) : Prop where
  mem_iff : ∀ name, name ∈ names ↔ name ∈ all
  ordered : names.Pairwise fun a b => all.idxOf a < all.idxOf b

theorem firstAppearances_eraseDups (all : List String) :
    FirstAppearances all all.eraseDups := by
  refine ⟨fun name => List.mem_eraseDups, ?_⟩
  induction all using List.reverseRecOn with
  | nil => exact .nil
  | append_singleton all last ih =>
      have hearlier {name : String} (h : name ∈ all.eraseDups) :
          (all ++ [last]).idxOf name = all.idxOf name :=
        List.idxOf_append_of_mem (List.mem_eraseDups.mp h)
      have hfront : all.eraseDups.Pairwise fun a b =>
          (all ++ [last]).idxOf a < (all ++ [last]).idxOf b :=
        ih.imp_of_mem fun ha hb hab => by rwa [hearlier ha, hearlier hb]
      by_cases hlast : last ∈ all
      · rwa [eraseDups_append_iff.mpr (List.forall_mem_singleton.mpr hlast)]
      · rw [eraseDups_concat_of_not_mem hlast, List.pairwise_append]
        refine ⟨hfront, List.pairwise_singleton _ _, ?_⟩
        intro name hname b hb
        obtain rfl := List.mem_singleton.mp hb
        have hend : (all ++ [b]).idxOf b = all.length := by simp [List.idxOf_append, hlast]
        rw [hearlier hname, hend]
        exact List.idxOf_lt_length_iff.mpr (List.mem_eraseDups.mp hname)

namespace Batch

def pipelineParams (b : Batch) : List (String × String) :=
  (b.pipeline.filter (· ≠ "")).toList.map fun pipeline => ("pipeline", pipeline)

structure Posts (b : Batch) (s : Sent) : Prop where
  method : s.method = "POST"
  address : Addresses ["_bulk"] b.pipelineParams s.target
  body : s.body = some b.body

def writeAll (b : Batch) : Sent :=
  (Request.build "POST" ["_bulk"] b.tag b.pipelineParams (.bytes b.body) Http.jsonLines).toSent
    b.client.config.requestTimeout

theorem writeAll_posts (b : Batch) : b.Posts b.writeAll :=
  ⟨rfl, Request.target_addresses (List.cons_ne_nil _ _) "POST" b.tag b.pipelineParams
    (.bytes b.body) Http.jsonLines, rfl⟩

theorem request_eq {b : Batch} (h : b.actions ≠ []) :
    b.request = .ok (Request.build "POST" ["_bulk"] b.tag b.pipelineParams (.bytes b.body)
      Http.jsonLines) := by
  rw [request, List.isEmpty_eq_false_iff.mpr h, if_neg Bool.false_ne_true, pipelineParams]
  cases b.pipeline with
  | none => rfl
  | some pipeline => by_cases hname : pipeline = "" <;> simp [hname, Option.filter]

structure Flushes (b : Batch) (s : Sent) : Prop where
  method : s.method = "POST"
  body : s.body = some []
  address : ∃ level names, Addresses [level, "_flush"] [] s.target ∧
    FirstAppearances (b.actions.map Action.index) names ∧
    ((∀ name ∈ names, ',' ∉ name.toList) → level.toList.splitOn ',' = names.map String.toList)

theorem flushAll_flushes {b : Batch} (h : b.actions ≠ []) : b.Flushes b.flushAll := by
  have haddress := Request.target_addresses
    (List.cons_ne_nil (String.intercalate "," b.indices) ["_flush"]) "POST" "flush-index" []
    (.bytes []) Http.json
  refine ⟨rfl, rfl, _, b.indices, haddress, firstAppearances_eraseDups _, ?_⟩
  intro hcommas
  have hindices : b.indices.map String.toList ≠ [] := by
    rw [ne_eq, List.map_eq_nil_iff, indices, eraseDups_eq_nil_iff, List.map_eq_nil_iff]
    exact h
  rw [String.toList_intercalate]
  exact List.splitOn_intercalate ',' (List.forall_mem_map.mpr hcommas) hindices

/-- What the result of a batch says that met the first answer. -/
structure Reports (b : Batch) (first : Answer) (result : Result) : Prop where
  total : result.total = b.actions.length
  indices : FirstAppearances (b.actions.map Action.index) result.indices
  flushed : result.flushed = b.flushOnWrites
  response : first.accepted? = some result.response

/-- The fault of a batch is that of the request that failed. One of the flush that is not the
store's own counts as a failure to convert the answer to the batch. -/
inductive Blames (b : Batch) (first : Exchange) (rest : List Exchange) : Fault → Prop where
  | write {f : Fault} (h : Raises b.tag first.answer f) : Blames b first rest f
  | flush {e : Exchange} {f : Fault} (hrest : rest = [e]) (h : Raises "flush-index" e.answer f)
      (hown : f.kind.isOwn = true) : Blames b first rest f
  | conversion {e : Exchange} {f g : Fault} (hrest : rest = [e])
      (h : Raises "flush-index" e.answer g) (hown : g.kind.isOwn = false)
      (hkind : f.kind = .conversion) (hnames : f.Names b.tag) : Blames b first rest f

/-- How a batch goes out on an open wire: first the request that writes it, then the rest. -/
structure Sending (b : Batch) (w : Wire) (first : Exchange) (rest : List Exchange)
    (outcome : Except Fault Result) (w' : Wire) : Prop where
  sends : Wire.Sends w (first :: rest) w'
  stays_open : w'.isClosed = false
  posts : b.Posts first.request
  flushes : ∀ e ∈ rest, b.Flushes e.request
  flush_iff : rest ≠ [] ↔ b.flushOnWrites = true ∧ first.answer.accepted?.isSome = true
  flush_once : rest.length ≤ 1
  returns_iff : outcome.isOk = true ↔ ∀ e ∈ first :: rest, e.answer.accepted?.isSome = true
  result : ∀ result, outcome = .ok result → b.Reports first.answer result
  fault : ∀ f, outcome = .error f → b.Blames first rest f

section Execute

variable {b : Batch} {w : Wire}

theorem reports_result {first : Answer} {body : List UInt8} (h : first.accepted? = some body) :
    b.Reports first ⟨b.size, b.indices, b.flushOnWrites, body⟩ :=
  ⟨rfl, firstAppearances_eraseDups _, rfl, h⟩

theorem blames_conversion {first e : Exchange} {f : Fault}
    (h : Client.outcome "flush-index" e.answer = .error f) :
    b.Blames first [e] (Client.conversionFault b.tag f) := by
  have hraises := Http.raises_of_outcome h
  cases hown : f.kind.isOwn with
  | true =>
      rw [Client.conversionFault, if_pos hown]
      exact .flush rfl hraises hown
  | false =>
      rw [Client.conversionFault, hown, if_neg Bool.false_ne_true]
      exact .conversion rfl hraises hown rfl (Fault.names_notConverted b.tag f)

theorem execute_eq (hactions : b.actions ≠ []) (hopen : w.isClosed = false) :
    b.execute w = match Client.outcome b.tag (w.exchange b.writeAll).1 with
      | .error f => (.error f, (w.exchange b.writeAll).2)
      | .ok body =>
          ((b.conclude body (w.exchange b.writeAll).2).1.mapError (Client.conversionFault b.tag),
            (b.conclude body (w.exchange b.writeAll).2).2) := by
  rw [execute, request_eq hactions]
  exact b.client.execute_open _ b.conclude hopen

theorem isOk_map {α β : Type} (outcome : Except Fault α) (f : α → β) :
    (outcome.map f).isOk = outcome.isOk := by
  cases outcome <;> rfl

section Answered

variable (hopen : w.isClosed = false)

include hopen

theorem sending_refused {f : Fault}
    (h : Client.outcome b.tag (w.exchange b.writeAll).1 = .error f) :
    b.Sending w ⟨b.writeAll, (w.exchange b.writeAll).1⟩ [] (.error f)
      (w.exchange b.writeAll).2 where
  sends := Wire.Sends.one w b.writeAll
  stays_open := hopen
  posts := b.writeAll_posts
  flushes := List.forall_mem_nil _
  flush_iff := by simp [Client.accepted?_eq_none_of_error h]
  flush_once := Nat.zero_le 1
  returns_iff := by
    simp [Client.accepted?_eq_none_of_error h, Except.isOk, Except.toBool]
  result := nofun
  fault g hg := by
    obtain rfl := Except.error.inj hg
    exact .write (Http.raises_of_outcome h)

theorem sending_unflushed {body : List UInt8}
    (h : (w.exchange b.writeAll).1.accepted? = some body) (hflush : b.flushOnWrites = false) :
    b.Sending w ⟨b.writeAll, (w.exchange b.writeAll).1⟩ []
      (.ok ⟨b.size, b.indices, b.flushOnWrites, body⟩) (w.exchange b.writeAll).2 where
  sends := Wire.Sends.one w b.writeAll
  stays_open := hopen
  posts := b.writeAll_posts
  flushes := List.forall_mem_nil _
  flush_iff := by simp [hflush]
  flush_once := Nat.zero_le 1
  returns_iff := by simp [h, Except.isOk, Except.toBool]
  result result hresult := by
    obtain rfl := Except.ok.inj hresult
    exact reports_result h
  fault := nofun

theorem sending_flushing {body : List UInt8} (hactions : b.actions ≠ [])
    (h : (w.exchange b.writeAll).1.accepted? = some body) (hflush : b.flushOnWrites = true) :
    let second := (w.exchange b.writeAll).2.exchange b.flushAll
    b.Sending w ⟨b.writeAll, (w.exchange b.writeAll).1⟩ [⟨b.flushAll, second.1⟩]
      (((Client.outcome "flush-index" second.1).map fun _ =>
        ⟨b.size, b.indices, b.flushOnWrites, body⟩).mapError (Client.conversionFault b.tag))
      second.2 where
  sends := (Wire.Sends.one w b.writeAll).trans (.one _ b.flushAll)
  stays_open := hopen
  posts := b.writeAll_posts
  flushes := List.forall_mem_singleton.mpr (flushAll_flushes hactions)
  flush_iff := by simp [h, hflush]
  flush_once := Nat.le_refl 1
  returns_iff := by
    rw [isOk_mapError, isOk_map, Client.isOk_outcome]
    simp [h]
  result result hresult := by
    have hok := mapError_ok_iff.mp hresult
    cases houtcome : Client.outcome "flush-index" _ with
    | error f =>
        rw [houtcome] at hok
        cases hok
    | ok _ =>
        rw [houtcome] at hok
        obtain rfl := Except.ok.inj hok
        exact reports_result h
  fault f hf := by
    cases houtcome : Client.outcome "flush-index" _ with
    | error g =>
        rw [houtcome] at hf
        obtain rfl := Except.error.inj hf
        exact blames_conversion houtcome
    | ok _ =>
        rw [houtcome] at hf
        cases hf

end Answered

theorem execute_sending (hactions : b.actions ≠ []) (hopen : w.isClosed = false) :
    ∃ first rest, b.Sending w first rest (b.execute w).1 (b.execute w).2 := by
  rw [execute_eq hactions hopen]
  cases houtcome : Client.outcome b.tag (w.exchange b.writeAll).1 with
  | error f => exact ⟨_, _, sending_refused hopen houtcome⟩
  | ok body =>
      have haccepted := Client.outcome_eq_ok_iff.mp houtcome
      cases hflush : b.flushOnWrites with
      | false =>
          have hsending := sending_unflushed hopen haccepted hflush
          rw [hflush] at hsending
          simp only [conclude_unflushed body hflush]
          exact ⟨_, _, hsending⟩
      | true =>
          have hsending := sending_flushing hopen hactions haccepted hflush
          rw [hflush] at hsending
          have hv : (w.exchange b.writeAll).2.isClosed = false := hopen
          simp only [conclude_flushing body hflush hactions hv]
          exact ⟨_, _, hsending⟩

end Execute

end Batch

/-- What is done with a batch: a document is added to it, or it is sent. -/
inductive Use where
  | add (a : Addition)
  | send

def Use.additions : List Use → List Addition
  | [] => []
  | .add a :: us => a :: additions us
  | .send :: us => additions us

namespace Batch

def use (b : Batch) (w : Wire) : Use → Batch × Wire
  | .add a => ((b.addOne a).2, w)
  | .send => (b, (b.execute w).2)

def run (b : Batch) (w : Wire) (us : List Use) : Batch × Wire :=
  us.foldl (fun p u => p.1.use p.2 u) (b, w)

theorem execute_empty {b : Batch} (h : b.actions = []) (w : Wire) :
    b.execute w = (.error (.emptyBatch b.tag), w) := by
  simp [execute, request, h]

theorem use_stays_open (b : Batch) {w : Wire} (h : w.isClosed = false) (u : Use) :
    (b.use w u).2.isClosed = false := by
  cases u with
  | add a => exact h
  | send =>
      by_cases hactions : b.actions = []
      · rw [use, execute_empty hactions]
        exact h
      · obtain ⟨_, _, hsending⟩ := execute_sending hactions h
        exact hsending.stays_open

theorem run_keeps (b : Batch) {w : Wire} (h : w.isClosed = false) (us : List Use) :
    (b.run w us).1 = b.addAll (Use.additions us) ∧ (b.run w us).2.isClosed = false := by
  induction us generalizing b w with
  | nil => exact ⟨rfl, h⟩
  | cons u us ih =>
      obtain ⟨hbatch, hopen⟩ := ih (b.use w u).1 (b.use_stays_open h u)
      refine ⟨?_, hopen⟩
      cases u with
      | add a => exact hbatch
      | send => exact hbatch

/-- Whatever was done with a batch before, it holds what was added to it and nothing of how it was
sent. When it is sent, an empty one fails at once; for every other one, a request with the whole
body goes out, then perhaps a flush, and the answers to them decide how it ends. -/
theorem run_sends (b : Batch) {w : Wire} (hopen : w.isClosed = false) (us : List Use) :
    ∃ c v, b.run w us = (c, v) ∧ c = b.addAll (Use.additions us) ∧
      b.run w (us ++ [.send]) = (c, (c.execute v).2) ∧
      (c.actions = [] → ∃ f, c.execute v = (.error f, v) ∧ f.kind = .batch) ∧
      (c.actions ≠ [] → ∃ first rest, c.Sending v first rest (c.execute v).1 (c.execute v).2) := by
  obtain ⟨hbatch, hv⟩ := b.run_keeps hopen us
  refine ⟨(b.run w us).1, (b.run w us).2, rfl, hbatch, ?_, ?_, ?_⟩
  · rw [run, List.foldl_append]
    rfl
  · exact fun hactions => ⟨_, execute_empty hactions _, rfl⟩
  · exact fun hactions => execute_sending hactions hv

def busy : Wire :=
  .fresh [.response 503 .absent, .response 200 (.text "taken"), .fault (.raise .runtime "lost")]

theorem run_sends_busy : busy.isClosed = false ∧
    ∃ c v f first rest w', flushing.run busy [.add plainDocument, .send] = (c, v) ∧
      c = flushing.addAll [plainDocument] ∧ c.execute v = (.error f, w') ∧
      f.kind = .conversion ∧ c.Sending v first rest (.error f) w' ∧
      w'.sent.map Sent.target =
        ["/_bulk".toList, "/_bulk".toList, "/traces-b/_flush".toList] := by
  obtain ⟨c, v, hrun, hbatch, -, -, hsends⟩ :=
    run_sends flushing (w := busy) rfl [.add plainDocument, .send]
  obtain ⟨rfl, rfl⟩ := Prod.mk.inj hrun
  obtain ⟨first, rest, hsending⟩ := hsends (List.cons_ne_nil _ _)
  exact ⟨rfl, _, _, _, first, rest, _, hrun, hbatch, rfl, rfl, hsending, rfl⟩

end Batch

end Bulk

end SpanStore
