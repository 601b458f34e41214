import SpanStore.Proofs.Bulk.Lines
import SpanStore.Proofs.Distinct
import SpanStore.Proofs.Http.Exchange

/-!
What the result of a submitted batch says. The request is made when the batch is submitted and the
result when the answer has come, so the result counts every document that was added by then.
-/
namespace SpanStore

namespace Http

def told {κ α : Type} (callback : Option (Callback κ α)) (outcome : Except Fault α) (k : κ) :
    Except Fault α × κ :=
  match callback with
  | none => (outcome, k)
  | some callback => callback.settle outcome k

theorem Client.submit_open {κ α : Type} (c : Client) (r : Request)
    (convert : List UInt8 → Call α) (callback : Option (Callback κ α)) (k : κ) {w : Wire}
    (h : w.isClosed = false) :
    c.submit r convert callback k w =
      (told callback (c.execute r convert w).1 k, (c.execute r convert w).2) := by
  simp only [submit, h, Bool.false_eq_true, if_false]
  cases callback <;> rfl

theorem Client.isOk_outcome (tag : String) (a : Answer) :
    (outcome tag a).isOk = a.accepted?.isSome := by
  cases houtcome : outcome tag a with
  | error f =>
      rw [accepted?_eq_none_of_error houtcome]
      rfl
  | ok body =>
      rw [outcome_eq_ok_iff.mp houtcome]
      rfl

@[simp] theorem Wire.exchange_isClosed (w : Wire) (s : Sent) :
    (w.exchange s).2.isClosed = w.isClosed := rfl

end Http

namespace Bulk

open Http (Wire Request Call)

namespace Batch

section Later

variable (b : Batch) (a : Addition) (as bs : List Addition)

theorem addOne_client : (b.addOne a).2.client = b.client := by
  rcases b.addOne_cases a with ⟨-, -, f, h⟩ | ⟨-, first, f, -, -, h⟩ | ⟨-, -, h⟩ <;> rw [h]

theorem addOne_flushOnWrites : (b.addOne a).2.flushOnWrites = b.flushOnWrites := by
  rcases b.addOne_cases a with ⟨-, -, f, h⟩ | ⟨-, first, f, -, -, h⟩ | ⟨-, -, h⟩ <;> rw [h]

theorem addAll_keeps : (b.addAll as).client = b.client ∧
    (b.addAll as).flushOnWrites = b.flushOnWrites ∧ (b.addAll as).typeName = b.typeName ∧
    (b.addAll as).serialize = b.serialize := by
  induction as generalizing b with
  | nil => exact ⟨rfl, rfl, rfl, rfl⟩
  | cons a as ih =>
      have hrest := ih (b.addOne a).2
      rw [b.addOne_client, b.addOne_flushOnWrites, b.addOne_typeName, b.addOne_serialize] at hrest
      exact hrest

theorem kept_addAll : (b.addAll as).kept bs = b.kept bs := by
  obtain ⟨-, -, ht, hs⟩ := b.addAll_keeps as
  exact List.filter_congr fun a _ => isOk_congr ht hs a

theorem size_addAll : (b.addAll as).size = b.size + (b.kept as).length := by
  rw [size, addAll_actions, List.length_append, List.length_map]
  rfl

theorem size_addAll_iff : (b.addAll as).size = b.size ↔ b.kept as = [] := by
  rw [size_addAll, ← List.length_eq_zero_iff]
  omega

theorem indices_addAll_iff :
    (b.addAll as).indices = b.indices ↔
      ∀ a ∈ b.kept as, a.index ∈ b.actions.map Action.index := by
  rw [indices, addAll_actions, List.map_append, indices, eraseDups_append_iff, List.map_map]
  exact List.forall_mem_map

end Later

section Conclude

variable {b : Batch} (response : List UInt8) {w : Wire}

theorem conclude_unflushed (h : b.flushOnWrites = false) :
    b.conclude response w = (.ok ⟨b.size, b.indices, false, response⟩, w) := by
  simp [conclude, h]

def flushAll (b : Batch) : Http.Sent :=
  (flushRequest (String.intercalate "," b.indices)).toSent b.client.config.requestTimeout

theorem conclude_flushing (h : b.flushOnWrites = true) (hactions : b.actions ≠ [])
    (hopen : w.isClosed = false) :
    b.conclude response w =
      ((Http.Client.outcome "flush-index" (w.exchange b.flushAll).1).map fun _ =>
        ⟨b.size, b.indices, true, response⟩, (w.exchange b.flushAll).2) := by
  have hindices : b.indices.isEmpty = false := by
    rw [List.isEmpty_eq_false_iff, indices, ne_eq, eraseDups_eq_nil_iff]
    simpa using hactions
  have hflush : flush b.client (String.intercalate "," b.indices) w = _ :=
    b.client.execute_open _ Call.ignore hopen
  have htag : (flushRequest (String.intercalate "," b.indices)).tag = "flush-index" := rfl
  simp only [conclude, h, hindices, Bool.not_false, Bool.and_self, if_true]
  rw [hflush, ← flushAll, htag]
  cases Http.Client.outcome "flush-index" (w.exchange b.flushAll).1 with
  | error f => rfl
  | ok body => rfl

theorem conclude_flushed (h : b.flushOnWrites = true) (hactions : b.actions ≠ [])
    (hopen : w.isClosed = false) :
    (b.conclude response w).2 = (w.exchange b.flushAll).2 ∧
      ((b.conclude response w).1.isOk = true ↔
        (w.exchange b.flushAll).1.accepted?.isSome = true) ∧
      ∀ result, (b.conclude response w).1 = .ok result →
        result = ⟨b.size, b.indices, true, response⟩ := by
  rw [conclude_flushing response h hactions hopen,
    ← Http.Client.isOk_outcome "flush-index" (w.exchange b.flushAll).1]
  cases Http.Client.outcome "flush-index" (w.exchange b.flushAll).1 with
  | error f => exact ⟨rfl, Iff.rfl, nofun⟩
  | ok body => exact ⟨rfl, Iff.rfl, fun result h => (Except.ok.inj h).symm⟩

end Conclude

/-- How a submitted batch ends that was answered. The request is that of the batch as submitted,
and all else follows the batch that it has become. -/
structure Ends (b later : Batch) (response : List UInt8) (w : Wire) (r : Request)
    (outcome : Except Fault Result) (w' : Wire) : Prop where
  body : r.body = some b.body
  sent : w'.sent = w.sent ++ r.toSent b.client.config.requestTimeout ::
    (if b.flushOnWrites then [later.flushAll] else [])
  succeeds : outcome.isOk = true ↔ (b.flushOnWrites = true →
    (w.answers.tail.headD Wire.emptyObject).accepted?.isSome = true)
  result : ∀ result, outcome = .ok result →
    result = ⟨later.size, later.indices, b.flushOnWrites, response⟩

theorem mapError_ok_iff {α : Type} {outcome : Except Fault α} {f : Fault → Fault} {x : α} :
    outcome.mapError f = .ok x ↔ outcome = .ok x := by
  cases outcome with
  | error g => exact ⟨nofun, nofun⟩
  | ok y => exact Iff.rfl

theorem isOk_mapError {α : Type} (outcome : Except Fault α) (f : Fault → Fault) :
    (outcome.mapError f).isOk = outcome.isOk := by
  cases outcome <;> rfl

theorem conclude_ends {b later : Batch} {response : List UInt8} {w : Wire} {r : Request}
    (hr : b.request = .ok r) (hflush : later.flushOnWrites = b.flushOnWrites)
    (hlater : later.actions ≠ []) (hopen : w.isClosed = false) (tag : String) :
    let v := (w.exchange (r.toSent b.client.config.requestTimeout)).2
    Ends b later response w r
      ((later.conclude response v).1.mapError (Http.Client.conversionFault tag))
      (later.conclude response v).2 := by
  intro v
  cases hf : b.flushOnWrites with
  | false =>
      rw [conclude_unflushed response (hflush.trans hf)]
      refine ⟨request_body hr, by simp [v, Wire.exchange, hf], ?_, ?_⟩
      · rw [isOk_mapError, hf]
        exact ⟨fun _ hflushes => absurd hflushes Bool.false_ne_true, fun _ => rfl⟩
      · intro result hresult
        exact hf ▸ (Except.ok.inj hresult).symm
  | true =>
      obtain ⟨hwire, hok, hresult⟩ :=
        conclude_flushed (w := v) response (hflush.trans hf) hlater hopen
      refine ⟨request_body hr, ?_, ?_, ?_⟩
      · rw [hwire]
        simp [v, Wire.exchange, hf]
      · rw [isOk_mapError, hok, hf]
        simp [v, Wire.exchange]
      · intro result h
        rw [hf]
        exact hresult result (mapError_ok_iff.mp h)

theorem submit_ends {κ : Type} {b later : Batch} {response : List UInt8} {w : Wire}
    (hb : b.actions ≠ []) (hflush : later.flushOnWrites = b.flushOnWrites)
    (hlater : later.actions ≠ []) (hopen : w.isClosed = false)
    (hanswer : (w.answers.headD Wire.emptyObject).accepted? = some response)
    (callback : Option (Http.Callback κ Result)) (k : κ) :
    ∃ r outcome w', b.request = .ok r ∧ Ends b later response w r outcome w' ∧
      b.submit later callback k w = (Http.told callback outcome k, w') := by
  obtain ⟨r, hr, -⟩ := request_ok hb
  have houtcome : Http.Client.outcome r.tag
      (w.exchange (r.toSent b.client.config.requestTimeout)).1 = .ok response :=
    Http.Client.outcome_eq_ok_iff.mpr hanswer
  refine ⟨r, _, _, hr, conclude_ends hr hflush hlater hopen r.tag, ?_⟩
  simp only [submit, hr]
  rw [b.client.submit_open r later.conclude callback k hopen,
    b.client.execute_open r later.conclude hopen, houtcome]

end Batch

structure Result.Describes (result : Result) (as : List Addition) : Prop where
  total : result.total = as.length
  indices : result.indices = (as.map Addition.index).eraseDups

namespace Batch

section Submitted

variable {b : Batch} (hactions : b.actions = []) (before during : List Addition)

include hactions

theorem actions_index :
    (b.addAll before).actions.map Action.index = (b.kept before).map Addition.index := by
  rw [addAll_actions, hactions, List.nil_append, List.map_map]
  rfl

theorem size_eq_kept : (b.addAll before).size = (b.kept before).length := by
  rw [size_addAll, size, hactions, List.length_nil, Nat.zero_add]

theorem indices_eq_kept :
    (b.addAll before).indices = ((b.kept before).map Addition.index).eraseDups := by
  rw [indices, actions_index hactions]

theorem describes_iff (flushed : Bool) (response : List UInt8) :
    Result.Describes ⟨((b.addAll before).addAll during).size,
        ((b.addAll before).addAll during).indices, flushed, response⟩ (b.kept before) ↔
      b.kept during = [] := by
  have hsize : ((b.addAll before).addAll during).size = (b.kept before).length ↔
      b.kept during = [] := by
    rw [← size_eq_kept hactions before, size_addAll_iff, kept_addAll]
  constructor
  · exact fun h => hsize.mp h.total
  · intro h
    refine ⟨hsize.mpr h, ?_⟩
    simp only
    rw [← indices_eq_kept hactions before, indices_addAll_iff, kept_addAll, h]
    exact List.forall_mem_nil _

theorem late_indices_iff :
    ((b.addAll before).addAll during).indices = ((b.kept before).map Addition.index).eraseDups ↔
      ∀ a ∈ b.kept during, ∃ c ∈ b.kept before, c.index = a.index := by
  rw [← indices_eq_kept hactions before, indices_addAll_iff, kept_addAll, actions_index hactions]
  simp only [List.mem_map]

end Submitted

/-- A batch that was submitted and answered reports, and flushes, the documents of its body exactly
if none was added after its request was made; a late document in an index of the batch spoils the
report alone. The body is made of the documents that were added exactly if none was stranded. -/
theorem submit_describes_iff {κ : Type} {b : Batch} (hbody : b.body = [])
    (hactions : b.actions = []) {before : List Addition} (hkept : b.kept before ≠ [])
    (during : List Addition) {w : Wire} (hopen : w.isClosed = false) {response : List UInt8}
    (hanswer : (w.answers.headD Wire.emptyObject).accepted? = some response)
    (callback : Option (Http.Callback κ Result)) (k : κ) :
    let later := (b.addAll before).addAll during
    ∃ r outcome w', (b.addAll before).request = .ok r ∧
      (b.addAll before).submit later callback k w = (Http.told callback outcome k, w') ∧
      Ends (b.addAll before) later response w r outcome w' ∧
      (∀ result, outcome = .ok result →
        (result.Describes (b.kept before) ↔ b.kept during = [])) ∧
      (later.indices = ((b.kept before).map Addition.index).eraseDups ↔
        ∀ a ∈ b.kept during, ∃ c ∈ b.kept before, c.index = a.index) ∧
      (r.body = some (b.pairedBody before) ↔ ∀ a ∈ before, ¬ a.Stranded b) := by
  intro later
  have hsubmitted : (b.addAll before).actions ≠ [] := by
    rw [addAll_actions, hactions]
    simpa using hkept
  have hlater : later.actions ≠ [] := by
    rw [addAll_actions]
    exact List.append_ne_nil_of_left_ne_nil hsubmitted _
  have hflush := ((b.addAll before).addAll_keeps during).2.1
  obtain ⟨r, outcome, w', hr, hends, hsubmit⟩ :=
    submit_ends hsubmitted hflush hlater hopen hanswer callback k
  refine ⟨r, outcome, w', hr, hsubmit, hends, ?_, late_indices_iff hactions before during, ?_⟩
  · intro result hresult
    rw [hends.result result hresult]
    exact describes_iff hactions before during _ response
  · rw [hends.body, b.addAll_body before, hbody, List.nil_append, Option.some.injEq]
    exact pairedBody_eq_written_iff

def flushing : Batch := { spans with flushOnWrites := true }

def lateDocument : Addition := ⟨"traces-c", .object [("n", .int 8)], .null⟩

theorem submit_describes_iff_flushing :
    ∃ r outcome w', (flushing.addAll [plainDocument]).request = .ok r ∧
      (flushing.addAll [plainDocument]).submit (flushing.addAll [plainDocument, lateDocument]) none
        () (Wire.fresh []) = ((outcome, ()), w') ∧
      r.body = some (flushing.pairedBody [plainDocument]) ∧
      ∀ result, outcome = .ok result → ¬ result.Describes (flushing.kept [plainDocument]) := by
  have hkept : flushing.kept [plainDocument] ≠ [] := List.cons_ne_nil _ _
  obtain ⟨r, outcome, w', hr, hsubmit, -, hresult, -, hbody⟩ :=
    submit_describes_iff (b := flushing) rfl rfl hkept [lateDocument] (w := Wire.fresh []) rfl rfl
      none ()
  refine ⟨r, outcome, w', hr, hsubmit, hbody.mpr ?_, ?_⟩
  · intro a ha hstranded
    obtain rfl := List.mem_singleton.mp ha
    obtain ⟨-, -, f, hf⟩ := hstranded
    cases hf
  · intro result hok hdescribes
    have hlate : flushing.kept [lateDocument] = [] := (hresult result hok).mp hdescribes
    cases hlate

theorem submit_misreports :
    (∃ r result w', (flushing.addAll [plainDocument]).request = .ok r ∧
      r.body = some (plainDocument.entry flushing) ∧
      (flushing.addAll [plainDocument]).submit (flushing.addAll [plainDocument, lateDocument]) none
        () (Wire.fresh []) = ((.ok result, ()), w') ∧
      result.total = 2 ∧ result.indices = ["traces-b", "traces-c"] ∧
      w'.sent.map Http.Sent.target =
        ["/_bulk".toList, "/traces-b,traces-c/_flush".toList]) ∧
    let failed : Addition := { rawDocument with index := "traces-b" }
    let b := spans.addAll [rawDocument, failed, lateDocument]
    let c := spans.addAll [{ rawDocument with document := (failed.action "span").metadata },
      lateDocument]
    b.body = c.body ∧ ∃ result result',
      (b.submit b none () (Wire.fresh [])).1 = (.ok result, ()) ∧
      (c.submit c none () (Wire.fresh [])).1 = (.ok result', ()) ∧
      result.total = 1 ∧ result.indices = ["traces-c"] ∧
      result'.total = 2 ∧ result'.indices = ["traces-a", "traces-c"] := by
  refine ⟨⟨_, _, _, rfl, rfl, rfl, rfl, rfl, rfl⟩, by decide +kernel, ?_⟩
  exact ⟨_, _, rfl, rfl, rfl, rfl, rfl, rfl⟩

end Batch

end Bulk

end SpanStore
