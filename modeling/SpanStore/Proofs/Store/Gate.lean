import Mathlib.Data.List.Induction
import SpanStore.Proofs.Http.Exchange
import SpanStore.Store.Storage

/-!
The gate before every read and write: the cluster says which version it is, and the template of
that version is there or is put there. A gate watches the exchanges of a store one by one; it is
open exactly after exchanges that make sure of the template, and it never shuts again.
-/
namespace SpanStore.Store

open Http (Answer Exchange Sent Wire)
open Template (Branch IndexTemplate)

def Writes (s : Sent) : Prop :=
  ∃ (b : Bulk.Batch) (r : Http.Request) (timeout : Quantity),
    b.request = .ok r ∧ s = r.toSent timeout

def Searches (s : Sent) : Prop :=
  ∃ (q : Search.Query) (r : Http.Request) (timeout : Quantity),
    q.request = .ok r ∧ s = r.toSent timeout

def Greets (s : Sent) : Prop := s.method = "GET" ∧ s.target = ['/']

instance (s : Sent) : Decidable (Greets s) := inferInstanceAs (Decidable (_ ∧ _))

def templatesPath : List Char := "/_template/".toList

/-- A request for the version of the cluster or about any template. -/
def Prepares (s : Sent) : Prop :=
  Greets s ∨ (s.method = "GET" ∨ s.method = "PUT") ∧ templatesPath <+: s.target

def majorDigit : Branch → Char
  | .v2 => '2'
  | .v5 => '5'

/-- A node has told its version, which belongs to the branch. -/
def Announces (b : Branch) (e : Exchange) : Prop :=
  Greets e.request ∧ ∃ body version, e.answer.accepted? = some body ∧
    Response.read ["version", "number"] body = .ok (some (.text version)) ∧
    (Text.cut (· == '.') (Text.trim version.toList)).1 = [majorDigit b]

section Template

variable (c : Config)

def templatePath : List Char :=
  templatesPath ++ Text.Percent.encodeSegment (c.index ++ "_template").toList

def template : IndexTemplate := ⟨c.index, c.shards, c.replicas, c.strictTraceId⟩

def Looks (s : Sent) : Prop := s.method = "GET" ∧ s.target = templatePath c

def Installs (b : Branch) (s : Sent) : Prop :=
  s.method = "PUT" ∧ s.target = templatePath c ∧
    s.body = some (Text.Utf8.encode ((template c).renderText b).toList)

instance (s : Sent) : Decidable (Looks c s) := inferInstanceAs (Decidable (_ ∧ _))

instance (b : Branch) (s : Sent) : Decidable (Installs c b s) :=
  inferInstanceAs (Decidable (_ ∧ _ ∧ _))

/-- Exchanges that make sure of the template: it is there, or it is missing and is installed at
once. -/
inductive Opens : List Exchange → Prop where
  | found {b : Branch} {root look : Exchange} (hroot : Announces b root)
      (hlook : Looks c look.request) (hfound : look.answer.accepted?.isSome = true) :
      Opens [root, look]
  | installed {b : Branch} {root look install : Exchange} (hroot : Announces b root)
      (hlook : Looks c look.request) (hmissing : look.answer.status? = some 404)
      (hinstall : Installs c b install.request)
      (hinstalled : install.answer.accepted?.isSome = true) : Opens [root, look, install]

end Template

def announced? (e : Exchange) : Option Branch :=
  if Greets e.request then
    e.answer.accepted?.bind fun body =>
      match Template.readVersion body with
      | .ok version => (Branch.ofVersion (some version)).toOption
      | .error _ => none
  else none

theorem readVersion_eq_ok_iff {body : List UInt8} {version : String} :
    Template.readVersion body = .ok version ↔
      Response.read ["version", "number"] body = .ok (some (.text version)) := by
  unfold Template.readVersion
  cases hread : Response.read ["version", "number"] body with
  | error f => simp
  | ok v =>
      cases v with
      | none => simp
      | some w => cases w <;> simp [Json.Value.text?]

theorem ofVersion_eq_ok_iff {version : String} {b : Branch} :
    Branch.ofVersion (some version) = .ok b ↔
      (Text.cut (· == '.') (Text.trim version.toList)).1 = [majorDigit b] := by
  simp only [Branch.ofVersion, Option.getD_some]
  split
  · rename_i h
    rw [h]
    cases b <;> simp [majorDigit]
  · rename_i h
    rw [h]
    cases b <;> simp [majorDigit]
  · rename_i h₂ h₅
    cases b with
    | v2 => simpa [majorDigit] using h₂
    | v5 => simpa [majorDigit] using h₅

theorem announced?_eq_some_iff {e : Exchange} {b : Branch} :
    announced? e = some b ↔ Announces b e := by
  unfold announced? Announces
  by_cases hgreets : Greets e.request
  · rw [if_pos hgreets, Option.bind_eq_some_iff]
    constructor
    · rintro ⟨body, hbody, hbranch⟩
      cases hversion : Template.readVersion body with
      | error f => simp [hversion] at hbranch
      | ok version =>
          have hok : Branch.ofVersion (some version) = .ok b := by
            rw [hversion] at hbranch
            cases hof : Branch.ofVersion (some version) with
            | error f => simp [hof, Except.toOption] at hbranch
            | ok b' => simpa [hof, Except.toOption] using hbranch
          exact ⟨hgreets, body, version, hbody, readVersion_eq_ok_iff.mp hversion,
            ofVersion_eq_ok_iff.mp hok⟩
    · rintro ⟨-, body, version, hbody, hread, hdigit⟩
      refine ⟨body, hbody, ?_⟩
      simp [readVersion_eq_ok_iff.mpr hread, ofVersion_eq_ok_iff.mpr hdigit, Except.toOption]
  · rw [if_neg hgreets]
    constructor
    · intro h
      cases h
    · rintro ⟨h, -⟩
      exact absurd h hgreets

/-- How far the last exchanges have come. -/
inductive Gate where
  | shut
  | announced (b : Branch)
  | missing (b : Branch)
  | opened

def Gate.advance (c : Config) : Gate → Exchange → Gate
  | opened, _ => opened
  | announced b, e =>
      if Looks c e.request then
        if e.answer.accepted?.isSome then opened
        else if e.answer.status? = some 404 then missing b
        else shut
      else (announced? e).elim shut announced
  | missing b, e =>
      if Installs c b e.request ∧ e.answer.accepted?.isSome = true then opened
      else (announced? e).elim shut announced
  | shut, e => (announced? e).elim shut announced

def Gate.after (c : Config) (es : List Exchange) : Gate := es.foldl (Gate.advance c) .shut

namespace Gate

variable {c : Config} {b : Branch} {e : Exchange} {g : Gate}

theorem templatePath_ne : templatePath c ≠ ['/'] := by
  intro h
  have hlength := congrArg List.length h
  have htemplates : templatesPath.length = 11 := rfl
  rw [templatePath, List.length_append, htemplates, List.length_singleton] at hlength
  omega

theorem not_greets_of_looks {s : Sent} (h : Looks c s) : ¬ Greets s :=
  fun hgreets => templatePath_ne (h.2.symm.trans hgreets.2)

theorem not_greets_of_installs {s : Sent} (h : Installs c b s) : ¬ Greets s :=
  fun hgreets => templatePath_ne (h.2.1.symm.trans hgreets.2)

theorem announced?_eq_none {s : Sent} (h : ¬ Greets s) (a : Answer) :
    announced? ⟨s, a⟩ = none := by
  rw [announced?, if_neg h]

theorem foldl_opened (es : List Exchange) : es.foldl (advance c) opened = opened := by
  induction es with
  | nil => rfl
  | cons e es ih => exact ih

theorem advance_greets (hg : g ≠ opened) (h : Greets e.request) :
    advance c g e = (announced? e).elim shut announced := by
  have hlooks : ¬ Looks c e.request := fun hlooks => not_greets_of_looks hlooks h
  have hinstalls (b : Branch) : ¬ Installs c b e.request :=
    fun hinstalls => not_greets_of_installs hinstalls h
  cases g with
  | opened => exact absurd rfl hg
  | shut => rfl
  | announced b => simp [advance, hlooks]
  | missing b => simp [advance, hinstalls]

theorem advance_announces (hg : g ≠ opened) (h : Announces b e) :
    advance c g e = announced b := by
  rw [advance_greets hg h.1, announced?_eq_some_iff.mpr h]
  rfl

theorem foldl_opens {es : List Exchange} (h : Opens c es) (g : Gate) :
    es.foldl (advance c) g = opened := by
  by_cases hg : g = opened
  · subst hg
    exact foldl_opened es
  · cases h with
    | found hroot hlook hfound =>
        rw [List.foldl_cons, advance_announces hg hroot]
        simp [advance, hlook, hfound]
    | @installed b root look install hroot hlook hmissing hinstall hinstalled =>
        have hrefused : ¬ look.answer.accepted?.isSome = true := by
          simp [look.answer.accepted?_of_missing hmissing]
        rw [List.foldl_cons, advance_announces hg hroot]
        simp [advance, hlook, hrefused, hmissing, hinstall, hinstalled]

def Shows (c : Config) (es : List Exchange) : Gate → Prop
  | shut => True
  | announced b => ∃ before root, es = before ++ [root] ∧ Announces b root
  | missing b => ∃ before root look, es = before ++ [root, look] ∧ Announces b root ∧
      Looks c look.request ∧ look.answer.status? = some 404
  | opened => ∃ before block rest, es = before ++ block ++ rest ∧ Opens c block

theorem shows_announced {es : List Exchange} :
    Shows c (es ++ [e]) ((announced? e).elim shut announced) := by
  cases h : announced? e with
  | none => trivial
  | some b => exact ⟨es, e, rfl, announced?_eq_some_iff.mp h⟩

theorem shows_after (es : List Exchange) : Shows c es (after c es) := by
  -- From the end, as where the gate stands depends on the last exchanges.
  induction es using List.reverseRecOn with
  | nil => trivial
  | append_singleton es e ih =>
      rw [after, List.foldl_append, List.foldl_cons, List.foldl_nil]
      change Shows c es (es.foldl (advance c) shut) at ih
      generalize es.foldl (advance c) shut = g at ih
      cases g with
      | shut => exact shows_announced
      | announced b =>
          obtain ⟨before, root, rfl, hroot⟩ := ih
          simp only [advance]
          split
          · rename_i hlook
            split
            · rename_i hfound
              refine ⟨before, [root, e], [], ?_, .found hroot hlook hfound⟩
              simp
            · split
              · rename_i hmissing
                exact ⟨before, root, e, by simp, hroot, hlook, hmissing⟩
              · trivial
          · exact shows_announced
      | missing b =>
          obtain ⟨before, root, look, rfl, hroot, hlook, hmissing⟩ := ih
          simp only [advance]
          split
          · rename_i hinstall
            refine ⟨before, [root, look, e], [], ?_,
              .installed hroot hlook hmissing hinstall.1 hinstall.2⟩
            simp
          · exact shows_announced
      | opened =>
          obtain ⟨before, block, rest, rfl, hblock⟩ := ih
          exact ⟨before, block, rest ++ [e], by simp, hblock⟩

end Gate

end SpanStore.Store
