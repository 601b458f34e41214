import Mathlib.Data.List.Induction
import SpanStore.Proofs.Json.Reading

/-!
How deep a byte of a text is nested. A scan that knows only strings and brackets counts what a
reader has open, as long as the reader finds no flaw.
-/
namespace SpanStore.Json

inductive Context where
  | outside
  | inside
  | escaped

structure Nesting where
  context : Context
  depth : Nat

namespace Nesting

def step (s : Nesting) (b : UInt8) : Nesting :=
  match s.context with
  | .outside =>
      if b = 0x22 then { s with context := .inside }
      else if b = 0x5B ∨ b = 0x7B then { s with depth := s.depth + 1 }
      else if b = 0x5D ∨ b = 0x7D then { s with depth := s.depth - 1 }
      else s
  | .inside =>
      if b = 0x22 then { s with context := .outside }
      else if b = 0x5C then { s with context := .escaped }
      else s
  | .escaped => { s with context := .inside }

def ofBytes (bs : List UInt8) : Nesting := bs.foldl step ⟨.outside, 0⟩

theorem ofBytes_concat (bs : List UInt8) (b : UInt8) :
    ofBytes (bs ++ [b]) = (ofBytes bs).step b := by
  simp [ofBytes]

def marks : List UInt8 := [0x22, 0x5B, 0x7B, 0x5D, 0x7D]

theorem step_unmarked {b : UInt8} (h : b ∉ marks) (d : Nat) :
    step ⟨.outside, d⟩ b = ⟨.outside, d⟩ := by
  simp only [marks, List.mem_cons, List.not_mem_nil, or_false, not_or] at h
  simp [step, h]

theorem not_mem_marks {p : UInt8 → Bool} {b : UInt8} (hb : p b = true)
    (h : marks.any p = false) : b ∉ marks := by
  intro hmem
  exact List.any_eq_false.mp h b hmem hb

end Nesting

def Token.depth (t : Token) (d : Nat) : Nat :=
  match t with
  | .openList | .openObject => d + 1
  | .closeList | .closeObject => d - 1
  | _ => d

def TextState.context : TextState → Context
  | .escape => .escaped
  | _ => .inside

def Lexeme.context : Lexeme → Context
  | .text state _ => state.context
  | _ => .outside

def Reader.nesting (r : Reader) : Nesting := ⟨r.lexeme.context, r.progress.frames.length⟩

inductive Opens : UInt8 → Opening → Prop where
  | blank {b : UInt8} (h : Text.isBlankByte b = true) : Opens b .blank
  | openList : Opens 0x5B (.whole .openList)
  | closeList : Opens 0x5D (.whole .closeList)
  | openObject : Opens 0x7B (.whole .openObject)
  | closeObject : Opens 0x7D (.whole .closeObject)
  | comma : Opens 0x2C (.whole .comma)
  | colon : Opens 0x3A (.whole .colon)
  | text : Opens 0x22 (.partly (.text .plain []))
  | minus : Opens 0x2D (.partly (.number .ofMinus))
  | digit {b : UInt8} (h : NumberState.isDigit b = true) :
      Opens b (.partly (.number (.ofDigit b)))
  | null : Opens 0x6E (.partly (.word [0x75, 0x6C, 0x6C] .null))
  | true : Opens 0x74 (.partly (.word [0x72, 0x75, 0x65] (.bool true)))
  | false : Opens 0x66 (.partly (.word [0x61, 0x6C, 0x73, 0x65] (.bool false)))
  | malformed (b : UInt8) : Opens b .malformed

theorem opens_ofByte (b : UInt8) : Opens b (Opening.ofByte b) := by
  unfold Opening.ofByte
  refine iteInduction (motive := Opens b) .blank fun _ => ?_
  refine iteInduction (motive := Opens b) (by rintro rfl; exact .openList) fun _ => ?_
  refine iteInduction (motive := Opens b) (by rintro rfl; exact .closeList) fun _ => ?_
  refine iteInduction (motive := Opens b) (by rintro rfl; exact .openObject) fun _ => ?_
  refine iteInduction (motive := Opens b) (by rintro rfl; exact .closeObject) fun _ => ?_
  refine iteInduction (motive := Opens b) (by rintro rfl; exact .comma) fun _ => ?_
  refine iteInduction (motive := Opens b) (by rintro rfl; exact .colon) fun _ => ?_
  refine iteInduction (motive := Opens b) (by rintro rfl; exact .text) fun _ => ?_
  refine iteInduction (motive := Opens b) (by rintro rfl; exact .minus) fun _ => ?_
  refine iteInduction (motive := Opens b) .digit fun _ => ?_
  refine iteInduction (motive := Opens b) (by rintro rfl; exact .null) fun _ => ?_
  refine iteInduction (motive := Opens b) (by rintro rfl; exact .true) fun _ => ?_
  exact iteInduction (motive := Opens b) (by rintro rfl; exact .false) fun _ => .malformed b

namespace Progress

/-- All that a token can do to a value under way. -/
inductive Step (p : Progress) : Token → Progress → Prop where
  | openList : Step p .openList ⟨.list [] :: p.frames, .itemOrClose, none⟩
  | openObject : Step p .openObject ⟨.object [] "" :: p.frames, .nameOrClose, none⟩
  | scalar (v : Value) : Step p (.scalar v) (deliver v p.frames)
  | text (s : String) : Step p (.text (some s)) (deliver (.text s) p.frames)
  | closeList {items : List Value} {frames : List Open} (h : p.frames = .list items :: frames) :
      Step p .closeList (deliver (.list items.reverse) frames)
  | closeObject {members : List (String × Value)} {name : String} {frames : List Open}
      (h : p.frames = .object members name :: frames) :
      Step p .closeObject (deliver (.object members.reverse) frames)
  | name {members : List (String × Value)} {name : String} {frames : List Open}
      (h : p.frames = .object members name :: frames) (s : String) :
      Step p (.text (some s)) ⟨.object members s :: frames, .colon, none⟩
  | comma (e : Expect) : Step p .comma { p with expect := e }
  | colon (e : Expect) : Step p .colon { p with expect := e }

section Accept

variable {p p' : Progress} {t : Token}

theorem step_of_acceptValue (h : p.acceptValue t = .ok p') : Step p t p' := by
  cases t with
  | scalar v => exact Except.ok.inj h ▸ .scalar v
  | text s =>
      cases s with
      | none => cases h
      | some s => exact Except.ok.inj h ▸ .text s
  | openList => exact Except.ok.inj h ▸ .openList
  | openObject => exact Except.ok.inj h ▸ .openObject
  | _ => cases h

theorem step_of_acceptName (h : p.acceptName t = .ok p') : Step p t p' := by
  unfold acceptName at h
  split at h
  · split at h
    · rename_i hframes
      exact Except.ok.inj h ▸ .name hframes _
    · cases h
  · cases h
  · cases h

theorem step_of_closeList (h : closeList p.frames = .ok p') : Step p .closeList p' := by
  unfold closeList at h
  split at h
  · rename_i items frames hframes
    exact Except.ok.inj h ▸ .closeList hframes
  · cases h

theorem step_of_closeObject (h : closeObject p.frames = .ok p') : Step p .closeObject p' := by
  unfold closeObject at h
  split at h
  · rename_i members name frames hframes
    exact Except.ok.inj h ▸ .closeObject hframes
  · cases h

theorem expect_of_accept (h : p.accept t = .ok p') : p.expect ≠ .nothing := by
  intro hexpect
  rw [accept.eq_def, hexpect] at h
  cases h

theorem step_of_accept (h : p.accept t = .ok p') : Step p t p' := by
  unfold accept at h
  split at h
  · exact step_of_acceptValue h
  · exact step_of_closeList h
  · exact step_of_acceptValue h
  · exact step_of_closeObject h
  · exact step_of_acceptName h
  · exact step_of_acceptName h
  · exact Except.ok.inj h ▸ .colon _
  · split at h
    · exact Except.ok.inj h ▸ .comma _
    · exact Except.ok.inj h ▸ .comma _
    · cases h
  · exact step_of_closeList h
  · exact step_of_closeObject h
  · cases h

end Accept

@[simp] theorem length_deliver_frames (v : Value) (frames : List Open) :
    (deliver v frames).frames.length = frames.length := by
  rcases frames with _ | ⟨items | ⟨members, name⟩, frames⟩ <;> rfl

theorem Step.depth {p p' : Progress} {t : Token} (h : Step p t p') :
    p'.frames.length = t.depth p.frames.length := by
  cases h with
  | closeList h => simp [Token.depth, h]
  | closeObject h => simp [Token.depth, h]
  | name h => simp [Token.depth, h]
  | _ => simp [Token.depth]

def Settled (p : Progress) : Prop := p.root.isSome = true → p.expect = .nothing ∧ p.frames = []

theorem settled_deliver (v : Value) (frames : List Open) : (deliver v frames).Settled := by
  rcases frames with _ | ⟨items | ⟨members, name⟩, frames⟩
  · exact fun _ => ⟨rfl, rfl⟩
  · exact nofun
  · exact nofun

theorem Settled.root_none {p : Progress} (hp : p.Settled) (h : p.expect ≠ .nothing) :
    p.root = none := by
  cases hroot : p.root with
  | none => rfl
  | some v => exact absurd (hp (by simp [hroot])).1 h

theorem Settled.accept {p p' : Progress} {t : Token} (hp : p.Settled)
    (h : p.accept t = .ok p') : p'.Settled := by
  have hroot := hp.root_none (expect_of_accept h)
  cases step_of_accept h with
  | openList => exact nofun
  | openObject => exact nofun
  | scalar v => exact settled_deliver v _
  | text s => exact settled_deliver _ _
  | closeList h => exact settled_deliver _ _
  | closeObject h => exact settled_deliver _ _
  | name h s => exact nofun
  | comma e => simp [Settled, hroot]
  | colon e => simp [Settled, hroot]

end Progress

namespace Lexeme

inductive Continues (b : UInt8) : Lexeme → Lexeme → Prop where
  | text {state state' : TextState} {pieces pieces' : List Piece}
      (h : state.step pieces b = .more state' pieces') :
      Continues b (.text state pieces) (.text state' pieces')
  | number {n n' : NumberState} (h : n.next? b = some n') : Continues b (.number n) (.number n')
  | word (x : UInt8) (xs : List UInt8) (v : Value) :
      Continues b (.word (b :: x :: xs) v) (.word (x :: xs) v)

inductive Closes (b : UInt8) : Lexeme → Token → Prop where
  | text {state : TextState} {pieces : List Piece} (h : state.step pieces b = .closed) :
      Closes b (.text state pieces) (.text (Piece.decode? pieces.reverse))
  | word (v : Value) : Closes b (.word [b] v) (.scalar v)

end Lexeme

namespace Reader

/-- What is read once the number under way is over, if there is one. -/
inductive Over (r : Reader) : Progress → Prop where
  | idle (h : r.lexeme = .none) : Over r r.progress
  | number {n : NumberState} {v : Value} {p : Progress} (h : r.lexeme = .number n)
      (hvalue : n.value? = some v) (haccept : r.progress.accept (.scalar v) = .ok p) : Over r p

inductive Begins (b : UInt8) (p : Progress) : Reader → Prop where
  | blank (h : Opens b .blank) : Begins b p (between p)
  | whole {t : Token} {p' : Progress} (h : Opens b (.whole t)) (haccept : p.accept t = .ok p') :
      Begins b p (between p')
  | partly {l : Lexeme} (h : Opens b (.partly l)) : Begins b p ⟨p, l, none⟩

/-- All that a byte can do to a reader in which it is no flaw. -/
inductive Fed (b : UInt8) (r : Reader) : Reader → Prop where
  | begins {p : Progress} {s : Reader} (hover : r.Over p) (h : Begins b p s) : Fed b r s
  | continues {l : Lexeme} (h : r.lexeme.Continues b l) : Fed b r ⟨r.progress, l, none⟩
  | closes {t : Token} {p : Progress} (h : r.lexeme.Closes b t)
      (haccept : r.progress.accept t = .ok p) : Fed b r (between p)

def isLetter (b : UInt8) : Bool := 0x61 ≤ b && b ≤ 0x7A

/-- A word under way has letters left to come, and stands for no object. -/
structure Spells (left : List UInt8) (v : Value) : Prop where
  rest : left ≠ []
  letters : left.all isLetter = true
  plain : ∀ members, v ≠ .object members

structure Sound (r : Reader) : Prop where
  settled : r.progress.Settled
  word : ∀ left v, r.lexeme = .word left v → Spells left v

theorem begins_of_begin {b : UInt8} {p : Progress} (h : ((between p).begin b).flaw = none) :
    Begins b p ((between p).begin b) := by
  have hopens := opens_ofByte b
  cases hopening : Opening.ofByte b with
  | blank =>
      simp only [begin, between, hopening] at hopens ⊢
      exact .blank hopens
  | whole t =>
      cases haccept : p.accept t with
      | ok p' =>
          simp only [begin, between, hopening, accept, haccept] at hopens ⊢
          exact .whole hopens haccept
      | error f => simp [begin, between, hopening, accept, haccept, fail] at h
  | partly l =>
      simp only [begin, between, hopening] at hopens ⊢
      exact .partly hopens
  | malformed => simp [begin, between, hopening, fail] at h

theorem fed_of_feed {b : UInt8} {r : Reader} (hr : r.Sound) (hflaw : r.flaw = none)
    (h : (r.feed b).flaw = none) : Fed b r (r.feed b) := by
  obtain ⟨p, l, f⟩ := r
  obtain rfl : f = none := hflaw
  cases l with
  | none => exact .begins (.idle rfl) (begins_of_begin h)
  | text state pieces =>
      cases hstep : state.step pieces b with
      | more state' pieces' =>
          simp only [feed, hstep]
          exact .continues (.text hstep)
      | closed =>
          simp only [feed, hstep, accept] at h ⊢
          cases haccept : p.accept (.text (Piece.decode? pieces.reverse)) with
          | ok p' => exact .closes (.text hstep) haccept
          | error f => simp [haccept, fail] at h
      | malformed => simp [feed, hstep, fail] at h
  | number n =>
      cases hnext : n.next? b with
      | some n' =>
          simp only [feed, hnext]
          exact .continues (.number hnext)
      | none =>
          cases hvalue : n.value? with
          | none => simp [feed, hnext, hvalue, fail] at h
          | some v =>
              cases haccept : p.accept (.scalar v) with
              | ok p' =>
                  simp only [feed, hnext, hvalue, accept, haccept] at h ⊢
                  exact .begins (.number rfl hvalue haccept) (begins_of_begin h)
              | error f => simp [feed, hnext, hvalue, accept, haccept, fail, begin] at h
  | word left v =>
      cases left with
      | nil => exact absurd rfl (hr.word [] v rfl).rest
      | cons x xs =>
          by_cases hb : b = x
          · subst hb
            cases xs with
            | nil =>
                cases haccept : p.accept (.scalar v) with
                | ok p' =>
                    simp only [feed, accept, haccept]
                    exact .closes (.word v) haccept
                | error f => simp [feed, accept, haccept, fail] at h
            | cons y ys =>
                simp only [feed]
                exact .continues (.word y ys v)
          · simp [feed, hb, fail] at h

theorem Over.settled {r : Reader} {p : Progress} (hr : r.Sound) (h : r.Over p) : p.Settled := by
  cases h with
  | idle h => exact hr.settled
  | number h hvalue haccept => exact hr.settled.accept haccept

theorem opens_word {b : UInt8} {left : List UInt8} {v : Value}
    (h : Opens b (.partly (.word left v))) : Spells left v := by
  cases h with
  | null => exact ⟨List.cons_ne_nil _ _, rfl, nofun⟩
  | true => exact ⟨List.cons_ne_nil _ _, rfl, nofun⟩
  | false => exact ⟨List.cons_ne_nil _ _, rfl, nofun⟩

theorem Fed.sound {b : UInt8} {r s : Reader} (hr : r.Sound) (h : Fed b r s) : s.Sound := by
  cases h with
  | begins hover h =>
      have hp := hover.settled hr
      cases h with
      | blank h => exact ⟨hp, nofun⟩
      | whole h haccept => exact ⟨hp.accept haccept, nofun⟩
      | partly h =>
          refine ⟨hp, ?_⟩
          rintro left v rfl
          exact opens_word h
  | continues h =>
      refine ⟨hr.settled, ?_⟩
      rintro left v rfl
      cases hlexeme : r.lexeme with
      | word left' v' =>
          rw [hlexeme] at h
          obtain ⟨-, hletters, hplain⟩ := hr.word left' v' hlexeme
          cases h
          exact ⟨List.cons_ne_nil _ _, (Bool.and_eq_true_iff.mp hletters).2, hplain⟩
      | _ =>
          rw [hlexeme] at h
          cases h
  | closes h haccept => exact ⟨hr.settled.accept haccept, nofun⟩

theorem Begins.nesting {b : UInt8} {p : Progress} {s : Reader} (h : Begins b p s) :
    s.nesting = Nesting.step ⟨.outside, p.frames.length⟩ b := by
  cases h with
  | blank h =>
      cases h with
      | blank hblank =>
          exact (Nesting.step_unmarked (Nesting.not_mem_marks hblank rfl) _).symm
  | @whole t p' h haccept =>
      have hdepth : (between p').nesting = ⟨.outside, t.depth p.frames.length⟩ :=
        congrArg _ (Progress.step_of_accept haccept).depth
      rw [hdepth]
      cases h <;> rfl
  | partly h =>
      cases h with
      | digit hdigit =>
          exact (Nesting.step_unmarked (Nesting.not_mem_marks hdigit rfl) _).symm
      | _ => rfl

theorem Over.nesting {r : Reader} {p : Progress} (h : r.Over p) :
    r.nesting = ⟨.outside, p.frames.length⟩ := by
  obtain ⟨q, l, f⟩ := r
  cases h with
  | idle h =>
      obtain rfl : l = .none := h
      rfl
  | @number n v p h hvalue haccept =>
      obtain rfl : l = .number n := h
      exact congrArg _ (Progress.step_of_accept haccept).depth.symm

end Reader

namespace TextState

theorem step_inside {b : UInt8} (hquote : b ≠ 0x22) (hescape : b ≠ 0x5C) (d : Nat) :
    Nesting.step ⟨.inside, d⟩ b = ⟨.inside, d⟩ := by
  simp [Nesting.step, hquote, hescape]

theorem context_of_more {state state' : TextState} {pieces pieces' : List Piece} {b : UInt8}
    (h : state.step pieces b = .more state' pieces') (hstate : state = .plain → b ≠ 0x5C) :
    state'.context = .inside := by
  cases state with
  | plain =>
      simp only [step, hstate rfl, if_false] at h
      repeat' split at h
      all_goals cases h
      all_goals rfl
  | _ =>
      simp only [step] at h
      repeat' split at h
      all_goals cases h
      all_goals rfl

theorem nesting_of_more {state state' : TextState} {pieces pieces' : List Piece}
    {b : UInt8} (h : state.step pieces b = .more state' pieces') (d : Nat) :
    Nesting.step ⟨state.context, d⟩ b = ⟨state'.context, d⟩ := by
  by_cases hescape : state = .plain ∧ b = 0x5C
  · obtain ⟨rfl, rfl⟩ := hescape
    cases h
    rfl
  · have hafter := context_of_more h fun hplain hb => hescape ⟨hplain, hb⟩
    rw [hafter]
    cases state with
    | plain =>
        have hquote : b ≠ 0x22 := by
          rintro rfl
          cases h
        exact step_inside hquote (fun hb => hescape ⟨rfl, hb⟩) d
    | escape => rfl
    | hex left value =>
        have hother : ∀ x : UInt8, Text.hexValue? (Char.ofNat x.toNat) = none → b ≠ x := by
          rintro x hx rfl
          simp [step, hx] at h
        exact step_inside (hother _ (by decide)) (hother _ (by decide)) d
    | tail left =>
        have hother : ∀ x : UInt8, ¬ 0x80 ≤ x → b ≠ x := by
          rintro x hx rfl
          simp [step, hx] at h
        exact step_inside (hother _ (by decide)) (hother _ (by decide)) d

theorem quote_of_closed {state : TextState} {pieces : List Piece} {b : UInt8}
    (h : state.step pieces b = .closed) : state = .plain ∧ b = 0x22 := by
  cases state with
  | plain =>
      by_cases hb : b = 0x22
      · exact ⟨rfl, hb⟩
      · simp only [step, hb, if_false] at h
        repeat' split at h
        all_goals cases h
  | _ =>
      simp only [step] at h
      repeat' split at h
      all_goals cases h

end TextState

namespace NumberState

def isMore (b : UInt8) : Bool := isDigit b || b == 0x2E || b == 0x65 || b == 0x45

def isSign (b : UInt8) : Bool := b == 0x2B || b == 0x2D

theorem not_isMore {b : UInt8} (h : isMore b = false) :
    isDigit b = false ∧ b ≠ 0x2E ∧ b ≠ 0x65 ∧ b ≠ 0x45 := by
  simpa [isMore, and_assoc] using h

theorem more_or_sign {n n' : NumberState} {b : UInt8} (h : n.next? b = some n') :
    (isMore b || isSign b) = true := by
  cases hmore : isMore b with
  | true => rfl
  | false =>
      obtain ⟨hdigit, hpoint, hlower, hupper⟩ := not_isMore hmore
      cases hsign : isSign b with
      | true => rfl
      | false =>
          obtain ⟨hplus, hminus⟩ : b ≠ 0x2B ∧ b ≠ 0x2D := by simpa [isSign] using hsign
          unfold next? at h
          cases hpart : n.part <;>
            simp [hpart, hdigit, hpoint, hlower, hupper, hplus, hminus] at h

theorem complete_of_value {n : NumberState} {v : Value} (h : n.value? = some v) :
    n.Complete := by
  unfold value? at h
  split at h
  · exact .inl ‹_›
  · exact .inr (.inl ‹_›)
  · exact .inr (.inr (.inl ‹_›))
  · exact .inr (.inr (.inr ‹_›))
  · cases h

theorem Complete.more_of_next {n n' : NumberState} {b : UInt8} (h : n.Complete)
    (hnext : n.next? b = some n') : isMore b = true := by
  cases hmore : isMore b with
  | true => rfl
  | false =>
      obtain ⟨hdigit, hpoint, hlower, hupper⟩ := not_isMore hmore
      rcases h with hpart | hpart | hpart | hpart <;>
        simp [next?, hpart, hdigit, hpoint, hlower, hupper] at hnext

end NumberState

namespace Reader

theorem Fed.nesting {b : UInt8} {r s : Reader} (hr : r.Sound) (h : Fed b r s) :
    s.nesting = r.nesting.step b := by
  obtain ⟨p, l, f⟩ := r
  cases h with
  | begins hover h => rw [hover.nesting, h.nesting]
  | continues h =>
      cases h with
      | text hstep => exact (TextState.nesting_of_more hstep _).symm
      | number hnext =>
          have hmore := NumberState.more_or_sign hnext
          have hmarks : b ∉ Nesting.marks := Nesting.not_mem_marks
            (p := fun b => NumberState.isMore b || NumberState.isSign b) hmore rfl
          exact (Nesting.step_unmarked hmarks _).symm
      | word x xs v =>
          have hletter := (Bool.and_eq_true_iff.mp (hr.word _ v rfl).letters).1
          exact (Nesting.step_unmarked (Nesting.not_mem_marks hletter rfl) _).symm
  | @closes t p' h haccept =>
      have hdepth : (between p').nesting = ⟨.outside, t.depth p.frames.length⟩ :=
        congrArg _ (Progress.step_of_accept haccept).depth
      rw [hdepth]
      cases h with
      | text hstep =>
          obtain ⟨rfl, rfl⟩ := TextState.quote_of_closed hstep
          rfl
      | word v =>
          have hletter := (Bool.and_eq_true_iff.mp (hr.word _ v rfl).letters).1
          exact (Nesting.step_unmarked (Nesting.not_mem_marks hletter rfl) _).symm

theorem flaw_of_feed {r : Reader} {b : UInt8} (h : (r.feed b).flaw = none) : r.flaw = none := by
  cases hflaw : r.flaw with
  | none => rfl
  | some f =>
      rw [feed_of_flaw hflaw, hflaw] at h
      cases h

def after (bs : List UInt8) : Reader := bs.foldl feed start

theorem ofBytes_eq_feed (bs : List UInt8) : ofBytes bs = (after bs).feed 0x20 := rfl

@[simp] theorem after_concat (bs : List UInt8) (b : UInt8) :
    after (bs ++ [b]) = (after bs).feed b := by
  simp [after]

theorem flaw_of_after_append {bs cs : List UInt8} (h : (after (bs ++ cs)).flaw = none) :
    (after bs).flaw = none := by
  induction cs using List.reverseRecOn with
  | nil => rwa [List.append_nil] at h
  | append_singleton cs c ih =>
      rw [← List.append_assoc, after_concat] at h
      exact ih (flaw_of_feed h)

theorem sound_start : start.Sound := ⟨nofun, nofun⟩

theorem sound_after {bs : List UInt8} (h : (after bs).flaw = none) : (after bs).Sound := by
  induction bs using List.reverseRecOn with
  | nil => exact sound_start
  | append_singleton bs b ih =>
      rw [after_concat] at h ⊢
      have hsound := ih (flaw_of_feed h)
      exact (fed_of_feed hsound (flaw_of_feed h) h).sound hsound

theorem after_induction {motive : List UInt8 → Prop} (nil : motive [])
    (concat : ∀ bs b, (after bs).flaw = none → Fed b (after bs) (after (bs ++ [b])) →
      motive bs → motive (bs ++ [b]))
    {bs : List UInt8} (h : (after bs).flaw = none) : motive bs := by
  induction bs using List.reverseRecOn with
  | nil => exact nil
  | append_singleton bs b ih =>
      have hbefore := flaw_of_after_append h
      have hfed : Fed b (after bs) (after (bs ++ [b])) := by
        rw [after_concat] at h ⊢
        exact fed_of_feed (sound_after hbefore) hbefore h
      exact concat bs b hbefore hfed (ih hbefore)

/-- The scan of a text keeps pace with its reader. -/
theorem nesting_after {bs : List UInt8} (h : (after bs).flaw = none) :
    (after bs).nesting = Nesting.ofBytes bs := by
  refine after_induction (motive := fun bs => (after bs).nesting = Nesting.ofBytes bs) rfl ?_ h
  intro bs b hflaw hfed hnesting
  rw [hfed.nesting (sound_after hflaw), hnesting, Nesting.ofBytes_concat]

end Reader

end SpanStore.Json
