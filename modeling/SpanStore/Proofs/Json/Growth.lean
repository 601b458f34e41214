import Mathlib.Data.List.Infix
import SpanStore.Json.Select
import SpanStore.Proofs.Json.Nesting

/-!
What a reader has found at a place so far. A byte only adds to it. The end of the bytes adds a
number that stands there, as far as it goes.
-/
namespace SpanStore.Json

open Reader

namespace Value

theorem selectItems_append (place : List Char) (vs ws : List Value) :
    selectItems place (vs ++ ws) = selectItems place vs ++ selectItems place ws := by
  induction vs with
  | nil => rfl
  | cons v vs ih => rw [List.cons_append, selectItems, selectItems, ih, List.append_assoc]

theorem selectMembers_append (first : Bool) (place : List Char) (ms ns : List (String × Value)) :
    selectMembers first place (ms ++ ns) =
      selectMembers first place ms ++ selectMembers first place ns := by
  induction ms with
  | nil => rfl
  | cons m ms ih => rw [List.cons_append, selectMembers, selectMembers, ih, List.append_assoc]

end Value

namespace Open

def found (first : Bool) (place : List Char) : Open → List Value
  | list items =>
      match afterStep? first itemStep place with
      | some rest => Value.selectItems rest items.reverse
      | none => []
  | object members _ => Value.selectMembers first place members.reverse

def inward? (first : Bool) (place : List Char) : Open → Option (List Char)
  | list _ => afterStep? first itemStep place
  | object _ name => afterStep? first name place

def put (v : Value) : Open → Open
  | list items => list (v :: items)
  | object members name => object ((name, v) :: members) name

def value : Open → Value
  | list items => .list items.reverse
  | object members _ => .object members.reverse

section Place

variable (first : Bool) (place : List Char) (o : Open)

theorem inward?_put (v : Value) : (o.put v).inward? first place = o.inward? first place := by
  cases o <;> rfl

theorem found_put (v : Value) : (o.put v).found first place =
    o.found first place ++ ((o.inward? first place).map (v.select false)).getD [] := by
  cases o with
  | list items =>
      cases hstep : afterStep? first itemStep place with
      | none => simp [put, found, inward?, hstep]
      | some rest =>
          simp [put, found, inward?, hstep, Value.selectItems_append, Value.selectItems]
  | object members name =>
      cases hstep : afterStep? first name place with
      | none => simp [put, found, inward?, hstep, Value.selectMembers_append, Value.selectMembers]
      | some rest =>
          simp [put, found, inward?, hstep, Value.selectMembers_append, Value.selectMembers]

theorem select_value (h : place.isEmpty = false) :
    o.value.select first place = o.found first place := by
  cases o <;> rw [value, Value.select.eq_def, h, found] <;> rfl

theorem selectOpen_cons (h : place.isEmpty = false) (inner : List Open) :
    selectOpen first place (o :: inner) = o.found first place ++
      ((o.inward? first place).map (selectOpen false · inner)).getD [] := by
  cases o with
  | list items =>
      cases hstep : afterStep? first itemStep place <;> simp [selectOpen, found, inward?, h, hstep]
  | object members name =>
      cases hstep : afterStep? first name place <;> simp [selectOpen, found, inward?, h, hstep]

theorem selectOpen_single (h : place.isEmpty = false) :
    selectOpen first place [o] = o.found first place := by
  rw [o.selectOpen_cons first place h]
  cases o.inward? first place <;> simp [selectOpen]

end Place

end Open

theorem selectOpen_here (first : Bool) {place : List Char} (h : place.isEmpty = true)
    (frames : List Open) : selectOpen first place frames = [] := by
  rcases frames with _ | ⟨items | ⟨members, name⟩, frames⟩ <;> simp [selectOpen, h]

theorem selectOpen_value (first : Bool) (place : List Char) (o : Open) :
    selectOpen first place [o] <+: o.value.select first place := by
  cases hplace : place.isEmpty with
  | true =>
      rw [selectOpen_here first hplace]
      exact List.nil_prefix
  | false =>
      rw [o.selectOpen_single first place hplace, o.select_value first place hplace]

theorem selectOpen_append (first : Bool) (place : List Char) (outer : List Open) :
    ∃ ready, (∀ inner, selectOpen first place (outer ++ inner) = ready) ∨
      ∃ first' place', ∀ inner,
        selectOpen first place (outer ++ inner) = ready ++ selectOpen first' place' inner := by
  induction outer generalizing first place with
  | nil => exact ⟨[], .inr ⟨first, place, fun _ => rfl⟩⟩
  | cons o outer ih =>
      cases hplace : place.isEmpty with
      | true => exact ⟨[], .inl fun inner => selectOpen_here first hplace _⟩
      | false =>
          have hcons := fun inner => o.selectOpen_cons first place hplace (outer ++ inner)
          cases hinward : o.inward? first place with
          | none =>
              refine ⟨o.found first place, .inl fun inner => ?_⟩
              rw [List.cons_append, hcons, hinward]
              exact List.append_nil _
          | some rest =>
              obtain ⟨ready, h | ⟨first', place', h⟩⟩ := ih false rest
              · refine ⟨o.found first place ++ ready, .inl fun inner => ?_⟩
                rw [List.cons_append, hcons, hinward, ← h inner]
                rfl
              · refine ⟨o.found first place ++ ready, .inr ⟨first', place', fun inner => ?_⟩⟩
                rw [List.cons_append, hcons, hinward, List.append_assoc, ← h inner]
                rfl

theorem selectOpen_grows (first : Bool) (place : List Char) (outer : List Open)
    {inner inner' : List Open}
    (h : ∀ first place, selectOpen first place inner <+: selectOpen first place inner') :
    selectOpen first place (outer ++ inner) <+: selectOpen first place (outer ++ inner') := by
  obtain ⟨ready, hready | ⟨first', place', hready⟩⟩ := selectOpen_append first place outer
  · rw [hready, hready]
  · rw [hready, hready]
    exact (List.prefix_append_right_inj ready).mpr (h first' place')

section Deliver

variable {v : Value} (inner : List Open)

theorem select_put (h : ∀ first place, selectOpen first place inner <+: v.select first place)
    (first : Bool) (place : List Char) (o : Open) :
    ∃ more, selectOpen first place [o.put v] = selectOpen first place (o :: inner) ++ more ∧
      (more = [] ∨ ∃ rest, v.select false rest = selectOpen false rest inner ++ more) := by
  cases hplace : place.isEmpty with
  | true => exact ⟨[], by simp [selectOpen_here first hplace], .inl rfl⟩
  | false =>
      rw [Open.selectOpen_cons _ _ _ hplace, Open.selectOpen_cons _ _ _ hplace, Open.found_put,
        Open.inward?_put]
      cases hinward : o.inward? first place with
      | none => exact ⟨[], by simp, .inl rfl⟩
      | some rest =>
          obtain ⟨more, hmore⟩ := h false rest
          refine ⟨more, ?_, .inr ⟨rest, hmore.symm⟩⟩
          simp [selectOpen, hmore]

theorem deliver_cons (v : Value) (o : Open) (frames : List Open) :
    Progress.deliver v (o :: frames) = ⟨o.put v :: frames, .separator, none⟩ := by
  cases o <;> rfl

theorem select_deliver (h : ∀ first place, selectOpen first place inner <+: v.select first place)
    (frames : List Open) (place : String) :
    ∃ more, (between (.deliver v frames)).select place =
        selectOpen true place.toList (frames.reverse ++ inner) ++ more ∧
      (more = [] ∨ ∃ first rest, v.select first rest = selectOpen first rest inner ++ more) := by
  cases frames with
  | nil =>
      obtain ⟨more, hmore⟩ := h true place.toList
      exact ⟨more, hmore.symm, .inr ⟨true, place.toList, hmore.symm⟩⟩
  | cons o frames =>
      have hselect : (between (.deliver v (o :: frames))).select place =
          selectOpen true place.toList (frames.reverse ++ [o.put v]) := by
        rw [deliver_cons]
        exact congrArg _ List.reverse_cons
      have hinner : (o :: frames).reverse ++ inner = frames.reverse ++ (o :: inner) := by simp
      rw [hselect, hinner]
      obtain ⟨ready, hready | ⟨first, rest, hready⟩⟩ :=
        selectOpen_append true place.toList frames.reverse
      · exact ⟨[], by simp [hready], .inl rfl⟩
      · obtain ⟨more, hput, hmore⟩ := select_put inner h first rest o
        refine ⟨more, by simp [hready, hput], hmore.imp_right ?_⟩
        rintro ⟨rest, hrest⟩
        exact ⟨false, rest, hrest⟩

end Deliver

section Step

variable {p p' : Progress} {t : Token} (place : String)

theorem select_between (hroot : p.root = none) :
    (between p).select place = selectOpen true place.toList p.frames.reverse := by
  simp [Reader.select, between, hroot]

theorem select_deliver_grows {v : Value} {frames : List Open} (inner : List Open)
    (hroot : p.root = none) (hframes : p.frames = inner ++ frames)
    (h : ∀ first place, selectOpen first place inner.reverse <+: v.select first place) :
    (between p).select place <+: (between (.deliver v frames)).select place := by
  obtain ⟨more, hmore, -⟩ := select_deliver inner.reverse h frames place
  rw [hmore, select_between place hroot, hframes, List.reverse_append]
  exact List.prefix_append _ _

theorem select_frames_grows {frames : List Open} {e : Expect} (inner inner' : List Open)
    (hroot : p.root = none) (hframes : p.frames = inner ++ frames)
    (h : ∀ first place,
      selectOpen first place inner.reverse <+: selectOpen first place inner'.reverse) :
    (between p).select place <+: (between ⟨inner' ++ frames, e, none⟩).select place := by
  rw [select_between place hroot, select_between place rfl, hframes, List.reverse_append,
    List.reverse_append]
  exact selectOpen_grows _ _ _ h

theorem Progress.Step.select (h : Step p t p') (hroot : p.root = none) :
    (between p).select place <+: (between p').select place := by
  have hnothing : ∀ (inner : List Open) first place,
      selectOpen first place ([] : List Open).reverse <+: selectOpen first place inner.reverse :=
    fun inner first place => List.nil_prefix
  cases h with
  | openList => exact select_frames_grows place [] [.list []] hroot rfl (hnothing _)
  | openObject => exact select_frames_grows place [] [.object [] ""] hroot rfl (hnothing _)
  | scalar v => exact select_deliver_grows place [] hroot rfl fun _ _ => List.nil_prefix
  | text s => exact select_deliver_grows place [] hroot rfl fun _ _ => List.nil_prefix
  | closeList h =>
      exact select_deliver_grows place [.list _] hroot h
        fun first place => selectOpen_value first place _
  | closeObject h =>
      exact select_deliver_grows place [.object _ _] hroot h
        fun first place => selectOpen_value first place _
  | name h s =>
      refine select_frames_grows place [.object _ _] [.object _ s] hroot h ?_
      intro first place
      cases hplace : place.isEmpty with
      | true => simp [selectOpen_here first hplace]
      | false =>
          simp only [List.reverse_singleton, Open.selectOpen_single first place _ hplace]
          exact List.prefix_rfl
  | comma e => exact List.prefix_rfl
  | colon e => exact List.prefix_rfl

end Step

namespace Reader

variable {r s : Reader} {p p' : Progress} {b : UInt8} (place : String)

theorem select_accept {t : Token} (hp : p.Settled) (h : p.accept t = .ok p') :
    (between p).select place <+: (between p').select place :=
  (Progress.step_of_accept h).select place (hp.root_none (Progress.expect_of_accept h))

theorem Over.select (hr : r.Sound) (h : r.Over p) :
    r.select place <+: (between p).select place := by
  cases h with
  | idle h => exact List.prefix_rfl
  | number h hvalue haccept => exact select_accept place hr.settled haccept

theorem Begins.select (hp : p.Settled) (h : Begins b p s) :
    (between p).select place <+: s.select place := by
  cases h with
  | blank h => exact List.prefix_rfl
  | whole h haccept => exact select_accept place hp haccept
  | partly h => exact List.prefix_rfl

theorem Fed.select (hr : r.Sound) (h : Fed b r s) : r.select place <+: s.select place := by
  cases h with
  | begins hover h => exact (hover.select place hr).trans (h.select place (hover.settled hr))
  | continues h => exact List.prefix_rfl
  | closes h haccept => exact select_accept place hr.settled haccept

theorem select_after_append {bs cs : List UInt8} (h : (after (bs ++ cs)).flaw = none) :
    (after bs).select place <+: (after (bs ++ cs)).select place := by
  induction cs using List.reverseRecOn with
  | nil =>
      rw [List.append_nil]
  | append_singleton cs c ih =>
      rw [← List.append_assoc] at h ⊢
      have hbefore := flaw_of_after_append h
      have hsound := sound_after hbefore
      rw [after_concat] at h ⊢
      exact (ih hbefore).trans ((fed_of_feed hsound hbefore h).select place hsound)

end Reader

theorem Progress.flaw_of_accept_scalar {p : Progress} {v : Value} {f : Flaw}
    (h : p.accept (.scalar v) = .error f) : f = .malformed := by
  cases hexpect : p.expect <;> simp [accept, hexpect, acceptValue, acceptName] at h
  all_goals exact h.symm

theorem NumberState.next?_blank {n : NumberState} : n.next? 0x20 = none := by
  cases hnext : n.next? 0x20 with
  | none => rfl
  | some n' => exact absurd (more_or_sign hnext) (by decide)

namespace Reader

theorem Over.feed_end {r : Reader} {p : Progress} (hflaw : r.flaw = none) (h : r.Over p) :
    r.feed 0x20 = between p := by
  obtain ⟨q, l, f⟩ := r
  obtain rfl : f = none := hflaw
  cases h with
  | idle h =>
      obtain rfl : l = .none := h
      exact feed_blank rfl
  | @number n v p h hvalue haccept =>
      obtain rfl : l = .number n := h
      have haccept : q.accept (.scalar v) = .ok p := haccept
      have hblank : (between p).begin 0x20 = between p := rfl
      simp only [feed, NumberState.next?_blank, hvalue, accept, haccept]
      exact hblank

theorem feed_end {r : Reader} (hr : r.Sound) (hflaw : r.flaw = none) :
    (r.feed 0x20).flaw ≠ some .undecodable ∧
      ((r.feed 0x20).progress = r.progress ∨
        ∃ n v, r.lexeme = .number n ∧ n.value? = some v ∧
          r.progress.accept (.scalar v) = .ok (r.feed 0x20).progress) := by
  obtain ⟨p, l, f⟩ := r
  obtain rfl : f = none := hflaw
  cases l with
  | none =>
      have hover : Over ⟨p, .none, none⟩ p := .idle rfl
      rw [hover.feed_end rfl]
      exact ⟨nofun, .inl rfl⟩
  | text state pieces =>
      cases hstep : state.step pieces 0x20 with
      | more state' pieces' => simp [feed, hstep]
      | closed =>
          obtain ⟨-, hquote⟩ := TextState.quote_of_closed hstep
          cases hquote
      | malformed => simp [feed, hstep, fail]
  | number n =>
      cases hvalue : n.value? with
      | none => simp [feed, NumberState.next?_blank, hvalue, fail]
      | some v =>
          cases haccept : p.accept (.scalar v) with
          | error f =>
              obtain rfl := Progress.flaw_of_accept_scalar haccept
              simp [feed, NumberState.next?_blank, hvalue, accept, haccept, fail, begin]
          | ok p' =>
              have hover : Over ⟨p, .number n, none⟩ p' := .number rfl hvalue haccept
              rw [hover.feed_end rfl]
              exact ⟨nofun, .inr ⟨n, v, rfl, hvalue, haccept⟩⟩
  | word left v =>
      have hspells := hr.word left v rfl
      cases left with
      | nil => exact absurd rfl hspells.rest
      | cons x xs =>
          have hx : (0x20 : UInt8) ≠ x := by
            rintro rfl
            exact absurd (Bool.and_eq_true_iff.mp hspells.letters).1 (by decide)
          simp [feed, hx, fail]

theorem root_none_of_frames {p : Progress} (hp : p.Settled) (h : 0 < p.frames.length) :
    p.root = none := by
  cases hroot : p.root with
  | none => rfl
  | some v =>
      rw [(hp (by rw [hroot]; rfl)).2] at h
      cases h

theorem flaw?_of_nested {bs : List UInt8} (h : (after bs).flaw = none)
    (hdepth : 0 < (Nesting.ofBytes bs).depth) : (ofBytes bs).flaw? = some .malformed := by
  have hsound := sound_after h
  rw [← nesting_after h] at hdepth
  obtain ⟨hdecodable, hprogress⟩ := feed_end hsound h
  rw [← ofBytes_eq_feed] at hdecodable hprogress
  have hroot : (ofBytes bs).progress.root = none := by
    rcases hprogress with hsame | ⟨n, v, -, -, haccept⟩
    · rw [hsame]
      exact root_none_of_frames hsound.settled hdepth
    · have hlength := (Progress.step_of_accept haccept).depth
      refine root_none_of_frames (hsound.settled.accept haccept) ?_
      rw [hlength]
      exact hdepth
  cases hflaw : (ofBytes bs).flaw with
  | none => simp [flaw?, hflaw, hroot]
  | some f =>
      cases f with
      | malformed => simp [flaw?, hflaw]
      | undecodable => exact absurd hflaw hdecodable

theorem feed_opens_number {p : Progress} {b : UInt8} {n : NumberState}
    (h : Opens b (.partly (.number n))) : (between p).feed b = ⟨p, .number n, none⟩ := by
  cases h with
  | minus => rfl
  | digit hdigit => simp [feed, between, begin, Opening.ofByte_digit hdigit]

theorem number_begins {bs : List UInt8} {n : NumberState} (h : (after bs).flaw = none)
    (hn : (after bs).lexeme = .number n) :
    ∃ before ds, bs = before ++ ds ∧ ofBytes before = between (after bs).progress ∧
      after ds = ⟨.start, .number n, none⟩ := by
  refine after_induction (motive := fun bs => ∀ n, (after bs).lexeme = .number n →
    ∃ before ds, bs = before ++ ds ∧ ofBytes before = between (after bs).progress ∧
      after ds = ⟨.start, .number n, none⟩) nofun ?_ h n hn
  intro bs b hflaw hfed ih n hn
  generalize after (bs ++ [b]) = s at hfed hn ⊢
  cases hfed with
  | @begins p s hover hbegins =>
      cases hbegins with
      | blank h => cases hn
      | whole h haccept => cases hn
      | @partly l h =>
          obtain rfl : l = .number n := hn
          exact ⟨bs, [b], rfl, hover.feed_end hflaw, feed_opens_number h⟩
  | @continues l h =>
      obtain rfl : l = .number n := hn
      generalize hlexeme : (after bs).lexeme = l at h
      cases h with
      | number hnext =>
          obtain ⟨before, ds, rfl, hbefore, hds⟩ := ih _ hlexeme
          refine ⟨before, ds ++ [b], by rw [List.append_assoc], hbefore, ?_⟩
          rw [after_concat, hds]
          simp [feed, hnext]
  | closes h haccept => cases hn

end Reader

def Value.IsNumber : Value → Prop
  | int _ => True
  | float _ => True
  | _ => False

theorem Value.IsNumber.select {v : Value} (h : v.IsNumber) (first : Bool) (place : List Char) :
    v.select first place = [] ∨ v.select first place = [v] := by
  cases v with
  | int n => by_cases hplace : place.isEmpty = true <;> simp [Value.select, hplace, Value.distinct]
  | float f =>
      by_cases hplace : place.isEmpty = true <;> simp [Value.select, hplace, Value.distinct]
  | _ => exact h.elim

theorem NumberState.isNumber_of_value {n : NumberState} {v : Value} (h : n.value? = some v) :
    v.IsNumber := by
  have hint : ∀ m : Int, (if n.digits < 1 <<< 63 then some (Value.int m) else none) = some v →
      v.IsNumber := by
    intro m hm
    split at hm
    · cases hm
      trivial
    · cases hm
  rcases complete_of_value h with hpart | hpart | hpart | hpart
  · exact hint _ (by simpa [value?, hpart] using h)
  · exact hint _ (by simpa [value?, hpart] using h)
  all_goals
    rw [value?_float (by simp [hpart])] at h
    obtain ⟨f, -, rfl⟩ := Option.map_eq_some_iff.mp h
    trivial

theorem Reader.select_accept_number {p p' : Progress} {v : Value} (hv : v.IsNumber)
    (hp : p.Settled) (h : p.accept (.scalar v) = .ok p') (place : String) :
    (between p').select place = (between p).select place ∨
      (between p').select place = (between p).select place ++ [v] := by
  have hroot := hp.root_none (Progress.expect_of_accept h)
  cases Progress.step_of_accept h with
  | scalar v =>
      obtain ⟨more, hselect, hmore⟩ :=
        select_deliver (v := v) [] (fun _ _ => List.nil_prefix) p.frames place
      rw [List.append_nil, ← select_between place hroot] at hselect
      rw [hselect]
      rcases hmore with rfl | ⟨first, rest, hrest⟩
      · exact .inl (List.append_nil _)
      · rw [selectOpen, List.nil_append] at hrest
        rw [← hrest]
        rcases hv.select first rest with hnone | hsome
        · exact .inl (by rw [hnone, List.append_nil])
        · exact .inr (by rw [hsome])

/-- The bytes end within a number: what there is of it is a number, and the byte that comes next
goes on with it. -/
structure CutNumber (bs : List UInt8) (next : UInt8) (before digits : List UInt8) (v : Value) :
    Prop where
  split : bs = before ++ digits
  parsed : parse? digits = some v
  isNumber : v.IsNumber
  goesOn : NumberState.isMore next = true

namespace Reader

theorem parse?_of_number {ds : List UInt8} {n : NumberState} {v : Value}
    (h : after ds = ⟨.start, .number n, none⟩) (hvalue : n.value? = some v) :
    parse? ds = some v := by
  have hover : (after ds).Over (.deliver v []) := by
    rw [h]
    exact .number rfl hvalue rfl
  have hflaw : (after ds).flaw = none := by rw [h]
  have hend : ofBytes ds = between (.deliver v []) := hover.feed_end hflaw
  rw [parse?, hend]
  rfl

theorem feed_after_number {r : Reader} {n : NumberState} {v : Value} {p : Progress} {b : UInt8}
    (hflaw : r.flaw = none) (hn : r.lexeme = .number n) (hnext : n.next? b = none)
    (hvalue : n.value? = some v) (haccept : r.progress.accept (.scalar v) = .ok p) :
    r.feed b = (between p).begin b := by
  simp only [feed, hflaw, hn, hnext, hvalue, accept, haccept]
  rfl

/-- Bytes that break off have nothing but what more of them have, or beyond it the number in which
they break off. -/
theorem select_cut {bs : List UInt8} {next : UInt8} {rest : List UInt8}
    (h : (after (bs ++ next :: rest)).flaw = none) (place : String) :
    (ofBytes bs).select place <+: (after (bs ++ next :: rest)).select place ∨
      ∃ before digits v, CutNumber bs next before digits v ∧
        (ofBytes before).select place <+: (after (bs ++ next :: rest)).select place ∧
        (ofBytes bs).select place = (ofBytes before).select place ++ [v] := by
  have hflaw := flaw_of_after_append h
  have hsound := sound_after hflaw
  have hgrows := select_after_append place h
  rcases (feed_end hsound hflaw).2 with hsame | ⟨n, v, hn, hvalue, haccept⟩
  · left
    have hselect : (ofBytes bs).select place = (after bs).select place :=
      congrArg (fun p => (between p).select place) hsame
    rw [hselect]
    exact hgrows
  · have hover : (after bs).Over (ofBytes bs).progress := .number hn hvalue haccept
    cases hnext : n.next? next with
    | none =>
        -- The next byte ends the number as well.
        left
        have hsplit : bs ++ next :: rest = bs ++ [next] ++ rest := by simp
        rw [hsplit] at h ⊢
        have hfed := flaw_of_after_append h
        rw [after_concat, feed_after_number hflaw hn hnext hvalue haccept] at hfed
        have hbegins := (begins_of_begin hfed).select place (hover.settled hsound)
        rw [← feed_after_number hflaw hn hnext hvalue haccept, ← after_concat] at hbegins
        exact hbegins.trans (select_after_append place h)
    | some n' =>
        obtain ⟨before, digits, hbs, hbefore, hdigits⟩ := number_begins hflaw hn
        have hcomplete := NumberState.complete_of_value hvalue
        have hnumber := NumberState.isNumber_of_value hvalue
        have hcut : CutNumber bs next before digits v :=
          ⟨hbs, parse?_of_number hdigits hvalue, hnumber, hcomplete.more_of_next hnext⟩
        have hselect : (ofBytes before).select place = (after bs).select place := by
          rw [hbefore]
          rfl
        rcases select_accept_number hnumber hsound.settled haccept place with hsame | hadded
        · left
          have hsame : (ofBytes bs).select place = (after bs).select place := hsame
          rw [hsame]
          exact hgrows
        · right
          refine ⟨before, digits, v, hcut, ?_, ?_⟩
          · rw [hselect]
            exact hgrows
          · rw [hselect]
            exact hadded

end Reader

end SpanStore.Json
