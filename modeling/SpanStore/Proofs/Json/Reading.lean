import SpanStore.Proofs.Json.NumberLexing
import SpanStore.Proofs.Json.Spelling
import SpanStore.Proofs.Json.StringLexing

namespace SpanStore.Json

open Grammar Text.Utf8

namespace Reader

def between (p : Progress) : Reader := ⟨p, .none, none⟩

def read (r : Reader) (t : List Char) : Reader := (encode t).foldl feed r

theorem read_append (r : Reader) (t u : List Char) : r.read (t ++ u) = (r.read t).read u := by
  rw [read, encode_append, List.foldl_append]
  rfl

theorem read_cons {c : Char} {b : UInt8} (hc : String.utf8EncodeChar c = [b]) (r : Reader)
    (t : List Char) : r.read (c :: t) = (r.feed b).read t := by
  rw [read, encode_cons, hc]
  rfl

theorem feed_blank {p : Progress} {b : UInt8} (hb : Text.isBlankByte b = true) :
    (between p).feed b = between p := by
  simp [feed, between, begin, Opening.ofByte, hb]

theorem blank_byte {c : Char} (hc : c = ' ' ∨ c = '\t' ∨ c = '\n' ∨ c = '\r') :
    ∃ b, String.utf8EncodeChar c = [b] ∧ Text.isBlankByte b = true := by
  rcases hc with rfl | rfl | rfl | rfl <;> exact ⟨_, rfl, rfl⟩

@[simp] theorem read_blank {w : List Char} (hw : Blank w) (p : Progress) :
    (between p).read w = between p := by
  induction w with
  | nil => rfl
  | cons c w ih =>
      obtain ⟨b, hbyte, hb⟩ := blank_byte (hw c List.mem_cons_self)
      rw [read_cons hbyte, feed_blank hb]
      exact ih fun d hd => hw d (List.mem_cons_of_mem c hd)

theorem feed_of_flaw {r : Reader} {f : Flaw} (h : r.flaw = some f) (b : UInt8) :
    r.feed b = r := by
  simp [feed, h]

theorem foldl_feed_of_flaw {r : Reader} {f : Flaw} (h : r.flaw = some f) (bs : List UInt8) :
    bs.foldl feed r = r := by
  induction bs with
  | nil => rfl
  | cons b bs ih => rw [List.foldl_cons, feed_of_flaw h, ih]

end Reader

open Reader

/-- The text takes the reader from one progress to another, at the latest when a delimiter follows
it. -/
def Takes (t : List Char) (p p' : Progress) : Prop :=
  ∀ b, Delimiter b → ((between p).read t).feed b = (between p').feed b

theorem Takes.of_read {t : List Char} {p q : Progress} (h : (between p).read t = between q) :
    Takes t p q := by
  intro b _
  rw [h]

/-- A delimiter after the text is read as if it stood alone. -/
theorem Takes.read_delimited {t : List Char} {p q : Progress} {c : Char} {b : UInt8}
    (h : Takes t p q) (hc : String.utf8EncodeChar c = [b]) (hb : Delimiter b) (u : List Char) :
    (between p).read (t ++ c :: u) = (between q).read (c :: u) := by
  rw [read_append, read_cons hc, read_cons hc, h b hb]

structure Reader.Stopped (r : Reader) : Prop where
  flaw : r.flaw ≠ none
  root : r.progress.root = none

theorem Reader.Stopped.feed {r : Reader} (h : r.Stopped) (b : UInt8) : r.feed b = r := by
  obtain ⟨f, hf⟩ := Option.ne_none_iff_exists'.mp h.flaw
  exact feed_of_flaw hf b

theorem Reader.Stopped.read {r : Reader} (h : r.Stopped) (t : List Char) : r.read t = r := by
  obtain ⟨f, hf⟩ := Option.ne_none_iff_exists'.mp h.flaw
  exact foldl_feed_of_flaw hf (encode t)

/-- What the text makes of a progress, at the latest when a delimiter follows it: another
progress, or no progress any more. -/
def Reads (t : List Char) (p : Progress) : Option Progress → Prop
  | some q => Takes t p q
  | none => ∀ b, Delimiter b → (((between p).read t).feed b).Stopped

namespace Reads

variable {t u w : List Char} {p q q' : Progress} {o : Option Progress} {c : Char} {b : UInt8}

theorem of_stopped (h : ((between p).read t).Stopped) : Reads t p none := by
  intro b _
  rwa [h.feed]

theorem of_feed_eq (h : ∀ b, ((between p).read t).feed b = ((between q).read u).feed b)
    (hu : Reads u q o) : Reads t p o := by
  cases o with
  | none =>
      intro b hb
      rw [h]
      exact hu b hb
  | some q' =>
      intro b hb
      rw [h]
      exact hu b hb

theorem prepend (h : (between p).read t = between q) (hu : Reads u q o) : Reads (t ++ u) p o := by
  refine of_feed_eq (fun b => ?_) hu
  rw [read_append, h]

theorem stopped_delimited (h : Reads t p none) (hc : String.utf8EncodeChar c = [b])
    (hb : Delimiter b) (u : List Char) : ((between p).read (t ++ c :: u)).Stopped := by
  rw [read_append, read_cons hc, (h b hb).read]
  exact h b hb

theorem append_blank (h : Reads t p o) (hw : Blank w) : Reads (t ++ w) p o := by
  cases w with
  | nil => simpa using h
  | cons c w =>
      obtain ⟨b, hbyte, hb⟩ := blank_byte (hw c List.mem_cons_self)
      cases o with
      | none => exact of_stopped (stopped_delimited h hbyte (.inl hb) w)
      | some q =>
          apply Takes.of_read
          rw [Takes.read_delimited h hbyte (.inl hb)]
          exact read_blank hw q

theorem next (h : Takes t p q) (hcomma : (between q).feed 0x2C = between q')
    (hu : Reads u q' o) : Reads (t ++ ',' :: u) p o := by
  have hencode : String.utf8EncodeChar ',' = [0x2C] := rfl
  refine of_feed_eq (fun d => ?_) hu
  rw [h.read_delimited hencode (.inr (.inl rfl)), read_cons hencode, hcomma]

theorem bind_next {β : Type} {v : Option β} {f f' : β → Progress} {g : β → Option Progress}
    (h : Reads t p (v.map f)) (hcomma : ∀ a, (between (f a)).feed 0x2C = between (f' a))
    (hu : ∀ a, Reads u (f' a) (g a)) : Reads (t ++ ',' :: u) p (v.bind g) := by
  cases v with
  | none => exact of_stopped (stopped_delimited h rfl (.inr (.inl rfl)) u)
  | some a => exact next h (hcomma a) (hu a)

end Reads

def Open.ofMembers : List (String × Value) → Open
  | [] => .object [] ""
  | m :: ms => .object (m :: ms) m.1

@[simp] theorem Open.ofMembers_cons (m : String × Value) (ms : List (String × Value)) :
    Open.ofMembers (m :: ms) = .object (m :: ms) m.1 := rfl

theorem Open.exists_ofMembers (members : List (String × Value)) :
    ∃ name, Open.ofMembers members = .object members name := by
  cases members with
  | nil => exact ⟨_, rfl⟩
  | cons m ms => exact ⟨_, rfl⟩

def Progress.Ready (p : Progress) : Prop := p.expect = .value ∨ p.expect = .itemOrClose

theorem Progress.Ready.accept {p : Progress} (h : p.Ready) {t : Token} (ht : t ≠ .closeList) :
    p.accept t = p.acceptValue t := by
  rcases h with h | h
  · rw [Progress.accept.eq_def, h]
  · rw [Progress.accept.eq_def, h]
    cases t <;> first | rfl | exact absurd rfl ht

namespace Reads

section Value

variable {p : Progress} (hp : p.Ready) {t : List Char}

include hp

theorem word {v : Value} {l : Lexeme}
    (h : (between p).read t = Reader.accept ⟨p, l, none⟩ (.scalar v)) :
    Takes t p (.deliver v p.frames) := by
  apply Takes.of_read
  rw [h]
  simp [between, Reader.accept, hp.accept, Progress.acceptValue]

theorem read_openList (t : List Char) : (between p).read ('[' :: t) =
    (between ⟨.list [] :: p.frames, .itemOrClose, none⟩).read t := by
  change ((between p).accept .openList).read t = _
  simp [between, Reader.accept, hp.accept, Progress.acceptValue]

theorem read_openObject (t : List Char) : (between p).read ('\x7b' :: t) =
    (between ⟨.ofMembers [] :: p.frames, .nameOrClose, none⟩).read t := by
  change ((between p).accept .openObject).read t = _
  simp [between, Reader.accept, hp.accept, Progress.acceptValue, Open.ofMembers]

theorem emptyList {w : List Char} (hw : Blank w) :
    Takes ('[' :: w ++ [']']) p (.deliver (.list []) p.frames) := by
  apply Takes.of_read
  rw [List.cons_append, read_openList hp, read_append, read_blank hw]
  rfl

theorem emptyObject {w : List Char} (hw : Blank w) :
    Takes ('\x7b' :: w ++ ['\x7d']) p (.deliver (.object []) p.frames) := by
  apply Takes.of_read
  rw [List.cons_append, read_openObject hp, read_append, read_blank hw]
  rfl

theorem list {items : Option (List Value)}
    (h : Reads t ⟨.list [] :: p.frames, .itemOrClose, none⟩
      (items.map fun vs => ⟨.list vs.reverse :: p.frames, .separator, none⟩)) :
    Reads ('[' :: t ++ [']']) p ((items.map .list).map (.deliver · p.frames)) := by
  rw [List.cons_append]
  cases items with
  | none =>
      apply of_stopped
      rw [read_openList hp]
      exact stopped_delimited h rfl (.inr (.inr (.inl rfl))) []
  | some vs =>
      apply Takes.of_read
      rw [read_openList hp, Takes.read_delimited h rfl (.inr (.inr (.inl rfl)))]
      change Reader.accept (between ⟨.list vs.reverse :: p.frames, .separator, none⟩)
        .closeList = _
      simp [between, Reader.accept, Progress.accept, Progress.closeList]

theorem object {members : Option (List (String × Value))}
    (h : Reads t ⟨.ofMembers [] :: p.frames, .nameOrClose, none⟩
      (members.map fun ms => ⟨.ofMembers ms.reverse :: p.frames, .separator, none⟩)) :
    Reads ('\x7b' :: t ++ ['\x7d']) p ((members.map .object).map (.deliver · p.frames)) := by
  rw [List.cons_append]
  cases members with
  | none =>
      apply of_stopped
      rw [read_openObject hp]
      exact stopped_delimited h rfl (.inr (.inr (.inr rfl))) []
  | some ms =>
      obtain ⟨name, hname⟩ := Open.exists_ofMembers ms.reverse
      rw [Option.map_some, hname] at h
      apply Takes.of_read
      rw [read_openObject hp, Takes.read_delimited h rfl (.inr (.inr (.inr rfl)))]
      change Reader.accept (between ⟨.object ms.reverse name :: p.frames, .separator, none⟩)
        .closeObject = _
      simp [between, Reader.accept, Progress.accept, Progress.closeObject]

variable (hroot : p.root = none)

include hroot

theorem number {v : Option Value} (h : EndsIn t v) :
    Reads t p (v.map (.deliver · p.frames)) := by
  obtain ⟨n, hread, hvalue, hend⟩ := h
  cases v with
  | none =>
      intro b hb
      rw [Reader.read, between, hread]
      have hfail : Reader.feed ⟨p, .number n, none⟩ b = ⟨p, .number n, some .malformed⟩ := by
        simp [Reader.feed, hend b hb, hvalue, Reader.fail]
      rw [hfail]
      exact ⟨Option.some_ne_none _, hroot⟩
  | some v =>
      intro b hb
      rw [Reader.read, between, hread]
      simp [Reader.feed, between, hend b hb, hvalue, Reader.accept, hp.accept,
        Progress.acceptValue]

theorem text {gs : List Glyph} (h : Glyph.Quoted gs t) :
    Reads t p (((Glyph.string? gs).map .text).map (.deliver · p.frames)) := by
  obtain ⟨l, hread⟩ := Reader.foldl_feed_quoted h p
  cases htext : Glyph.string? gs with
  | none =>
      apply of_stopped
      rw [Reader.read, between, hread, htext]
      have haccept : p.accept (.text none) = .error .undecodable := hp.accept (by simp)
      simp only [Reader.accept, haccept]
      exact ⟨Option.some_ne_none _, hroot⟩
  | some s =>
      apply Takes.of_read
      rw [Reader.read, between, hread, htext]
      simp [between, Reader.accept, hp.accept, Progress.acceptValue]

end Value

theorem member {members : List (String × Value)} {frames : List Open} {e : Expect}
    {gs : List Glyph} {w n w' t : List Char} {o : String → Option Progress}
    (hw : Blank w) (hn : Glyph.Quoted gs n) (hw' : Blank w') (he : e = .name ∨ e = .nameOrClose)
    (ht : ∀ s, Reads t ⟨.object members s :: frames, .value, none⟩ (o s)) :
    Reads (w ++ n ++ w' ++ ':' :: t) ⟨.ofMembers members :: frames, e, none⟩
      ((Glyph.string? gs).bind o) := by
  obtain ⟨name, hname⟩ := Open.exists_ofMembers members
  rw [hname]
  obtain ⟨l, hread⟩ := Reader.foldl_feed_quoted hn ⟨.object members name :: frames, e, none⟩
  rw [List.append_assoc, List.append_assoc]
  refine prepend (read_blank hw _) ?_
  cases htext : Glyph.string? gs with
  | none =>
      have hstop : ((between ⟨.object members name :: frames, e, none⟩).read n).Stopped := by
        rw [Reader.read, between, hread, htext]
        rcases he with rfl | rfl <;> exact ⟨Option.some_ne_none _, rfl⟩
      apply of_stopped
      rw [read_append, hstop.read]
      exact hstop
  | some s =>
      have htake : (between ⟨.object members name :: frames, e, none⟩).read n =
          between ⟨.object members s :: frames, .colon, none⟩ := by
        rw [Reader.read, between, hread, htext]
        rcases he with rfl | rfl <;> rfl
      refine prepend htake (prepend (read_blank hw' _) ?_)
      have hcolon : (between ⟨.object members s :: frames, .colon, none⟩).read
          [':'] = between ⟨.object members s :: frames, .value, none⟩ := rfl
      exact prepend hcolon (ht s)

end Reads

mutual

theorem reads_tree {s : Tree} {t : List Char} (h : s.Text t) {p : Progress} (hp : p.Ready)
    (hroot : p.root = none) : Reads t p (s.value?.map (.deliver · p.frames)) := by
  match h with
  | .null => exact Reads.word hp (l := .word [0x6C] .null) rfl
  | .true => exact Reads.word hp (l := .word [0x65] (.bool true)) rfl
  | .false => exact Reads.word hp (l := .word [0x65] (.bool false)) rfl
  | .number hn => exact .number hp hroot (.numeral hn)
  | .text hq => exact .text hp hroot hq
  | .emptyList hw => exact Reads.emptyList hp hw
  | .list hitems =>
      have hreads := reads_items hitems [] p.frames (.inr rfl)
      simp only [List.append_nil] at hreads
      exact .list hp hreads
  | .emptyObject hw => exact Reads.emptyObject hp hw
  | .object hmembers =>
      have hreads := reads_members hmembers [] p.frames (.inr rfl)
      simp only [List.append_nil] at hreads
      exact .object hp hreads

theorem reads_padded {s : Tree} {t : List Char} (h : s.Padded t) {p : Progress} (hp : p.Ready)
    (hroot : p.root = none) : Reads t p (s.value?.map (.deliver · p.frames)) := by
  match h with
  | .around hw hs hw' =>
      exact (Reads.prepend (read_blank hw p) (reads_tree hs hp hroot)).append_blank hw'

theorem reads_items {ss : List Tree} {t : List Char} (h : Tree.Items ss t) (acc : List Value)
    (frames : List Open) {e : Expect} (he : e = .value ∨ e = .itemOrClose) :
    Reads t ⟨.list acc :: frames, e, none⟩ ((Tree.itemsValue? ss).map fun vs =>
      ⟨.list (vs.reverse ++ acc) :: frames, .separator, none⟩) := by
  match h with
  | @Tree.Items.one s _ hs =>
      have hfirst := reads_padded hs (p := ⟨.list acc :: frames, e, none⟩) he rfl
      simpa [Tree.itemsValue?_singleton, Function.comp_def, Progress.deliver] using hfirst
  | @Tree.Items.more s ss t ts hs hss =>
      -- A number in this item is put into the list only by the comma after it.
      have hfirst := reads_padded hs (p := ⟨.list acc :: frames, e, none⟩) he rfl
      have hrest (v : Value) := reads_items hss (v :: acc) frames (.inl rfl)
      simpa [Tree.itemsValue?, Option.map_bind, Function.comp_def] using
        hfirst.bind_next (fun _ => rfl) hrest

theorem reads_members {ms : List (List Glyph × Tree)} {t : List Char} (h : Tree.Members ms t)
    (acc : List (String × Value)) (frames : List Open) {e : Expect}
    (he : e = .name ∨ e = .nameOrClose) :
    Reads t ⟨.ofMembers acc :: frames, e, none⟩ ((Tree.membersValue? ms).map fun vs =>
      ⟨.ofMembers (vs.reverse ++ acc) :: frames, .separator, none⟩) := by
  match h with
  | @Tree.Members.one gs s _ _ _ _ hw hn hw' hs =>
      have hvalue (name : String) := reads_padded hs
        (p := ⟨.object acc name :: frames, .value, none⟩) (.inl rfl) rfl
      simpa [Tree.membersValue?_singleton, Option.map_bind, Function.comp_def,
        Progress.deliver] using Reads.member hw hn hw' he hvalue
  | @Tree.Members.more gs s ms w n w' t ts hw hn hw' hs hms =>
      have hvalue (name : String) := reads_padded hs
        (p := ⟨.object acc name :: frames, .value, none⟩) (.inl rfl) rfl
      have hrest (name : String) (v : Value) :=
        reads_members hms ((name, v) :: acc) frames (.inl rfl)
      have hboth (name : String) := (hvalue name).bind_next (fun _ => rfl) (hrest name)
      simpa [Tree.membersValue?, Option.map_bind, Function.comp_def] using
        Reads.member hw hn hw' he hboth

end

namespace Reader

theorem ofBytes_tree {s : Tree} {t : List Char} (h : s.Padded t) {v : Value}
    (hv : s.value? = some v) : ofBytes (encode t) = between ⟨[], .nothing, some v⟩ := by
  have hreads := reads_padded h (p := .start) (.inl rfl) rfl
  rw [hv] at hreads
  exact hreads 0x20 (.inl rfl)

theorem ofBytes_stopped {s : Tree} {t : List Char} (h : s.Padded t) (hv : s.value? = none) :
    (ofBytes (encode t)).Stopped := by
  have hreads := reads_padded h (p := .start) (.inl rfl) rfl
  rw [hv] at hreads
  exact hreads 0x20 (.inl rfl)

theorem flaw?_tree {s : Tree} {t : List Char} (h : s.Padded t) :
    (ofBytes (encode t)).flaw? = none ↔ s.Readable := by
  rw [← s.isSome_value?_iff]
  cases hv : s.value? with
  | some v =>
      rw [ofBytes_tree h hv]
      exact iff_of_true rfl rfl
  | none =>
      obtain ⟨f, hf⟩ := Option.ne_none_iff_exists'.mp (ofBytes_stopped h hv).flaw
      simp [flaw?, hf]

/-- Every text of a value is read as that value and nothing else. -/
theorem ofBytes_text {v : Value} {t : List Char} (h : PaddedText v t)
    (hv : v.AllInts FitsReader) : ofBytes (encode t) = between ⟨[], .nothing, some v⟩ := by
  obtain ⟨s, hs, hvalue⟩ := Tree.exists_of_padded h
  exact ofBytes_tree hs ((hvalue v).mpr ⟨hv, rfl⟩)

end Reader

end SpanStore.Json
