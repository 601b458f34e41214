import SpanStore.Proofs.Json.Nesting

namespace SpanStore.Json

open Reader

deriving instance DecidableEq for Flaw

namespace Progress

def AwaitsText (p : Progress) : Prop :=
  p.expect = .value ∨ p.expect = .itemOrClose ∨ p.expect = .nameOrClose ∨ p.expect = .name

section Accept

variable {p : Progress} {t : Token}

theorem text_of_acceptValue (h : p.acceptValue t = .error .undecodable) : t = .text none := by
  cases t with
  | text s =>
      cases s with
      | none => rfl
      | some s => cases h
  | _ => cases h

theorem text_of_acceptName (h : p.acceptName t = .error .undecodable) : t = .text none := by
  unfold acceptName at h
  split at h
  · split at h <;> cases h
  · rfl
  · cases h

theorem closeList_ne_undecodable (frames : List Open) :
    closeList frames ≠ .error .undecodable := by
  unfold closeList
  split <;> exact nofun

theorem closeObject_ne_undecodable (frames : List Open) :
    closeObject frames ≠ .error .undecodable := by
  unfold closeObject
  split <;> exact nofun

theorem accept_undecodable_iff :
    p.accept t = .error .undecodable ↔ t = .text none ∧ p.AwaitsText := by
  constructor
  · intro h
    unfold accept at h
    split at h
    · exact ⟨text_of_acceptValue h, .inl ‹_›⟩
    · exact absurd h (closeList_ne_undecodable _)
    · exact ⟨text_of_acceptValue h, .inr (.inl ‹_›)⟩
    · exact absurd h (closeObject_ne_undecodable _)
    · exact ⟨text_of_acceptName h, .inr (.inr (.inl ‹_›))⟩
    · exact ⟨text_of_acceptName h, .inr (.inr (.inr ‹_›))⟩
    · cases h
    · split at h <;> cases h
    · exact absurd h (closeList_ne_undecodable _)
    · exact absurd h (closeObject_ne_undecodable _)
    · cases h
  · rintro ⟨rfl, hexpect | hexpect | hexpect | hexpect⟩ <;>
      simp [accept, hexpect, acceptValue, acceptName]

end Accept

end Progress

namespace Reader

theorem flaw_accept_iff {r : Reader} {t : Token} {f : Flaw} :
    (r.accept t).flaw = some f ↔ r.progress.accept t = .error f := by
  unfold accept
  split
  · rename_i p haccept
    simp [haccept]
  · rename_i g haccept
    simp [haccept, fail]

theorem begin_ne_undecodable {r : Reader} (h : r.flaw ≠ some .undecodable) (b : UInt8) :
    (r.begin b).flaw ≠ some .undecodable := by
  have hopens := opens_ofByte b
  unfold begin
  split
  · exact h
  · cases hopening : Opening.ofByte b with
    | blank => exact h
    | whole t =>
        simp only
        rw [ne_eq, flaw_accept_iff, Progress.accept_undecodable_iff]
        rintro ⟨rfl, -⟩
        rw [hopening] at hopens
        cases hopens
    | partly l => exact h
    | malformed => exact nofun

theorem accept_scalar_ne_undecodable (r : Reader) (v : Value) :
    (r.accept (.scalar v)).flaw ≠ some .undecodable := by
  rw [ne_eq, flaw_accept_iff, Progress.accept_undecodable_iff]
  exact fun h => nomatch h.1

theorem text_of_feed_undecodable {r : Reader} {b : UInt8} (hflaw : r.flaw = none)
    (h : (r.feed b).flaw = some .undecodable) :
    ∃ pieces, r.lexeme = .text .plain pieces ∧ b = 0x22 ∧ Piece.decode? pieces.reverse = none ∧
      r.progress.AwaitsText := by
  have hstart : r.flaw ≠ some .undecodable := by
    rw [hflaw]
    exact nofun
  simp only [feed, hflaw] at h
  split at h
  · exact absurd h (begin_ne_undecodable hstart b)
  · rename_i state pieces hlexeme
    split at h
    · cases h
    · rename_i hstep
      obtain ⟨rfl, rfl⟩ := TextState.quote_of_closed hstep
      rw [flaw_accept_iff, Progress.accept_undecodable_iff] at h
      exact ⟨pieces, hlexeme, rfl, Token.text.inj h.1, h.2⟩
    · cases h
  · split at h
    · cases h
    · split at h
      · exact absurd h (begin_ne_undecodable (accept_scalar_ne_undecodable _ _) b)
      · cases h
  · exact absurd h (begin_ne_undecodable (accept_scalar_ne_undecodable _ _) b)
  · split at h
    · split at h
      · exact absurd h (accept_scalar_ne_undecodable _ _)
      · cases h
    · cases h

/-- A reading with a flaw has a first byte that is one. -/
theorem exists_flaw {bs : List UInt8} {f : Flaw} (h : (after bs).flaw = some f) :
    ∃ before b rest, bs = before ++ b :: rest ∧ (after before).flaw = none ∧
      ((after before).feed b).flaw = some f := by
  induction bs using List.reverseRecOn with
  | nil => cases h
  | append_singleton bs b ih =>
      cases hbefore : (after bs).flaw with
      | none => exact ⟨bs, b, [], rfl, hbefore, by rwa [← after_concat]⟩
      | some g =>
          rw [after_concat, feed_of_flaw hbefore] at h
          obtain ⟨before, c, rest, rfl, hclear, hflaw⟩ := ih h
          exact ⟨before, c, rest ++ [b], by simp, hclear, hflaw⟩

theorem text_begins {bs : List UInt8} {state : TextState} {pieces : List Piece}
    (h : (after bs).flaw = none) (hlexeme : (after bs).lexeme = .text state pieces) :
    ∃ before content p, bs = before ++ 0x22 :: content ∧
      after (before ++ [0x22]) = ⟨p, .text .plain [], none⟩ ∧ (after bs).progress = p ∧
      content.foldlM TextState.next? (.plain, []) = some (state, pieces) := by
  revert state pieces
  refine after_induction (motive := fun bs => ∀ {state pieces},
    (after bs).lexeme = .text state pieces → ∃ before content p, bs = before ++ 0x22 :: content ∧
      after (before ++ [0x22]) = ⟨p, .text .plain [], none⟩ ∧ (after bs).progress = p ∧
      content.foldlM TextState.next? (.plain, []) = some (state, pieces)) nofun ?_ h
  intro bs b hflaw hfed ih state pieces hlexeme
  generalize hnext : after (bs ++ [b]) = s at hfed hlexeme ⊢
  cases hfed with
  | @begins p _ hover h =>
      cases h with
      | blank h => cases hlexeme
      | whole h haccept => cases hlexeme
      | partly h =>
          obtain rfl := hlexeme
          cases h
          exact ⟨bs, [], p, rfl, hnext, rfl, rfl⟩
  | continues h =>
      obtain rfl := hlexeme
      cases hbefore : (after bs).lexeme with
      | text state' pieces' =>
          rw [hbefore] at h
          cases h with
          | text hstep =>
              obtain ⟨before, content, p, rfl, hopen, hprogress, hcontent⟩ := ih hbefore
              refine ⟨before, content ++ [b], p, by simp, hopen, hprogress, ?_⟩
              simp [List.foldlM_append, hcontent, TextState.next?, hstep]
      | _ =>
          rw [hbefore] at h
          cases h
  | closes h haccept => cases hlexeme

end Reader

/-- Somewhere a string may stand and stands, nothing before it is amiss, and it has no text. -/
def Undecodable (bs : List UInt8) : Prop :=
  ∃ before content rest p pieces, bs = before ++ 0x22 :: content ++ 0x22 :: rest ∧
    after (before ++ [0x22]) = ⟨p, .text .plain [], none⟩ ∧ p.AwaitsText ∧
    content.foldlM TextState.next? (.plain, []) = some (.plain, pieces) ∧
    Piece.decode? pieces.reverse = none

namespace Reader

theorem flaw_of_undecodable {bs : List UInt8} (h : Undecodable bs) :
    (ofBytes bs).flaw = some .undecodable := by
  obtain ⟨before, content, rest, p, pieces, rfl, hopen, hawaits, hcontent, hdecode⟩ := h
  have hstring : after (before ++ 0x22 :: content) = ⟨p, .text .plain pieces, none⟩ := by
    have hsplit : before ++ 0x22 :: content = (before ++ [0x22]) ++ content := by simp
    rw [hsplit, after, List.foldl_append, ← after, hopen]
    exact foldl_feed_text hcontent
  have haccept : p.accept (.text none) = .error .undecodable :=
    Progress.accept_undecodable_iff.mpr ⟨rfl, hawaits⟩
  have hend : ((after (before ++ 0x22 :: content)).feed 0x22).flaw = some .undecodable := by
    rw [hstring]
    simp [feed, TextState.step, hdecode, accept, haccept, fail]
  rw [ofBytes_eq_feed, ← after_concat, List.append_assoc, List.cons_append, after,
    List.foldl_append, ← after, List.foldl_cons, foldl_feed_of_flaw hend]
  exact hend

theorem undecodable_of_flaw {bs : List UInt8} (h : (ofBytes bs).flaw = some .undecodable) :
    Undecodable bs := by
  rw [ofBytes_eq_feed, ← after_concat] at h
  obtain ⟨start, b, tail, hsplit, hclear, hflaw⟩ := exists_flaw h
  obtain ⟨pieces, hlexeme, rfl, hdecode, hawaits⟩ := text_of_feed_undecodable hclear hflaw
  obtain ⟨before, content, p, rfl, hopen, rfl, hcontent⟩ := text_begins hclear hlexeme
  rcases List.eq_nil_or_concat tail with rfl | ⟨rest, c, rfl⟩
  · -- The quote is no blank, so it is a byte of the text and not its end.
    have hlast : (0x20 : UInt8) = 0x22 := List.singleton_inj.mp (List.append_inj' hsplit rfl).2
    exact absurd hlast (by decide)
  · have hbytes : bs ++ [0x20] = (before ++ 0x22 :: content ++ 0x22 :: rest) ++ [c] := by
      rw [hsplit]
      simp
    exact ⟨before, content, rest, _, pieces, (List.append_inj' hbytes rfl).1, hopen, hawaits,
      hcontent, hdecode⟩

theorem flaw_undecodable_iff {bs : List UInt8} :
    (ofBytes bs).flaw = some .undecodable ↔ Undecodable bs :=
  ⟨undecodable_of_flaw, flaw_of_undecodable⟩

end Reader

end SpanStore.Json
