import Mathlib.Data.List.TakeWhile
import SpanStore.Proofs.Net.Host
import SpanStore.Proofs.Net.Malformed

namespace SpanStore.Net.Url

def IsAuthorityChar (c : Char) : Prop :=
  c ∉ ['/', '?', '#', '\t', '\n', '\r'] ∧ c.toNat ∉ lookalikes

instance : DecidablePred IsAuthorityChar := fun _ => inferInstanceAs (Decidable (_ ∧ _))

def IsPathChar (c : Char) : Prop := c ∉ ['?', '#', '\t', '\n', '\r']

instance : DecidablePred IsPathChar := fun _ => inferInstanceAs (Decidable (_ ∉ _))

def Rooted (path : List Char) : Prop := path = [] ∨ ∃ rest, path = '/' :: rest

theorem Rooted.of_front {front path : List Char} (h : Rooted path) (hfront : front <+: path) :
    Rooted front := by
  rcases h with rfl | ⟨rest, rfl⟩
  · exact .inl (List.prefix_nil.mp hfront)
  · exact (List.prefix_cons_iff.mp hfront).imp_right fun ⟨tail, htail, _⟩ => ⟨tail, htail⟩

/-- The parts of a URL that was split. One without an authority may have any path. -/
structure Split (u : Url) : Prop where
  brackets : bracketsAgree u.authority = true
  authority : ∀ c ∈ u.authority, IsAuthorityChar c
  rooted : u.authority ≠ [] → Rooted u.path
  path : ∀ c ∈ u.path, IsPathChar c

section Splitting

variable {s : List Char} {u : Url}

def pathOf (s : List Char) : List Char := (Text.cut (· == '?') (Text.cut (· == '#') s).1).1

theorem mem_pathOf {c : Char} (h : c ∈ pathOf s) : c ∈ s ∧ c ≠ '?' ∧ c ≠ '#' := by
  obtain ⟨hmem, hquery⟩ := Text.forall_mem_cut _ _ c h
  obtain ⟨hs, hfragment⟩ := Text.forall_mem_cut _ _ c hmem
  exact ⟨hs, beq_eq_false_iff_ne.mp hquery, beq_eq_false_iff_ne.mp hfragment⟩

theorem pathOf_of_forall (h : ∀ c ∈ s, IsPathChar c) : pathOf s = s := by
  have hne {c d : Char} (hc : c ∈ s) (hd : d ∈ ['?', '#', '\t', '\n', '\r']) : (c == d) = false :=
    beq_false_of_ne (ne_of_mem_of_not_mem hd (h c hc)).symm
  rw [pathOf, Text.cut_of_forall fun c hc => hne hc (by simp),
    Text.cut_of_forall fun c hc => hne hc (by simp)]

theorem pathOf_rooted {c : Char} (hc : c ∈ ['/', '?', '#']) (rest : List Char) :
    Rooted (pathOf (c :: rest)) := by
  simp only [List.mem_cons, List.not_mem_nil, or_false] at hc
  rcases hc with rfl | rfl | rfl
  · exact .inr ⟨_, rfl⟩
  · exact .inl rfl
  · exact .inl rfl

def inAuthority (c : Char) : Bool := c != '/' && c != '?' && c != '#'

theorem inAuthority_iff {c : Char} : inAuthority c = true ↔ c ∉ ['/', '?', '#'] := by
  simp [inAuthority, and_assoc]

def cleaned (s : List Char) : List Char := s.filter fun c => c != '\t' && c != '\n' && c != '\r'

theorem mem_cleaned {c : Char} : c ∈ cleaned s ↔ c ∈ s ∧ c ∉ ['\t', '\n', '\r'] := by
  simp [cleaned, and_assoc]

theorem cleaned_of_forall (h : ∀ c ∈ s, c ∉ ['\t', '\n', '\r']) : cleaned s = s := by
  rw [cleaned, List.filter_eq_self]
  intro c hc
  simpa [and_assoc] using h c hc

def pathIn : List Char → List Char
  | '/' :: '/' :: rest => pathOf (rest.dropWhile inAuthority)
  | rest => pathOf rest

theorem pathIn_eq {rest : List Char} (h : ∀ tail, rest = '/' :: '/' :: tail → False) :
    pathIn rest = pathOf rest := by
  unfold pathIn
  split
  · exact (h _ rfl).elim
  · rfl

theorem split?_eq {scheme rest : List Char} (h : splitScheme (cleaned s) = (scheme, rest)) :
    split? s =
      if bracketsAgree (authorityIn rest) &&
          (authorityIn rest).all (fun c => !lookalikes.contains c.toNat) then
        some ⟨scheme, authorityIn rest, pathIn rest⟩
      else none := by
  rw [split?, ← cleaned, h]
  dsimp only
  split
  · rfl
  · rename_i hpath
    rw [authorityIn_eq_nil hpath, pathIn_eq hpath]
    rfl

theorem forall_authorityIn (rest : List Char) : ∀ c ∈ authorityIn rest, c ∉ ['/', '?', '#'] := by
  unfold authorityIn
  split
  · exact fun c hc => inAuthority_iff.mp (List.mem_takeWhile_imp hc)
  · exact List.forall_mem_nil _

theorem mem_pathIn {rest : List Char} {c : Char} (h : c ∈ pathIn rest) :
    c ∈ rest ∧ c ≠ '?' ∧ c ≠ '#' := by
  unfold pathIn at h
  split at h
  · obtain ⟨hmem, hc⟩ := mem_pathOf h
    have htail := (List.dropWhile_sublist _).subset hmem
    exact ⟨List.mem_cons_of_mem _ (List.mem_cons_of_mem _ htail), hc⟩
  · exact mem_pathOf h

theorem pathIn_rooted {rest : List Char} (h : authorityIn rest ≠ []) :
    Rooted (pathIn rest) := by
  unfold pathIn
  split
  · rename_i tail
    cases hpath : tail.dropWhile inAuthority with
    | nil => exact .inl rfl
    | cons c path =>
        have hstop := List.head?_dropWhile_not inAuthority tail
        rw [hpath] at hstop
        refine pathOf_rooted ?_ path
        by_contra hc
        exact absurd (inAuthority_iff.mpr hc) (Bool.eq_false_iff.mp hstop)
  · rename_i hpath
    exact absurd (authorityIn_eq_nil hpath) h

theorem split?_split (h : split? s = some u) : Split u := by
  rcases hscheme : splitScheme (cleaned s) with ⟨scheme, rest⟩
  have hclean {c : Char} (hc : c ∈ rest) : c ∉ ['\t', '\n', '\r'] := by
    have hmem : c ∈ (splitScheme (cleaned s)).2 := by rwa [hscheme]
    exact (mem_cleaned.mp (mem_of_mem_splitScheme hmem)).2
  rw [split?_eq hscheme] at h
  split_ifs at h with hagree
  obtain rfl := Option.some.inj h
  rw [Bool.and_eq_true, List.all_eq_true] at hagree
  refine ⟨hagree.1, fun c hc => ⟨?_, ?_⟩, pathIn_rooted, fun c hc => ?_⟩
  · have hends := forall_authorityIn rest c hc
    have hdropped := hclean (mem_of_mem_authorityIn hc)
    simp only [List.mem_cons, List.not_mem_nil, or_false] at hends hdropped ⊢
    tauto
  · simpa using hagree.2 c hc
  · obtain ⟨hrest, hquery, hfragment⟩ := mem_pathIn hc
    have hdropped := hclean hrest
    simp only [IsPathChar, List.mem_cons, List.not_mem_nil, or_false] at hdropped ⊢
    tauto

theorem splitScheme_append {scheme : List Char}
    (h : scheme = ['h', 't', 't', 'p'] ∨ scheme = ['h', 't', 't', 'p', 's']) (rest : List Char) :
    splitScheme (scheme ++ ':' :: rest) = (scheme, rest) := by
  rcases h with rfl | rfl <;> rfl

theorem authorityIn_append {authority path : List Char}
    (hauthority : ∀ c ∈ authority, IsAuthorityChar c)
    (hrooted : Rooted path) (hpath : ∀ c ∈ path, IsPathChar c) :
    authorityIn ('/' :: '/' :: (authority ++ path)) = authority ∧
      pathIn ('/' :: '/' :: (authority ++ path)) = path := by
  have hstay : ∀ c ∈ authority, inAuthority c = true := by
    intro c hc
    have hends := (hauthority c hc).1
    simp only [List.mem_cons, List.not_mem_nil, or_false, not_or] at hends
    simp [inAuthority_iff, hends.1, hends.2.1, hends.2.2.1]
  have hstop : path.takeWhile inAuthority = [] ∧ path.dropWhile inAuthority = path := by
    rcases hrooted with rfl | ⟨rest, rfl⟩
    · exact ⟨rfl, rfl⟩
    · exact ⟨rfl, rfl⟩
  constructor
  · change (authority ++ path).takeWhile inAuthority = authority
    rw [List.takeWhile_append_of_pos hstay, hstop.1, List.append_nil]
  · change pathOf ((authority ++ path).dropWhile inAuthority) = path
    rw [List.dropWhile_append_of_pos hstay, hstop.2, pathOf_of_forall hpath]

theorem split?_append {scheme authority path : List Char}
    (hscheme : scheme = ['h', 't', 't', 'p'] ∨ scheme = ['h', 't', 't', 'p', 's'])
    (hauthority : ∀ c ∈ authority, IsAuthorityChar c)
    (hrooted : Rooted path) (hpath : ∀ c ∈ path, IsPathChar c) :
    split? (scheme ++ ':' :: '/' :: '/' :: (authority ++ path)) =
      if bracketsAgree authority = true then some ⟨scheme, authority, path⟩ else none := by
  have hcleaned : cleaned (scheme ++ ':' :: '/' :: '/' :: (authority ++ path)) =
      scheme ++ ':' :: '/' :: '/' :: (authority ++ path) := by
    refine cleaned_of_forall ?_
    simp only [List.forall_mem_append, List.forall_mem_cons]
    refine ⟨?_, by decide, by decide, by decide, fun c hc => ?_, fun c hc => ?_⟩
    · rcases hscheme with rfl | rfl <;> simp
    · exact fun hdropped => (hauthority c hc).1 (by simp at hdropped ⊢; tauto)
    · exact fun hdropped => hpath c hc (by simp at hdropped ⊢; tauto)
  have hsplit := hcleaned ▸ splitScheme_append hscheme ('/' :: '/' :: (authority ++ path))
  obtain ⟨hfirst, hsecond⟩ := authorityIn_append hauthority hrooted hpath
  have hlookalikes : authority.all (fun c => !lookalikes.contains c.toNat) = true := by
    rw [List.all_eq_true]
    intro c hc
    simpa using (hauthority c hc).2
  rw [split?_eq hsplit, hfirst, hsecond, hlookalikes, Bool.and_true]

end Splitting

section Host

def hostPart (authority : List Char) : List Char := Text.afterLast (· == '@') authority

theorem hostPart_of_forall {authority : List Char} (h : '@' ∉ authority) :
    hostPart authority = authority :=
  Text.afterLast_of_forall fun _ hc => beq_false_of_ne (ne_of_mem_of_not_mem hc h)

theorem hostAndPort_cases (u : Url) :
    (∃ before inner, Text.cut (· == '[') (hostPart u.authority) = (before, some inner) ∧
      u.hostAndPort.1 = (Text.cut (· == ']') inner).1) ∨
    '[' ∉ hostPart u.authority ∧
      u.hostAndPort.1 = (Text.cut (· == ':') (hostPart u.authority)).1 := by
  rw [hostAndPort, ← hostPart]
  rcases hcut : Text.cut (· == '[') (hostPart u.authority) with ⟨before, _ | inner⟩
  · obtain ⟨rfl, hbefore⟩ := Text.cut_eq_none hcut
    exact .inr ⟨fun hmem => absurd rfl (beq_eq_false_iff_ne.mp (hbefore '[' hmem)), rfl⟩
  · exact .inl ⟨before, inner, rfl, rfl⟩

theorem forall_host (u : Url) : ∀ c ∈ u.hostAndPort.1, c ∈ u.authority ∧ c ≠ '@' := by
  intro c hc
  have hpart : c ∈ hostPart u.authority := by
    rcases hostAndPort_cases u with ⟨before, inner, hcut, hhost⟩ | ⟨-, hhost⟩
    · rw [hhost] at hc
      exact Text.mem_of_cut (congrArg Prod.snd hcut) (Text.forall_mem_cut _ _ c hc).1
    · rw [hhost] at hc
      exact (Text.forall_mem_cut _ _ c hc).1
  obtain ⟨hmem, hat⟩ := Text.mem_afterLast hpart
  exact ⟨hmem, beq_eq_false_iff_ne.mp hat⟩

theorem not_mem_cut {d : Char} (s : List Char) : d ∉ (Text.cut (· == d) s).1 :=
  fun hd => absurd rfl (beq_eq_false_iff_ne.mp (Text.forall_mem_cut _ s d hd).2)

theorem host_brackets (u : Url) : '[' ∉ u.hostAndPort.1 ∨ ']' ∉ u.hostAndPort.1 := by
  rcases hostAndPort_cases u with ⟨before, inner, -, hhost⟩ | ⟨hnone, hhost⟩
  · rw [hhost]
    exact .inr (not_mem_cut inner)
  · rw [hhost]
    exact .inl fun hmem => hnone (Text.forall_mem_cut _ _ _ hmem).1

theorem bracketsAgree_of_none {authority : List Char} (hopen : '[' ∉ authority)
    (hclose : ']' ∉ authority) : bracketsAgree authority = true := by
  rw [← List.contains_iff_mem, Bool.not_eq_true] at hopen hclose
  rw [bracketsAgree, hopen, hclose]

theorem bracketsAgree_of_one {authority : List Char} (hsome : '[' ∈ authority ∨ ']' ∈ authority)
    (hnone : '[' ∉ authority ∨ ']' ∉ authority) : bracketsAgree authority = false := by
  simp only [← List.contains_iff_mem, Bool.not_eq_true] at hsome hnone
  rw [bracketsAgree]
  rcases hnone with hopen | hclose
  · rw [hopen] at hsome ⊢
    rw [hsome.resolve_left Bool.false_ne_true]
  · rw [hclose] at hsome ⊢
    rw [hsome.resolve_right Bool.false_ne_true]

theorem mem_open {authority before inner : List Char}
    (hcut : Text.cut (· == '[') (hostPart authority) = (before, some inner)) : '[' ∈ authority := by
  obtain ⟨⟨d, hd, hpart⟩, -⟩ := Text.cut_eq_some hcut
  obtain rfl := beq_iff_eq.mp hd
  have hmem : '[' ∈ hostPart authority := by rw [hpart]; simp
  exact (Text.mem_afterLast hmem).1

theorem bracketsAgree_of_open {authority before inner : List Char}
    (hcut : Text.cut (· == '[') (hostPart authority) = (before, some inner))
    (hclose : ']' ∈ authority) :
    bracketsAgree authority =
      (before.isEmpty && (((Text.cut (· == ']') inner).2.getD []).isEmpty ||
        ((Text.cut (· == ']') inner).2.getD []).head? == some ':') &&
        isBracketed (Text.cut (· == ']') inner).1) := by
  have hopen := mem_open hcut
  rw [← List.contains_iff_mem] at hopen hclose
  rw [hostPart] at hcut
  rw [bracketsAgree, hopen, hclose]
  simp only [hcut]

theorem host_colon {u : Url} (hagree : bracketsAgree u.authority = true)
    (hcolon : ':' ∈ u.hostAndPort.1) :
    ']' ∉ u.hostAndPort.1 ∧ isBracketed u.hostAndPort.1 = true := by
  rcases hostAndPort_cases u with ⟨before, inner, hcut, hhost⟩ | ⟨-, hhost⟩
  · rw [hhost]
    refine ⟨not_mem_cut inner, ?_⟩
    by_cases hclose : ']' ∈ u.authority
    · rw [bracketsAgree_of_open hcut hclose, Bool.and_eq_true] at hagree
      exact hagree.2
    · rw [bracketsAgree_of_one (.inl (mem_open hcut)) (.inr hclose)] at hagree
      cases hagree
  · rw [hhost] at hcolon
    exact absurd hcolon (not_mem_cut _)

variable {scheme host digits path : List Char}

theorem cut_of_bracketed (hat : '@' ∉ host ++ digits) (hclose : ']' ∉ host) :
    Text.cut (· == '[') (hostPart ('[' :: (host ++ ']' :: ':' :: digits))) =
      ([], some (host ++ ']' :: ':' :: digits)) ∧
    Text.cut (· == ']') (host ++ ']' :: ':' :: digits) = (host, some (':' :: digits)) := by
  constructor
  · rw [hostPart_of_forall (by simpa using hat)]
    rfl
  · exact Text.cut_append_cons (fun c hc => beq_false_of_ne (ne_of_mem_of_not_mem hc hclose)) rfl _

theorem bracketsAgree_of_bracketed (hat : '@' ∉ host ++ digits) (hclose : ']' ∉ host) :
    bracketsAgree ('[' :: (host ++ ']' :: ':' :: digits)) = isBracketed host := by
  obtain ⟨hopen, hinner⟩ := cut_of_bracketed hat hclose
  rw [bracketsAgree_of_open hopen (by simp), hinner]
  rfl

theorem hostAndPort_of_bracketed (hat : '@' ∉ host ++ digits) (hclose : ']' ∉ host) :
    hostAndPort ⟨scheme, '[' :: (host ++ ']' :: ':' :: digits), path⟩ = (host, some digits) := by
  obtain ⟨hopen, hinner⟩ := cut_of_bracketed hat hclose
  rw [hostAndPort, ← hostPart, hopen]
  simp only [hinner]
  rfl

theorem hostAndPort_of_plain (hat : '@' ∉ host ++ digits) (hopen : '[' ∉ host ++ digits)
    (hcolon : ':' ∉ host) :
    hostAndPort ⟨scheme, host ++ ':' :: digits, path⟩ = (host, some digits) := by
  have hpart : hostPart (host ++ ':' :: digits) = host ++ ':' :: digits :=
    hostPart_of_forall (by simpa using hat)
  have hnone : Text.cut (· == '[') (host ++ ':' :: digits) = (host ++ ':' :: digits, none) := by
    refine Text.cut_of_forall fun c hc => beq_false_of_ne (ne_of_mem_of_not_mem hc ?_)
    simpa using hopen
  have hport : Text.cut (· == ':') (host ++ ':' :: digits) = (host, some digits) :=
    Text.cut_append_cons (fun c hc => beq_false_of_ne (ne_of_mem_of_not_mem hc hcolon)) rfl _
  rw [hostAndPort, ← hostPart, hpart, hnone]
  exact hport

end Host

end SpanStore.Net.Url
