import SpanStore.Net.Pool
import SpanStore.Proofs.Failure
import SpanStore.Proofs.Net.Endpoints
import SpanStore.Proofs.Text.Split

namespace SpanStore

namespace Text

theorem mem_of_mem_trim {s : List Char} {c : Char} (h : c ∈ trim s) : c ∈ s := by
  have hreverse := (List.dropWhile_sublist _).subset (List.mem_reverse.mp h)
  exact (List.dropWhile_sublist _).subset (List.mem_reverse.mp hreverse)

end Text

namespace Net

namespace Url

def authorityIn : List Char → List Char
  | '/' :: '/' :: rest => rest.takeWhile fun c => c != '/' && c != '?' && c != '#'
  | _ => []

theorem authorityIn_eq_nil {rest : List Char} (h : ∀ tail, rest = '/' :: '/' :: tail → False) :
    authorityIn rest = [] := by
  unfold authorityIn
  split
  · exact (h _ rfl).elim
  · rfl

theorem mem_of_mem_authorityIn {rest : List Char} {c : Char} (h : c ∈ authorityIn rest) :
    c ∈ rest := by
  unfold authorityIn at h
  split at h
  · exact List.mem_cons_of_mem _ (List.mem_cons_of_mem _ ((List.takeWhile_sublist _).subset h))
  · cases h

def authorityOf (s : List Char) : List Char :=
  authorityIn (splitScheme (s.filter fun c => c != '\t' && c != '\n' && c != '\r')).2

theorem mem_of_mem_splitScheme {s : List Char} {c : Char} (h : c ∈ (splitScheme s).2) : c ∈ s := by
  unfold splitScheme at h
  split at h
  · rename_i hcut
    split at h
    · exact Text.mem_of_cut (congrArg Prod.snd hcut) h
    · exact h
  · exact h

theorem mem_of_mem_authorityOf {s : List Char} {c : Char} (h : c ∈ authorityOf s) : c ∈ s :=
  (List.mem_filter.mp (mem_of_mem_splitScheme (mem_of_mem_authorityIn h))).1

theorem mem_bracket_of_not_agree {authority : List Char} (h : bracketsAgree authority = false) :
    '[' ∈ authority ∨ ']' ∈ authority := by
  by_contra hnone
  rw [not_or, ← List.contains_iff_mem, ← List.contains_iff_mem, Bool.not_eq_true,
    Bool.not_eq_true] at hnone
  rw [bracketsAgree, hnone.1, hnone.2] at h
  cases h

theorem split?_eq_none_iff {s : List Char} :
    split? s = none ↔ bracketsAgree (authorityOf s) = false ∨
      ∃ c ∈ authorityOf s, c.toNat ∈ lookalikes := by
  have hguard {authority : List Char} {u : Url} :
      (if bracketsAgree authority && authority.all (fun c => !lookalikes.contains c.toNat) then
        some u else none) = none ↔
      bracketsAgree authority = false ∨ ∃ c ∈ authority, c.toNat ∈ lookalikes := by
    simp [Bool.and_eq_true, imp_iff_not_or]
  rw [split?, authorityOf]
  generalize splitScheme (s.filter fun c => c != '\t' && c != '\n' && c != '\r') = parts
  cases parts with
  | mk scheme rest =>
      dsimp only
      split
      · exact hguard
      · rename_i hpath
        rw [authorityIn_eq_nil hpath]
        exact hguard

end Url

/-- The brackets of the URL's authority are out of order, or one of its characters stands for a
delimiter. -/
def Malformed (url : String) : Prop :=
  Url.bracketsAgree (Url.authorityOf (Text.trim url.toList)) = false ∨
    ∃ c ∈ Url.authorityOf (Text.trim url.toList), c.toNat ∈ Url.lookalikes

theorem Malformed.exists_mem {url : String} (h : Malformed url) :
    ∃ c ∈ url.toList, c = '[' ∨ c = ']' ∨ c.toNat ∈ Url.lookalikes := by
  have hmem {c : Char} (hc : c ∈ Url.authorityOf (Text.trim url.toList)) : c ∈ url.toList :=
    Text.mem_of_mem_trim (Url.mem_of_mem_authorityOf hc)
  rcases h with hbrackets | ⟨c, hc, hlook⟩
  · rcases Url.mem_bracket_of_not_agree hbrackets with hopen | hclose
    · exact ⟨'[', hmem hopen, .inl rfl⟩
    · exact ⟨']', hmem hclose, .inr (.inl rfl)⟩
  · exact ⟨c, hmem hc, .inr (.inr hlook)⟩

namespace Endpoint

theorem parse_malformed_iff {url : String} :
    parse url = .error .malformedUrl ↔ Malformed url := by
  rw [Malformed, ← Url.split?_eq_none_iff, parse]
  cases Url.split? (Text.trim url.toList) with
  | none => simp
  | some u =>
      dsimp only
      split
      · simp
      · split_ifs
        · simp
        · split <;> simp

theorem kind_of_parse {url : String} {f : Fault} (h : ¬ Malformed url)
    (hf : parse url = .error f) : f.kind = .connection := by
  rw [Malformed, ← Url.split?_eq_none_iff] at h
  rw [parse] at hf
  cases hsplit : Url.split? (Text.trim url.toList) with
  | none => exact absurd hsplit h
  | some u =>
      rw [hsplit] at hf
      dsimp only at hf
      split at hf
      · obtain rfl := Except.error.inj hf
        rfl
      · split_ifs at hf
        · obtain rfl := Except.error.inj hf
          rfl
        · split at hf
          · obtain rfl := Except.error.inj hf
            rfl
          · cases hf

def MalformedFirst (urls : List String) : Prop :=
  ∃ before url after, urls = before ++ url :: after ∧
    (∀ earlier ∈ before, ∃ e, parse earlier = .ok e) ∧ Malformed url

theorem mapM_malformed_iff {urls : List String} :
    urls.mapM parse = .error .malformedUrl ↔ MalformedFirst urls := by
  simp only [mapM_eq_error_iff, parse_malformed_iff, MalformedFirst]

theorem parseAll_of_mapM_error {urls : List String} {f : Fault}
    (h : urls.mapM parse = .error f) : parseAll urls = .error f := by
  rw [parseAll, h]

theorem parseAll_fails (urls : List String) :
    FailsUnless (MalformedFirst urls) .connection .malformedUrl (parseAll urls) := by
  rw [← mapM_malformed_iff]
  refine ⟨fun h f hf => ?_, parseAll_of_mapM_error⟩
  cases hparsed : urls.mapM parse with
  | ok parsed =>
      rcases parseAll_cases (mapM_eq_ok_iff.mp hparsed) with ⟨-, hok⟩ | ⟨-, g, hg, hkind⟩
      · cases hok.symm.trans hf
      · obtain rfl := Except.error.inj (hg.symm.trans hf)
        exact hkind
  | error g =>
      obtain rfl := Except.error.inj ((parseAll_of_mapM_error hparsed).symm.trans hf)
      obtain ⟨-, url, -, -, -, hurl⟩ := mapM_eq_error_iff.mp hparsed
      refine kind_of_parse (fun hmalformed => h ?_) hurl
      obtain rfl := Except.error.inj (hurl.symm.trans (parse_malformed_iff.mpr hmalformed))
      exact hparsed

end Endpoint

theorem Cluster.ofUrls_fails (urls : List String) :
    FailsUnless (Endpoint.MalformedFirst urls) .connection .malformedUrl (ofUrls urls) :=
  (Endpoint.parseAll_fails urls).congr fun _ => ofUrls_error_iff

theorem Pool.connect_refused {urls : List String} {f : Fault}
    (h : Endpoint.parseAll urls = .error f) (config : ConnectionConfig) (lookup : Lookup)
    (d : Directory) : connect urls config lookup d = (.error f, d) := by
  rw [connect, Cluster.ofUrls_error_iff.mpr h]

end Net

end SpanStore
