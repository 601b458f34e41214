import SpanStore.Net.Cluster
import SpanStore.Proofs.Distinct
import SpanStore.Proofs.Traversal

namespace SpanStore

/-- The fault of other URLs that are refused for the same cause. -/
def Fault.withUrls (urls : List String) : Fault → Fault
  | .mixedSchemes _ => .mixedSchemes urls
  | .mixedPorts _ => .mixedPorts urls
  | .secureCluster _ => .secureCluster urls
  | f => f

namespace Net

namespace Endpoint

/-- Some URL of the list names the endpoint. -/
def Named (urls : List String) (e : Endpoint) : Prop := ∃ url ∈ urls, parse url = .ok e

/-- URLs that make one cluster: their endpoints share scheme and port, and two different endpoints
need `http`. -/
structure OneCluster (urls : List String) : Prop where
  nonempty : urls ≠ []
  scheme : ∀ e e', Named urls e → Named urls e' → e.scheme = e'.scheme
  port : ∀ e e', Named urls e → Named urls e' → e.port = e'.port
  plain : ∀ e e', Named urls e → Named urls e' → e ≠ e' → e.scheme = "http"

theorem OneCluster.perm {urls urls' : List String} (hperm : urls.Perm urls')
    (h : OneCluster urls) : OneCluster urls' := by
  have hnamed {e : Endpoint} : Named urls' e → Named urls e := by
    rintro ⟨url, hurl, he⟩
    exact ⟨url, hperm.mem_iff.mpr hurl, he⟩
  refine ⟨fun hnil => h.nonempty ?_, ?_, ?_, ?_⟩
  · exact List.perm_nil.mp (hnil ▸ hperm)
  · exact fun e e' he he' => h.scheme e e' (hnamed he) (hnamed he')
  · exact fun e e' he he' => h.port e e' (hnamed he) (hnamed he')
  · exact fun e e' he he' => h.plain e e' (hnamed he) (hnamed he')

theorem exists_parsed {urls : List String} (h : ∀ url ∈ urls, ∃ e, parse url = .ok e) :
    ∃ parsed : List Endpoint, urls.map parse = parsed.map .ok := by
  cases hparsed : urls.mapM parse with
  | ok parsed => exact ⟨parsed, mapM_eq_ok_iff.mp hparsed⟩
  | error f =>
      obtain ⟨before, url, after, rfl, -, hurl⟩ := mapM_eq_error_iff.mp hparsed
      obtain ⟨e, he⟩ := h url (by simp)
      cases hurl.symm.trans he

section Parsed

variable {urls : List String} {parsed : List Endpoint} (h : urls.map parse = parsed.map .ok)

include h

theorem named_iff {e : Endpoint} : Named urls e ↔ e ∈ parsed := by
  have hmap : Named urls e ↔ .ok e ∈ urls.map parse := List.mem_map.symm
  rw [hmap, h, List.mem_map_of_injective fun _ _ => Except.ok.inj]

theorem oneCluster_iff {e : Endpoint} {others : List Endpoint}
    (hdistinct : parsed.eraseDups = e :: others) :
    OneCluster urls ↔ ∀ d ∈ others, d.scheme = e.scheme ∧ d.port = e.port ∧ e.scheme = "http" := by
  have hnamed {d : Endpoint} : Named urls d ↔ d = e ∨ d ∈ others := by
    rw [named_iff h, ← List.mem_eraseDups, hdistinct, List.mem_cons]
  have hfirst : e ∉ others := by
    have hnodup := nodup_eraseDups parsed
    rw [hdistinct] at hnodup
    exact (List.nodup_cons.mp hnodup).1
  constructor
  · intro hone d hd
    have hd' : Named urls d := hnamed.mpr (.inr hd)
    have he' : Named urls e := hnamed.mpr (.inl rfl)
    exact ⟨hone.scheme d e hd' he', hone.port d e hd' he',
      hone.plain e d he' hd' fun hed => hfirst (hed ▸ hd)⟩
  · intro hothers
    have hsame {d : Endpoint} (hd : Named urls d) : d.scheme = e.scheme ∧ d.port = e.port := by
      rcases hnamed.mp hd with rfl | hd
      · exact ⟨rfl, rfl⟩
      · exact ⟨(hothers d hd).1, (hothers d hd).2.1⟩
    refine ⟨?_, ?_, ?_, ?_⟩
    · -- without URLs there would be no first endpoint
      rintro rfl
      rw [List.map_eq_nil_iff.mp h.symm] at hdistinct
      cases hdistinct
    · exact fun a b ha hb => (hsame ha).1.trans (hsame hb).1.symm
    · exact fun a b ha hb => (hsame ha).2.trans (hsame hb).2.symm
    · intro a b ha hb hab
      rw [(hsame ha).1]
      rcases hnamed.mp ha with rfl | ha
      · exact (hothers b ((hnamed.mp hb).resolve_left hab.symm)).2.2
      · exact (hothers a ha).2.2

theorem parseAll_cases : (OneCluster urls ∧ parseAll urls = .ok parsed.eraseDups) ∨
    ¬ OneCluster urls ∧ ∃ f, parseAll urls = .error f ∧ f.kind = .connection := by
  cases hdistinct : parsed.eraseDups with
  | nil =>
      obtain rfl := eraseDups_eq_nil_iff.mp hdistinct
      refine .inr ⟨fun hone => hone.nonempty (List.map_eq_nil_iff.mp h), .noEndpoints, ?_, rfl⟩
      rw [parseAll, mapM_eq_ok_iff.mpr h]
      rfl
  | cons e others =>
      rw [oneCluster_iff h hdistinct, parseAll, mapM_eq_ok_iff.mpr h]
      simp only [hdistinct]
      split_ifs with hscheme hport hsecure
      · obtain ⟨d, hd, hne⟩ := List.any_eq_true.mp hscheme
        exact .inr ⟨fun hall => bne_iff_ne.mp hne (hall d hd).1, _, rfl, rfl⟩
      · obtain ⟨d, hd, hne⟩ := List.any_eq_true.mp hport
        exact .inr ⟨fun hall => bne_iff_ne.mp hne (hall d hd).2.1, _, rfl, rfl⟩
      · rw [Bool.and_eq_true, Bool.not_eq_true', List.isEmpty_eq_false_iff_exists_mem] at hsecure
        obtain ⟨⟨d, hd⟩, hne⟩ := hsecure
        exact .inr ⟨fun hall => bne_iff_ne.mp hne (hall d hd).2.2, _, rfl, rfl⟩
      · simp only [List.any_eq_true, bne_iff_ne, not_exists, not_and, not_not] at hscheme hport
        rw [Bool.and_eq_true, Bool.not_eq_true', List.isEmpty_eq_false_iff_exists_mem,
          bne_iff_ne, not_and, not_not] at hsecure
        exact .inl ⟨fun d hd => ⟨hscheme d hd, hport d hd, hsecure ⟨d, hd⟩⟩, rfl⟩

theorem parseAll_again {url : String} {e : Endpoint} (hurl : parse url = .ok e)
    (he : e ∈ parsed) :
    parseAll (urls ++ [url]) = (parseAll urls).mapError (Fault.withUrls (urls ++ [url])) := by
  have hagain : (urls ++ [url]).map parse = (parsed ++ [e]).map .ok := by
    simp [h, hurl]
  rw [parseAll, parseAll, mapM_eq_ok_iff.mpr h, mapM_eq_ok_iff.mpr hagain]
  simp only [eraseDups_append_iff.mpr (List.forall_mem_singleton.mpr he)]
  cases parsed.eraseDups with
  | nil => rfl
  | cons e others =>
      simp only
      split_ifs <;> rfl

end Parsed

theorem exists_parsed_of_parseAll {urls : List String} {endpoints : List Endpoint}
    (h : parseAll urls = .ok endpoints) :
    ∃ parsed : List Endpoint, urls.map parse = parsed.map .ok := by
  cases hparsed : urls.mapM parse with
  | ok parsed => exact ⟨parsed, mapM_eq_ok_iff.mp hparsed⟩
  | error f =>
      rw [parseAll, hparsed] at h
      cases h

theorem parseAll_eq_ok_iff {urls : List String} {endpoints : List Endpoint} :
    parseAll urls = .ok endpoints ↔ OneCluster urls ∧
      ∃ parsed : List Endpoint, urls.map parse = parsed.map .ok ∧ endpoints = parsed.eraseDups := by
  constructor
  · intro h
    obtain ⟨parsed, hparsed⟩ := exists_parsed_of_parseAll h
    rcases parseAll_cases hparsed with ⟨hone, hok⟩ | ⟨-, f, hf, -⟩
    · exact ⟨hone, parsed, hparsed, Except.ok.inj (h.symm.trans hok)⟩
    · cases hf.symm.trans h
  · rintro ⟨hone, parsed, hparsed, rfl⟩
    exact (parseAll_cases hparsed).elim And.right fun hf => absurd hone hf.1

section Accepted

variable {urls : List String} {endpoints : List Endpoint} (h : parseAll urls = .ok endpoints)

include h

theorem parseAll_ne_nil : endpoints ≠ [] := by
  obtain ⟨hone, parsed, hparsed, rfl⟩ := parseAll_eq_ok_iff.mp h
  rw [ne_eq, eraseDups_eq_nil_iff]
  rintro rfl
  exact hone.nonempty (List.map_eq_nil_iff.mp hparsed)

theorem parseAll_shared {e e' : Endpoint} (he : e ∈ endpoints) (he' : e' ∈ endpoints) :
    e.scheme = e'.scheme ∧ e.port = e'.port := by
  obtain ⟨hone, parsed, hparsed, rfl⟩ := parseAll_eq_ok_iff.mp h
  have hnamed {d : Endpoint} (hd : d ∈ parsed.eraseDups) : Named urls d :=
    (named_iff hparsed).mpr (List.mem_eraseDups.mp hd)
  exact ⟨hone.scheme e e' (hnamed he) (hnamed he'), hone.port e e' (hnamed he) (hnamed he')⟩

end Accepted

/-- When every URL names an endpoint, a list is accepted exactly if the endpoints are those of one
cluster, and it then means these endpoints, each where it was named first. Naming an endpoint again
or in another place does not matter. -/
theorem parseAll_accepts_iff {urls : List String} (h : ∀ url ∈ urls, ∃ e, parse url = .ok e) :
    ((∃ endpoints, parseAll urls = .ok endpoints) ↔ OneCluster urls) ∧
    (OneCluster urls → ∃ parsed : List Endpoint, urls.map parse = parsed.map .ok ∧
      parseAll urls = .ok parsed.eraseDups) ∧
    (¬ OneCluster urls → ∃ f, parseAll urls = .error f ∧ f.kind = .connection) ∧
    (∀ url, (∃ earlier ∈ urls, parse url = parse earlier) →
      parseAll (urls ++ [url]) = (parseAll urls).mapError (Fault.withUrls (urls ++ [url]))) ∧
    ∀ urls', urls.Perm urls' →
      ((∃ endpoints, parseAll urls' = .ok endpoints) ↔
        ∃ endpoints, parseAll urls = .ok endpoints) := by
  have haccepts {urls : List String} (h : ∀ url ∈ urls, ∃ e, parse url = .ok e) :
      (∃ endpoints, parseAll urls = .ok endpoints) ↔ OneCluster urls := by
    obtain ⟨parsed, hparsed⟩ := exists_parsed h
    rcases parseAll_cases hparsed with ⟨hone, hok⟩ | ⟨hmany, f, hf, -⟩
    · simp [hok, hone]
    · simp [hf, hmany]
  obtain ⟨parsed, hparsed⟩ := exists_parsed h
  refine ⟨haccepts h, fun hone => ?_, fun hmany => ?_, ?_, ?_⟩
  · exact ⟨parsed, hparsed, parseAll_eq_ok_iff.mpr ⟨hone, parsed, hparsed, rfl⟩⟩
  · exact (parseAll_cases hparsed).elim (fun hok => absurd hok.1 hmany) And.right
  · rintro url ⟨earlier, hearlier, hurl⟩
    obtain ⟨e, he⟩ := h earlier hearlier
    exact parseAll_again hparsed (hurl.trans he) ((named_iff hparsed).mp ⟨earlier, hearlier, he⟩)
  · intro urls' hperm
    have h' : ∀ url ∈ urls', ∃ e, parse url = .ok e :=
      fun url hurl => h url (hperm.mem_iff.mpr hurl)
    rw [haccepts h, haccepts h']
    exact ⟨OneCluster.perm hperm.symm, OneCluster.perm hperm⟩

def spellings : List String := ["HTTP://ES-A:80/", "http://user@es-b/es/", "http://es-a//"]

theorem parseAll_accepts_iff_spellings : (∀ url ∈ spellings, ∃ e, parse url = .ok e) ∧
    OneCluster spellings ∧
    parseAll (spellings ++ ["http://Es-B:0080/es"]) =
      .ok [⟨"http", "es-a", 80, ""⟩, ⟨"http", "es-b", 80, "/es"⟩] := by
  have hb : parse "http://user@es-b/es/" = .ok ⟨"http", "es-b", 80, "/es"⟩ := rfl
  have hb' : parse "http://Es-B:0080/es" = .ok ⟨"http", "es-b", 80, "/es"⟩ := rfl
  have hparse : ∀ url ∈ spellings, ∃ e, parse url = .ok e := by
    simp only [spellings, List.forall_mem_cons]
    exact ⟨⟨_, rfl⟩, ⟨_, hb⟩, ⟨_, rfl⟩, List.forall_mem_nil _⟩
  have hok : parseAll spellings =
      .ok [⟨"http", "es-a", 80, ""⟩, ⟨"http", "es-b", 80, "/es"⟩] := rfl
  obtain ⟨haccepts, -, -, hagain, -⟩ := parseAll_accepts_iff hparse
  refine ⟨hparse, haccepts.mp ⟨_, hok⟩, ?_⟩
  rw [hagain _ ⟨_, by simp [spellings], hb'.trans hb.symm⟩, hok]
  rfl

end Endpoint

theorem Cluster.ofUrls_cases (urls : List String) :
    (∃ f, Endpoint.parseAll urls = .error f ∧ ofUrls urls = .error f) ∨
      ∃ base others, Endpoint.parseAll urls = .ok (base :: others) ∧
        ofUrls urls = .ok (ofEndpoints base (base :: others)) := by
  cases h : Endpoint.parseAll urls with
  | error f => exact .inl ⟨f, rfl, by rw [ofUrls, h]⟩
  | ok endpoints =>
      cases endpoints with
      | nil => exact absurd rfl (Endpoint.parseAll_ne_nil h)
      | cons base others => exact .inr ⟨base, others, rfl, by rw [ofUrls, h]⟩

theorem Cluster.ofUrls_error_iff {urls : List String} {f : Fault} :
    ofUrls urls = .error f ↔ Endpoint.parseAll urls = .error f := by
  rcases ofUrls_cases urls with ⟨g, hparse, hcluster⟩ | ⟨base, others, hparse, hcluster⟩
  · rw [hparse, hcluster, Except.error.injEq, Except.error.injEq]
  · rw [hparse, hcluster]
    exact ⟨nofun, nofun⟩

end Net

end SpanStore
