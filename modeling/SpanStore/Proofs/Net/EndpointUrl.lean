import Mathlib.Data.List.DropRight
import SpanStore.Net.Endpoint
import SpanStore.Proofs.Net.UrlParts

/-!
The URL of an endpoint. Reading it again gives the scheme, the host and the port of the endpoint,
but the blanks and slashes at the end of its path are dropped, and a host with a bracket and without
a colon makes it malformed. So it names the endpoint exactly if the path does not end in a blank and
the host is not of that kind.
-/
namespace SpanStore

namespace Text

theorem rdropWhile_append {p : Char → Bool} {s : List Char} (h : s.rdropWhile p = s)
    (t : List Char) : (s ++ t).rdropWhile p = s ++ t.rdropWhile p := by
  induction t using List.reverseRecOn with
  | nil => rw [List.append_nil, h, List.rdropWhile_nil, List.append_nil]
  | append_singleton t c ih =>
      rw [← List.append_assoc, List.rdropWhile_concat, List.rdropWhile_concat]
      split
      · exact ih
      · exact List.append_assoc s t [c]

theorem rdropWhile_eq_self_iff {p : Char → Bool} {s : List Char} :
    s.rdropWhile p = s ↔ ∀ c, s.getLast? = some c → p c = false := by
  rw [List.rdropWhile_eq_self_iff]
  constructor
  · intro h c hc
    obtain ⟨front, rfl⟩ := List.getLast?_eq_some_iff.mp hc
    have hp := h (List.append_ne_nil_of_right_ne_nil front (List.cons_ne_nil c []))
    rwa [List.getLast_concat, Bool.not_eq_true] at hp
  · intro h hne
    exact Bool.eq_false_iff.mp (h _ (List.getLast?_eq_some_getLast hne))

theorem trim_append {s : List Char} (hne : s ≠ [])
    (hfront : ∀ c, s.head? = some c → isBlank c = false)
    (hback : ∀ c, s.getLast? = some c → isBlank c = false) (t : List Char) :
    trim (s ++ t) = s ++ t.rdropWhile isBlank := by
  have hkeep : (s ++ t).dropWhile isBlank = s ++ t := by
    cases s with
    | nil => exact absurd rfl hne
    | cons c s =>
        rw [List.cons_append, List.dropWhile_cons, hfront c rfl]
        rfl
  rw [trim, hkeep]
  exact rdropWhile_append (rdropWhile_eq_self_iff.mpr hback) t

end Text

namespace Net

namespace Endpoint

section Host

structure HostSound (host : List Char) : Prop where
  ne_nil : host ≠ []
  lower : Url.lowerHost host = host
  chars : ∀ c ∈ host, Url.IsAuthorityChar c ∧ c ≠ '@'
  brackets : '[' ∉ host ∨ ']' ∉ host
  colon : ':' ∈ host → ']' ∉ host ∧ Url.isBracketed host = true

def separators : List Char := ['/', '?', '#', '\t', '\n', '\r', '@', '[', ']', ':']

theorem not_target : ∀ n ∈ separators.map Char.toNat ++ Url.lookalikes, ¬ Text.IsTarget n := by
  decide +kernel

theorem mem_of_mem_lowerHost {s : List Char} {c : Char}
    (hc : c.toNat ∈ separators.map Char.toNat ++ Url.lookalikes) (h : c ∈ Url.lowerHost s) :
    c ∈ s :=
  (Url.mem_lowerHost h).resolve_right (not_target c.toNat hc)

theorem separator_of_mem_lowerHost {s : List Char} {c : Char} (hc : c ∈ separators)
    (h : c ∈ Url.lowerHost s) : c ∈ s :=
  mem_of_mem_lowerHost (List.mem_append_left _ (List.mem_map_of_mem hc)) h

theorem hostSound_of_split {u : Url} (h : u.Split) (hne : u.hostAndPort.1 ≠ []) :
    HostSound u.host.toList := by
  rw [Url.toList_host]
  -- lowering adds no separator, so one that is in the host was in it as written
  refine ⟨Url.lowerHost_ne_nil hne, Url.lowerHost_lowerHost _, fun c hc => ?_, ?_, fun hcolon => ?_⟩
  · have hwritten (hmem : c ∈ u.hostAndPort.1) : Url.IsAuthorityChar c ∧ c ≠ '@' :=
      ⟨h.authority c (Url.forall_host u c hmem).1, (Url.forall_host u c hmem).2⟩
    refine ⟨⟨fun hseparator => ?_, fun hlookalike => ?_⟩, ?_⟩
    · have hmem : c ∈ separators := by
        simp only [separators, List.mem_cons, List.not_mem_nil, or_false] at hseparator ⊢
        tauto
      exact (hwritten (separator_of_mem_lowerHost hmem hc)).1.1 hseparator
    · have hmem := mem_of_mem_lowerHost (List.mem_append_right _ hlookalike) hc
      exact (hwritten hmem).1.2 hlookalike
    · rintro rfl
      exact (hwritten (separator_of_mem_lowerHost (by decide) hc)).2 rfl
  · exact (Url.host_brackets u).imp (fun hopen hmem =>
      hopen (separator_of_mem_lowerHost (by decide) hmem)) (fun hclose hmem =>
      hclose (separator_of_mem_lowerHost (by decide) hmem))
  · obtain ⟨hclose, hbracketed⟩ :=
      Url.host_colon h.brackets (separator_of_mem_lowerHost (by decide) hcolon)
    exact ⟨fun hmem => hclose (separator_of_mem_lowerHost (by decide) hmem),
      Url.isBracketed_lowerHost hbracketed⟩

end Host

structure Sound (e : Endpoint) : Prop where
  scheme : e.scheme = "http" ∨ e.scheme = "https"
  host : HostSound e.host.toList
  port : e.port ≤ 65535
  rooted : Url.Rooted e.pathPrefix.toList
  path : ∀ c ∈ e.pathPrefix.toList, Url.IsPathChar c
  trimmed : e.pathPrefix.toList.rdropWhile (· == '/') = e.pathPrefix.toList

section Reading

variable {url : String} {e : Endpoint}

theorem parse_eq_ok (h : parse url = .ok e) : ∃ u standard port,
    Url.split? (Text.trim url.toList) = some u ∧
    defaultPort? (String.ofList u.scheme) = some standard ∧ u.hostAndPort.1 ≠ [] ∧
    u.port? = some port ∧ e = ⟨String.ofList u.scheme, u.host, port.getD standard,
      String.ofList (u.path.rdropWhile (· == '/'))⟩ := by
  unfold parse at h
  split at h
  · cases h
  · rename_i u hsplit
    dsimp only at h
    split at h
    · cases h
    · rename_i standard hstandard
      split_ifs at h with hempty
      rw [List.isEmpty_iff] at hempty
      split at h
      · cases h
      · rename_i port hport
        exact ⟨u, standard, port, hsplit, hstandard, hempty, hport, (Except.ok.inj h).symm⟩

theorem defaultPort?_eq_some {scheme : String} {standard : Nat}
    (h : defaultPort? scheme = some standard) :
    (scheme = "http" ∨ scheme = "https") ∧ standard ≤ 65535 := by
  unfold defaultPort? at h
  split_ifs at h with hhttp hhttps
  · obtain rfl := Option.some.inj h
    exact ⟨.inl hhttp, by decide⟩
  · obtain rfl := Option.some.inj h
    exact ⟨.inr hhttps, by decide⟩

theorem port?_le {u : Url} {n : Nat} (h : u.port? = some (some n)) : n ≤ 65535 := by
  unfold Url.port? at h
  split at h
  · cases h
  · cases h
  · dsimp only at h
    split_ifs at h with hport
    obtain rfl := Option.some.inj (Option.some.inj h)
    exact of_decide_eq_true (Bool.and_eq_true_iff.mp hport).2

theorem sound_of_parse (h : parse url = .ok e) : Sound e := by
  obtain ⟨u, standard, port, hsplit, hstandard, hhost, hport, rfl⟩ := parse_eq_ok h
  have hu := Url.split?_split hsplit
  obtain ⟨hscheme, hle⟩ := defaultPort?_eq_some hstandard
  refine ⟨hscheme, hostSound_of_split hu hhost, ?_, ?_, ?_, ?_⟩
  · cases port with
    | none => exact hle
    | some n => exact port?_le hport
  · obtain ⟨c, hc⟩ := List.exists_mem_of_ne_nil _ hhost
    rw [String.toList_ofList]
    exact (hu.rooted (List.ne_nil_of_mem (Url.forall_host u c hc).1)).of_front
      ( List.rdropWhile_prefix _ u.path)
  · rw [String.toList_ofList]
    exact fun c hc => hu.path c (( List.rdropWhile_prefix _ u.path).subset hc)
  · rw [String.toList_ofList]
    exact List.rdropWhile_idempotent _ u.path

end Reading

section Writing

variable {e : Endpoint}

theorem forall_toDigits (n : Nat) : ∀ c ∈ Nat.toDigits 10 n,
    Url.IsAuthorityChar c ∧ c ∉ ['@', '[', ']', ':'] ∧ Text.isBlank c = false := by
  intro c hc
  have hall : ∀ n < 58, 48 ≤ n → Url.IsAuthorityChar (Char.ofNat n) ∧
      Char.ofNat n ∉ ['@', '[', ']', ':'] ∧ Text.isBlank (Char.ofNat n) = false := by decide
  have hbounds : 48 ≤ c.toNat ∧ c.toNat ≤ 57 :=
    Char.isDigit_iff_toNat.mp (Nat.isDigit_of_mem_toDigits (by decide) (by decide) hc)
  have hchar := hall c.toNat (by omega) hbounds.1
  rwa [Char.ofNat_toNat] at hchar

def authorityText (e : Endpoint) : List Char :=
  (hostText e.host).toList ++ ':' :: Nat.toDigits 10 e.port

theorem toList_url (e : Endpoint) : e.url.toList =
    e.scheme.toList ++ ':' :: '/' :: '/' :: (authorityText e ++ e.pathPrefix.toList) := by
  simp [url, authorityText]

theorem toList_hostText (host : String) : (hostText host).toList =
    if ':' ∈ host.toList then '[' :: (host.toList ++ [']']) else host.toList := by
  simp only [hostText, List.contains_iff_mem]
  split
  · simp
  · rfl

theorem Sound.forall_authorityText (h : Sound e) :
    ∀ c ∈ authorityText e, Url.IsAuthorityChar c := by
  have hhost : ∀ c ∈ (hostText e.host).toList, Url.IsAuthorityChar c := by
    rw [toList_hostText]
    split
    · simp only [List.forall_mem_cons, List.forall_mem_append]
      exact ⟨by decide, fun c hc => (h.host.chars c hc).1, by decide, List.forall_mem_nil _⟩
    · exact fun c hc => (h.host.chars c hc).1
  rw [authorityText, List.forall_mem_append, List.forall_mem_cons]
  exact ⟨hhost, by decide, fun c hc => (forall_toDigits e.port c hc).1⟩

theorem Sound.toList_scheme (h : Sound e) :
    e.scheme.toList = ['h', 't', 't', 'p'] ∨ e.scheme.toList = ['h', 't', 't', 'p', 's'] := by
  rcases h.scheme with hscheme | hscheme
  · rw [hscheme]
    exact .inl rfl
  · rw [hscheme]
    exact .inr rfl

theorem Sound.exists_standard (h : Sound e) :
    ∃ standard, defaultPort? e.scheme = some standard := by
  rcases h.scheme with hscheme | hscheme
  · exact ⟨80, by rw [hscheme]; rfl⟩
  · exact ⟨443, by rw [hscheme]; rfl⟩

theorem Sound.trim_url (h : Sound e) : Text.trim e.url.toList = e.scheme.toList ++
    ':' :: '/' :: '/' :: (authorityText e ++ e.pathPrefix.toList.rdropWhile Text.isBlank) := by
  have hassoc (path : List Char) :
      e.scheme.toList ++ ':' :: '/' :: '/' :: (authorityText e ++ path) =
        (e.scheme.toList ++ ':' :: '/' :: '/' :: authorityText e) ++ path := by simp
  have hsplit : e.scheme.toList ++ ':' :: '/' :: '/' :: authorityText e =
      (e.scheme.toList ++ ':' :: '/' :: '/' :: ((hostText e.host).toList ++ [':'])) ++
        Nat.toDigits 10 e.port := by simp [authorityText]
  rw [toList_url, hassoc, hassoc]
  refine Text.trim_append ?_ ?_ ?_ _
  · exact List.append_ne_nil_of_right_ne_nil _ (List.cons_ne_nil _ _)
  · rcases h.toList_scheme with hscheme | hscheme <;>
      · rw [hscheme]
        rintro c ⟨⟩
        decide
  · intro c hc
    rw [hsplit, List.getLast?_append_of_ne_nil _ Nat.toDigits_ne_nil] at hc
    exact (forall_toDigits e.port c (List.mem_of_getLast? hc)).2.2

theorem port?_of_digits {u : Url} {host : List Char} {port : Nat}
    (hparts : u.hostAndPort = (host, some (Nat.toDigits 10 port))) (hport : port ≤ 65535) :
    u.port? = some (some port) := by
  have hdigits : (Nat.toDigits 10 port).all Char.isDigit = true :=
    List.all_eq_true.mpr fun c hc => Nat.isDigit_of_mem_toDigits (by decide) (by decide) hc
  have hvalue : Nat.ofDigitChars 10 (Nat.toDigits 10 port) 0 = port :=
    Nat.ofDigitChars_ten_toDigits
  rw [Url.port?, hparts]
  cases hcases : Nat.toDigits 10 port with
  | nil => exact absurd hcases Nat.toDigits_ne_nil
  | cons d ds =>
      rw [hcases] at hdigits hvalue
      simp only [hdigits, hvalue, hport, decide_true, Bool.and_true, if_true]

theorem parse_of_split {url : String} {u : Url} {host : List Char} {standard port : Nat}
    (hsplit : Url.split? (Text.trim url.toList) = some u)
    (hstandard : defaultPort? (String.ofList u.scheme) = some standard)
    (hparts : u.hostAndPort = (host, some (Nat.toDigits 10 port))) (hne : host ≠ [])
    (hport : port ≤ 65535) :
    parse url = .ok ⟨String.ofList u.scheme, u.host, port,
      String.ofList (u.path.rdropWhile (· == '/'))⟩ := by
  have hempty : u.hostAndPort.1.isEmpty = false := by rwa [hparts, List.isEmpty_eq_false_iff]
  rw [parse, hsplit]
  simp only [hstandard, hempty, port?_of_digits hparts hport]
  rfl

/-- The host has a bracket although it has no colon. -/
def Stray (host : String) : Prop :=
  ':' ∉ host.toList ∧ ('[' ∈ host.toList ∨ ']' ∈ host.toList)

instance : DecidablePred Stray := fun _ => inferInstanceAs (Decidable (_ ∧ (_ ∨ _)))

def trimmedPath (path : List Char) : List Char :=
  (path.rdropWhile Text.isBlank).rdropWhile (· == '/')

def reread (e : Endpoint) : Endpoint :=
  { e with pathPrefix := String.ofList (trimmedPath e.pathPrefix.toList) }

theorem not_mem_toDigits {c : Char} (hc : c ∈ ['@', '[', ']', ':']) (n : Nat) :
    c ∉ Nat.toDigits 10 n :=
  fun hmem => (forall_toDigits n c hmem).2.1 hc

theorem authorityText_of_colon (h : ':' ∈ e.host.toList) :
    authorityText e = '[' :: (e.host.toList ++ ']' :: ':' :: Nat.toDigits 10 e.port) := by
  simp [authorityText, toList_hostText, h]

theorem authorityText_of_plain (h : ':' ∉ e.host.toList) :
    authorityText e = e.host.toList ++ ':' :: Nat.toDigits 10 e.port := by
  simp [authorityText, toList_hostText, h]

theorem bracket_mem_authorityText (h : ':' ∉ e.host.toList) {c : Char} (hc : c = '[' ∨ c = ']') :
    c ∈ authorityText e ↔ c ∈ e.host.toList := by
  rw [authorityText_of_plain h, List.mem_append, List.mem_cons]
  refine or_iff_left (not_or.mpr ?_)
  rcases hc with rfl | rfl
  · exact ⟨by decide, not_mem_toDigits (by decide) e.port⟩
  · exact ⟨by decide, not_mem_toDigits (by decide) e.port⟩

theorem Sound.not_agree_of_stray (h : Sound e) (hstray : Stray e.host) :
    Url.bracketsAgree (authorityText e) = false := by
  have hopen := bracket_mem_authorityText hstray.1 (.inl rfl)
  have hclose := bracket_mem_authorityText hstray.1 (.inr rfl)
  refine Url.bracketsAgree_of_one ?_ ?_
  · rw [hopen, hclose]
    exact hstray.2
  · rw [hopen, hclose]
    exact h.host.brackets

theorem Sound.parts_of_not_stray (h : Sound e) (hstray : ¬ Stray e.host) (path : List Char) :
    Url.bracketsAgree (authorityText e) = true ∧
      Url.hostAndPort ⟨e.scheme.toList, authorityText e, path⟩ =
        (e.host.toList, some (Nat.toDigits 10 e.port)) := by
  have hat : '@' ∉ e.host.toList ++ Nat.toDigits 10 e.port :=
    List.not_mem_append (fun hmem => (h.host.chars '@' hmem).2 rfl)
      (not_mem_toDigits (by decide) e.port)
  by_cases hcolon : ':' ∈ e.host.toList
  · obtain ⟨hclose, hbracketed⟩ := h.host.colon hcolon
    rw [authorityText_of_colon hcolon, Url.bracketsAgree_of_bracketed hat hclose]
    exact ⟨hbracketed, Url.hostAndPort_of_bracketed hat hclose⟩
  · obtain ⟨hopen, hclose⟩ := not_or.mp fun hbracket => hstray ⟨hcolon, hbracket⟩
    constructor
    · apply Url.bracketsAgree_of_none
      · rwa [bracket_mem_authorityText hcolon (.inl rfl)]
      · rwa [bracket_mem_authorityText hcolon (.inr rfl)]
    · rw [authorityText_of_plain hcolon]
      refine Url.hostAndPort_of_plain hat (List.not_mem_append hopen ?_) hcolon
      exact not_mem_toDigits (by decide) e.port

theorem Sound.parse_url (h : Sound e) :
    parse e.url = if Stray e.host then .error .malformedUrl else .ok e.reread := by
  have hfront := List.rdropWhile_prefix Text.isBlank e.pathPrefix.toList
  have hsplit := Url.split?_append h.toList_scheme h.forall_authorityText
    (h.rooted.of_front hfront) fun c hc => h.path c (hfront.subset hc)
  rw [← h.trim_url] at hsplit
  by_cases hstray : Stray e.host
  · rw [h.not_agree_of_stray hstray] at hsplit
    rw [if_pos hstray, parse, hsplit]
    rfl
  · obtain ⟨hagree, hparts⟩ :=
      h.parts_of_not_stray hstray (e.pathPrefix.toList.rdropWhile Text.isBlank)
    rw [hagree, if_pos rfl] at hsplit
    obtain ⟨standard, hstandard⟩ := h.exists_standard
    rw [← String.ofList_toList (s := e.scheme)] at hstandard
    have hhost : Url.host ⟨e.scheme.toList, authorityText e,
        e.pathPrefix.toList.rdropWhile Text.isBlank⟩ = e.host := by
      rw [← String.toList_inj, Url.toList_host, hparts]
      exact h.host.lower
    rw [if_neg hstray, parse_of_split hsplit hstandard hparts h.host.ne_nil h.port, hhost,
      String.ofList_toList]
    rfl

theorem Sound.reread_eq_iff (h : Sound e) :
    e.reread = e ↔ ∀ c, e.pathPrefix.toList.getLast? = some c → Text.isBlank c = false := by
  rw [← Text.rdropWhile_eq_self_iff]
  constructor
  · intro heq
    have hpath : trimmedPath e.pathPrefix.toList = e.pathPrefix.toList := by
      have hfield := congrArg (fun e => e.pathPrefix.toList) heq
      rwa [reread, String.toList_ofList] at hfield
    -- nothing is lost in the end, so nothing was lost when the blanks were dropped
    refine ( List.rdropWhile_prefix _ _).eq_of_length_le ?_
    calc e.pathPrefix.toList.length = (trimmedPath e.pathPrefix.toList).length := by rw [hpath]
      _ ≤ (e.pathPrefix.toList.rdropWhile Text.isBlank).length :=
        ( List.rdropWhile_prefix _ _).length_le
  · intro hblank
    rw [reread, trimmedPath, hblank, h.trimmed, String.ofList_toList]

/-- The URL of an endpoint that was read names it exactly if the host has no stray bracket and the
path does not end in a blank. -/
theorem parse_url_iff {url : String} (h : parse url = .ok e) :
    parse e.url = (if Stray e.host then .error .malformedUrl else .ok e.reread) ∧
    (parse e.url = .ok e ↔ ¬ Stray e.host ∧
      ∀ c, e.pathPrefix.toList.getLast? = some c → Text.isBlank c = false) := by
  have hsound := sound_of_parse h
  refine ⟨hsound.parse_url, ?_⟩
  rw [hsound.parse_url, ← hsound.reread_eq_iff]
  split
  · rename_i hstray
    exact ⟨nofun, fun hnot => absurd hstray hnot.1⟩
  · rename_i hplain
    rw [Except.ok.injEq]
    exact ⟨fun heq => ⟨hplain, heq⟩, And.right⟩

def zonedUrl : String := "HTTPS://user@[FE80::1%Eth0]/es//"

def zonedEndpoint : Endpoint := ⟨"https", "fe80::1%Eth0", 443, "/es"⟩

theorem parse_url_iff_zoned : parse zonedUrl = .ok zonedEndpoint ∧ ¬ Stray zonedEndpoint.host ∧
    parse "https://[fe80::1%Eth0]:443/es" = .ok zonedEndpoint := by
  have hread : parse zonedUrl = .ok zonedEndpoint := rfl
  have hurl : zonedEndpoint.url = "https://[fe80::1%Eth0]:443/es" := rfl
  have hstray : ¬ Stray zonedEndpoint.host := by decide
  have hblank : ∀ c, zonedEndpoint.pathPrefix.toList.getLast? = some c →
      Text.isBlank c = false := by
    rintro c ⟨⟩
    decide
  refine ⟨hread, hstray, ?_⟩
  rw [← hurl]
  exact (parse_url_iff hread).2.mpr ⟨hstray, hblank⟩

/-- A blank before the last slash is lost with the second reading, and a bracket inside of a host
without a colon is taken for one around it. -/
theorem parse_url_unnamed :
    (parse "http://es-a:9200/a /" = .ok ⟨"http", "es-a", 9200, "/a "⟩ ∧
      parse (url ⟨"http", "es-a", 9200, "/a "⟩) = .ok ⟨"http", "es-a", 9200, "/a"⟩) ∧
    parse "http://[v1.a[b]:9200" = .ok ⟨"http", "v1.a[b", 9200, ""⟩ ∧
      parse (url ⟨"http", "v1.a[b", 9200, ""⟩) = .error .malformedUrl :=
  ⟨⟨rfl, rfl⟩, rfl, rfl⟩

end Writing

end Endpoint

end Net

end SpanStore
