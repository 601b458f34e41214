import Mathlib.Algebra.Group.Int.Defs
import SpanStore.Proofs.Json.Place
import SpanStore.Proofs.Json.Reading
import SpanStore.Proofs.Response.Documents
import SpanStore.Response.Buckets

/-!
The readers of responses against the value that the response is a text of. A reader takes one byte
at a time and selects in what is complete so far; what it gives is what the whole value has at its
place, unless the value holds a number that is too large for a reader.
-/
namespace SpanStore

open Json Json.Grammar Text.Utf8

namespace Json.Reader

def ofChunks (chunks : List (List UInt8)) : Reader :=
  (chunks.foldl (fun r chunk => chunk.foldl feed r) start).feed 0x20

theorem foldl_feed_flatten (chunks : List (List UInt8)) (r : Reader) :
    chunks.foldl (fun r chunk => chunk.foldl feed r) r = chunks.flatten.foldl feed r := by
  induction chunks generalizing r with
  | nil => rfl
  | cons chunk chunks ih => rw [List.foldl_cons, ih, List.flatten_cons, List.foldl_append]

theorem ofChunks_eq_ofBytes (chunks : List (List UInt8)) :
    ofChunks chunks = ofBytes chunks.flatten := by
  rw [ofChunks, foldl_feed_flatten]
  rfl

end Json.Reader

namespace Response

/-- A response whose bytes are a text of the value, and what its readers give. -/
structure Agrees (v : Value) (body : List UInt8) : Prop where
  path : ∀ names, read names body = .ok (v.found (joinPlace names) []).head?
  keys : ∀ name nested, bucketKeys name nested body = .ok (v.found (keyPlace name nested) [])
  hits : ∀ {α : Type} (decoder : HitDecoder α),
    decoder.decode body = decoder.ofSources (v.found sourcePlace [])
  hitsFault : ∀ {α : Type} (decoder : HitDecoder α) (f : Fault),
    decoder.decode body = .error f → f.kind = .hits
  chunks : ∀ chunks, chunks.flatten = body → Reader.ofChunks chunks = Reader.ofBytes body

theorem isBlank_tree {s : Tree} {t : List Char} (h : s.Padded t) : isBlank (encode t) = false := by
  cases hblank : isBlank (encode t) with
  | false => rfl
  | true =>
      have hread := Reader.ofBytes_of_blank hblank
      cases hv : s.value? with
      | some v =>
          rw [Reader.ofBytes_tree h hv] at hread
          have hroot : some v = none := congrArg (fun r => r.progress.root) hread
          cases hroot
      | none =>
          have hstopped := Reader.ofBytes_stopped h hv
          rw [hread] at hstopped
          exact absurd rfl hstopped.flaw

theorem bucketKeys_returns_iff {body : List UInt8} (h : isBlank body = false) (name : String)
    (nested : Bool) :
    (∃ keys, bucketKeys name nested body = .ok keys) ↔ (Reader.ofBytes body).flaw? = none := by
  cases hflaw : (Reader.ofBytes body).flaw? with
  | none => simp [bucketKeys, h, hflaw]
  | some f => simp [bucketKeys, h, hflaw]

section Text

variable {v : Value} {t : List Char}

theorem isBlank_text (h : PaddedText v t) : isBlank (encode t) = false := by
  obtain ⟨s, hs, -⟩ := Tree.exists_of_padded h
  exact isBlank_tree hs

theorem flaw?_text_iff (h : PaddedText v t) :
    (Reader.ofBytes (encode t)).flaw? = none ↔ v.AllInts FitsReader := by
  obtain ⟨s, hs, hvalue⟩ := Tree.exists_of_padded h
  rw [Reader.flaw?_tree hs, ← s.isSome_value?_iff, Option.isSome_iff_exists]
  constructor
  · rintro ⟨w, hw⟩
    exact ((hvalue w).mp hw).1
  · intro hv
    exact ⟨v, (hvalue v).mpr ⟨hv, rfl⟩⟩

theorem bucketKeys_text_returns_iff (h : PaddedText v t) (name : String) (nested : Bool) :
    (∃ keys, bucketKeys name nested (encode t) = .ok keys) ↔ v.AllInts FitsReader := by
  rw [bucketKeys_returns_iff (isBlank_text h), flaw?_text_iff h]

theorem allInts_of_decode (h : PaddedText v t) {α : Type} {decoder : HitDecoder α}
    {answer : Option (List α)} (hdecode : decoder.decode (encode t) = .ok answer) :
    v.AllInts FitsReader :=
  (flaw?_text_iff h).mp ((decoder.decode_returns_iff (isBlank_text h)).mp ⟨_, hdecode⟩).2

theorem select_text (h : PaddedText v t) (hv : v.AllInts FitsReader) (place : String) :
    (Reader.ofBytes (encode t)).select place = v.found place [] := by
  rw [Reader.ofBytes_text h hv]
  exact v.select_root place

theorem read_text (h : PaddedText v t) (hv : v.AllInts FitsReader) (names : List String) :
    read names (encode t) = .ok (v.found (joinPlace names) []).head? := by
  simp only [read, isBlank_text h, select_text h hv, (flaw?_text_iff h).mpr hv]
  cases v.found (joinPlace names) [] with
  | nil => rfl
  | cons w ws => rfl

theorem bucketKeys_text (h : PaddedText v t) (hv : v.AllInts FitsReader) (name : String)
    (nested : Bool) :
    bucketKeys name nested (encode t) = .ok (v.found (keyPlace name nested) []) := by
  simp [bucketKeys, isBlank_text h, select_text h hv, (flaw?_text_iff h).mpr hv]

theorem decode_text (h : PaddedText v t) (hv : v.AllInts FitsReader) {α : Type}
    (decoder : HitDecoder α) :
    decoder.decode (encode t) = decoder.ofSources (v.found sourcePlace []) := by
  have hdocuments : decoder.documents (encode t) =
      decoder.take none (v.found sourcePlace []) := by
    simp [HitDecoder.documents, isBlank_text h, select_text h hv, (flaw?_text_iff h).mpr hv]
  have hspec := decoder.take_spec (v.found sourcePlace [])
  rw [HitDecoder.decode, hdocuments, HitDecoder.ofSources]
  cases hmap : ((v.found sourcePlace []).filter present).mapM decoder.document with
  | error cause =>
      rw [hmap] at hspec
      simp [hspec]
  | ok documents =>
      rw [hmap] at hspec
      cases documents with
      | nil => cases decoder.emptyIsNone <;> simp [hspec]
      | cons a rest => simp [hspec]

end Text

theorem agrees_of_text {v : Value} {t : List Char} (h : PaddedText v t)
    (hv : v.AllInts FitsReader) : Agrees v (encode t) where
  path := read_text h hv
  keys := bucketKeys_text h hv
  hits := decode_text h hv
  hitsFault decoder f hf := by
    rw [decode_text h hv] at hf
    exact decoder.ofSources_kind hf
  chunks chunks hchunks := by
    rw [Reader.ofChunks_eq_ofBytes, hchunks]

/-- The readers give what the whole value has at their places, whichever of its texts they read,
exactly if they have room for its whole numbers. -/
theorem agrees_text_iff {v : Value} {t : List Char} (h : PaddedText v t) :
    Agrees v (encode t) ↔ v.AllInts FitsReader :=
  ⟨fun hagrees => (bucketKeys_text_returns_iff h "" false).mp ⟨_, hagrees.keys "" false⟩,
    agrees_of_text h⟩

def greeting : Value := .object [("version", .object [("number", .text "5.6.4")])]

def greetingText : List Char := " \x7b\"version\":\x7b\"number\":\"5.6.4\"\x7d\x7d\n".toList

theorem greeting_text : PaddedText greeting greetingText := by
  have hnumber : StringText "5.6.4" _ := .quoted (.plain rfl)
  have hversion : ValueText (.object [("number", .text "5.6.4")]) _ :=
    .object (.bare (.quoted (.plain rfl)) (.text hnumber))
  have hgreeting : ValueText greeting _ :=
    .object (.bare (.quoted (.plain rfl)) hversion)
  have hbefore : Blank [' '] := by simp [Blank]
  have hafter : Blank ['\n'] := by simp [Blank]
  exact .around hbefore hgreeting hafter

theorem agrees_text_greeting : PaddedText greeting greetingText ∧
    greeting.AllInts FitsReader ∧ Agrees greeting (encode greetingText) := by
  have hints : greeting.AllInts FitsReader := ⟨⟨trivial, trivial⟩, trivial⟩
  exact ⟨greeting_text, hints, (agrees_text_iff greeting_text).mpr hints⟩

def leastLong : Value := .object [("status", .int (-(2 ^ 63)))]

def leastLongText : List Char := "\x7b\"status\":-9223372036854775808\x7d".toList

theorem leastLong_not_agrees : PaddedText leastLong leastLongText ∧
    leastLong.AllInts (fun n => -(2 ^ 63) ≤ n ∧ n < 2 ^ 63) ∧
    ¬ Agrees leastLong (encode leastLongText) := by
  have hwhole : Whole "9223372036854775808".toList := ⟨⟨by decide, by simp⟩, by simp⟩
  have hnumber : IntText (-(2 ^ 63)) "-9223372036854775808".toList := .negative hwhole
  refine ⟨.bare (.object (.bare (.quoted (.plain rfl)) (.int hnumber))), ?_, ?_⟩
  · exact ⟨⟨by decide, by decide⟩, trivial⟩
  · intro h
    have hread : read ["status"] (encode leastLongText) = .error (.unreadablePath "status") := rfl
    rw [h.path] at hread
    cases hread

end Response

end SpanStore
