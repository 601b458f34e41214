import SpanStore.Http.Link
import SpanStore.Proofs.Net.Malformed
import SpanStore.Store.Config

namespace SpanStore

theorem Http.Link.connect_refused {t : Target} {f : Fault}
    (h : Net.Endpoint.parseAll t.urls = .error f) (handle : Once Client) (s : Surroundings) :
    connect t handle s = (.error f, s) := by
  rw [connect, Net.Pool.connect_refused h]

namespace Store

open Net (Cluster Endpoint Pool)

namespace Config

structure OtherwiseSound (c : Config) : Prop where
  index : c.index.isEmpty = false
  shards : c.shards.below 1 = false
  replicas : c.replicas.below 0 = false
  maxRequests : c.maxRequests.below 1 = false
  requestTimeout : c.requestTimeout.atMostZero = false

section Sound

variable {c : Config} (h : c.OtherwiseSound)

include h

theorem check_of_otherwiseSound :
    c.check = ((Endpoint.parseAll c.hosts).mapError reword).map fun _ => c := by
  have hconnection : c.connection.check = .ok c.connection := by
    simp [Net.ConnectionConfig.check, connection, h.maxRequests, h.requestTimeout]
  rw [check, hconnection]
  cases Endpoint.parseAll c.hosts with
  | error f => rfl
  | ok endpoints => simp [h.index, h.shards, h.replicas, Except.map, Except.mapError]

theorem check_accepts_iff :
    c.check = .ok c ↔ ∃ endpoints, Endpoint.parseAll c.hosts = .ok endpoints := by
  rw [check_of_otherwiseSound h]
  cases Endpoint.parseAll c.hosts with
  | error f => exact ⟨nofun, nofun⟩
  | ok endpoints => exact ⟨fun _ => ⟨endpoints, rfl⟩, fun _ => rfl⟩

theorem check_fails :
    FailsUnless (Endpoint.MalformedFirst c.hosts) .storeConfig .malformedUrl c.check := by
  have hfails := Endpoint.parseAll_fails c.hosts
  rw [check_of_otherwiseSound h]
  refine ⟨fun hregular f hf => ?_, fun hmalformed => ?_⟩
  · cases hparse : Endpoint.parseAll c.hosts with
    | ok endpoints =>
        rw [hparse] at hf
        cases hf
    | error g =>
        rw [hparse] at hf
        obtain rfl : reword g = f := Except.error.inj hf
        rw [reword, if_pos (hfails.regular hregular g hparse)]
        rfl
  · rw [hfails.irregular hmalformed]
    rfl

end Sound

end Config

/-- A list of hosts fails as a fault of the configuration wherever it is used, unless the first URL
of it that names no endpoint is malformed, which takes a bracket or a character that looks like a
delimiter. -/
theorem hosts_fail (urls : List String) :
    FailsUnless (Endpoint.MalformedFirst urls) .connection .malformedUrl (Endpoint.parseAll urls) ∧
    FailsUnless (Endpoint.MalformedFirst urls) .connection .malformedUrl (Cluster.ofUrls urls) ∧
    (∀ c : Config, c.hosts = urls → c.OtherwiseSound →
      FailsUnless (Endpoint.MalformedFirst urls) .storeConfig .malformedUrl c.check ∧
      (c.check = .ok c ↔ ∃ endpoints, Endpoint.parseAll urls = .ok endpoints)) ∧
    (∀ f, Endpoint.parseAll urls = .error f → Cluster.ofUrls urls = .error f ∧
      (∀ config lookup d, Pool.connect urls config lookup d = (.error f, d)) ∧
      ∀ config lookup handle s,
        Http.Link.connect ⟨urls, config, lookup⟩ handle s = (.error f, s)) ∧
    (Endpoint.MalformedFirst urls →
      ∃ url ∈ urls, ∃ c ∈ url.toList, c = '[' ∨ c = ']' ∨ c.toNat ∈ Net.Url.lookalikes) := by
  refine ⟨Endpoint.parseAll_fails urls, Cluster.ofUrls_fails urls, ?_, ?_, ?_⟩
  · rintro c rfl h
    exact ⟨Config.check_fails h, Config.check_accepts_iff h⟩
  · exact fun f hf => ⟨Cluster.ofUrls_error_iff.mpr hf, Pool.connect_refused hf,
      fun _ _ => Http.Link.connect_refused hf⟩
  · rintro ⟨before, url, after, rfl, -, hmalformed⟩
    exact ⟨url, by simp, hmalformed.exists_mem⟩

def unclosed : List String := ["http://es-a:9200", "http://[::1"]

theorem unclosed_irregular :
    (∃ f, Endpoint.parseAll unclosed = .error f ∧ f.kind ≠ .connection) ∧
    (∃ f, Cluster.ofUrls unclosed = .error f ∧ f.kind ≠ .connection) ∧
    ∃ c : Config, c.hosts = unclosed ∧ c.OtherwiseSound ∧
      ∃ f, c.check = .error f ∧ f.kind ≠ .storeConfig := by
  have hparse : Endpoint.parseAll unclosed = .error .malformedUrl := rfl
  have hsound : Config.OtherwiseSound { hosts := unclosed } := ⟨rfl, rfl, rfl, rfl, rfl⟩
  refine ⟨⟨_, hparse, by decide⟩, ⟨_, Cluster.ofUrls_error_iff.mpr hparse, by decide⟩,
    ⟨_, rfl, hsound, .malformedUrl, ?_, by decide⟩⟩
  exact (Config.check_fails hsound).irregular
    (Endpoint.mapM_malformed_iff.mp rfl)

end Store

end SpanStore
