import PlaneBridge.Proofs.Config.Load
import PlaneBridge.Proofs.Delivery.Session

/-!
# Addresses of requests

A configuration is refused when its control plane is enabled and has no address.  A revision that
has been taken away, however, is told to a control plane that is disabled as well, and this one need
not have an address: `removed_without_address`.  Apart from that every request of a session goes to
an address that is there, `requests_haveAddress`, whichever way the configuration has come.
-/

namespace PlaneBridge

open Config (AdapterConfig Environment)

namespace Config.AdapterConfig

/-- The configurations that the adapter may run with: those that pass the check, and what comes out
of each of the ways to a configuration. -/
inductive Obtained : AdapterConfig → Prop where
  | checked {c : AdapterConfig} (h : c.validated = .ok c) : Obtained c
  | document {text : String} {c : AdapterConfig} (h : ofYaml text = .ok c) : Obtained c
  | file {disk : Disk} {path : String} {e : Environment} {c : AdapterConfig}
      (h : (load disk path e).1 = .ok c) : Obtained c
  | fileOrDefault {disk : Disk} {path : String} {e : Environment} {c : AdapterConfig}
      (h : (loadOrDefault disk path e).1 = .ok c) : Obtained c

/-- Whatever way a configuration has come, it has been checked last. -/
theorem Obtained.fault?_eq_none {c : AdapterConfig} (h : Obtained c) : c.fault? = none := by
  cases h with
  | checked h => exact (validated_eq_ok.mp h).1
  | @document text _ h =>
    rcases parse_cases text with ⟨parsed, hparsed⟩ | hparse
    · rw [ofYaml, hparsed] at h
      obtain ⟨hfault, rfl⟩ := validated_eq_ok.mp h
      exact hfault
    · rw [ofYaml, hparse] at h
      cases h
  | file h => exact fault?_of_load h
  | @fileOrDefault disk path e _ h =>
    rw [loadOrDefault] at h
    split at h
    · exact fault?_of_load h
    · obtain ⟨hfault, rfl⟩ := validated_eq_ok.mp h
      exact hfault

/-- A control plane that is enabled has an address. -/
theorem serviceUrl_of_fault? {c : AdapterConfig} (h : c.fault? = none)
    (henabled : c.controlPlane.enabled = true) :
    Text.isBlank c.controlPlane.serviceUrl = false := by
  rw [fault?, henabled, Bool.true_and] at h
  split at h
  · cases h
  · rename_i hblank
    exact Bool.eq_false_iff.mpr hblank

end Config.AdapterConfig

namespace Delivery

/-- Revisions that have been deployed are told to an enabled control plane only. -/
theorem Notification.removed_or_enabled {c : Config.ControlPlane} {n : Notification}
    (h : n.skip? c = none) : c.enabled = true ∨ ∃ r, n = .removed r := by
  cases n with
  | removed r => exact .inr ⟨r, rfl⟩
  | deployed revisions =>
    rw [skip?] at h
    cases henabled : c.enabled with
    | true => exact .inl rfl
    | false =>
      rw [henabled] at h
      split at h <;> cases h

namespace Session

variable {σ : Type} {next : Source σ} {c : Config.ControlPlane}

/-- One notification adds nothing but its own request. -/
theorem mem_requests_send {session : Session σ} {n : Notification} {q : Request}
    (h : q ∈ (session.send next c n).requests) :
    q ∈ session.requests ∨ n.skip? c = none ∧ q = n.request c := by
  rcases List.mem_append.mp h with hq | hq
  · exact .inl hq
  · exact .inr ⟨Notification.requests_send_ne_nil.mp (List.ne_nil_of_mem hq),
      Notification.eq_request_of_mem_send hq⟩

theorem mem_requests_foldl {session : Session σ} {calls : List Notification} {q : Request}
    (h : q ∈ (calls.foldl (send next c) session).requests) :
    q ∈ session.requests ∨ ∃ n ∈ calls, n.skip? c = none ∧ q = n.request c := by
  induction calls generalizing session with
  | nil => exact .inl h
  | cons n calls ih =>
    rcases ih h with hq | ⟨m, hm, hq⟩
    · exact (mem_requests_send hq).imp_right fun hq => ⟨n, List.mem_cons_self, hq⟩
    · exact .inr ⟨m, List.mem_cons_of_mem _ hm, hq⟩

theorem mem_requests_run {s : σ} {calls : List Notification} {q : Request}
    (h : q ∈ (run next c s calls).requests) :
    ∃ n ∈ calls, n.skip? c = none ∧ q = n.request c :=
  (mem_requests_foldl h).resolve_left List.not_mem_nil

/-- Every request of a session goes to the address of the control plane, and there is one unless
the control plane is disabled and the request tells that a revision has been taken away. -/
theorem requests_haveAddress {config : AdapterConfig} (h : config.Obtained) (s : σ)
    (calls : List Notification) :
    ∀ q ∈ (run next config.controlPlane s calls).requests,
      ∃ n ∈ calls, q = n.request config.controlPlane ∧
        q.url = endpoint config.controlPlane.serviceUrl n.path ∧
        (Text.isBlank config.controlPlane.serviceUrl = false ∨
          config.controlPlane.enabled = false ∧ ∃ r, n = .removed r) := by
  intro q hq
  obtain ⟨n, hn, hskip, rfl⟩ := mem_requests_run hq
  refine ⟨n, hn, rfl, rfl, ?_⟩
  cases henabled : config.controlPlane.enabled with
  | true => exact .inl (AdapterConfig.serviceUrl_of_fault? h.fault?_eq_none henabled)
  | false =>
    rcases Notification.removed_or_enabled hskip with h | hremoved
    · exact absurd h (by rw [henabled]; decide)
    · exact .inr ⟨rfl, hremoved⟩

/-- A control plane that has an address and has been enabled. -/
def enabledConfig : AdapterConfig := AdapterConfig.addressed.override AdapterConfig.enabling

/-- One message of each kind. -/
def bothKinds : List Notification := [.deployed [⟨"a", 1, []⟩], .removed ⟨"a", "r", "e"⟩]

theorem requests_haveAddress_bothKinds :
    enabledConfig.Obtained ∧
      (run Script.next enabledConfig.controlPlane ⟨[], .status 200⟩ bothKinds).requests.length = 2 ∧
      ∀ q ∈ (run Script.next enabledConfig.controlPlane ⟨[], .status 200⟩ bothKinds).requests,
        ∃ n ∈ bothKinds, q.url = endpoint "u" n.path ∧ Text.isBlank "u" = false := by
  have hobtained : enabledConfig.Obtained :=
    .checked (AdapterConfig.validated_eq_ok.mpr ⟨by decide +kernel, rfl⟩)
  refine ⟨hobtained, by decide +kernel, fun q hq => ?_⟩
  obtain ⟨n, hn, -, hurl, haddress⟩ := requests_haveAddress hobtained _ bothKinds q hq
  refine ⟨n, hn, hurl, ?_⟩
  rcases haddress with haddress | ⟨hdisabled, -⟩
  · exact haddress
  · exact absurd hdisabled (by decide +kernel)

/-- An empty document passes the check and has no address, and still a revision that has been taken
away is told. -/
theorem removed_without_address :
    AdapterConfig.ofYaml "" = .ok {} ∧ ({} : AdapterConfig).validated = .ok {} ∧
      Text.isBlank ({} : AdapterConfig).controlPlane.serviceUrl = true ∧
      (run Script.next ({} : AdapterConfig).controlPlane ⟨[], .status 200⟩
        [.removed ⟨"a", "r", "e"⟩]).requests.map Request.url =
          ["/internal/data/v1/apis/un-deploy-revision"] := by
  have hchecked : ({} : AdapterConfig).validated = .ok {} :=
    AdapterConfig.validated_eq_ok.mpr ⟨by decide +kernel, rfl⟩
  refine ⟨?_, hchecked, rfl, by decide +kernel⟩
  rw [AdapterConfig.ofYaml, AdapterConfig.parse_of_isEmptyDocument ⟨.empty, rfl, rfl⟩]
  exact hchecked

end Session
end Delivery
end PlaneBridge
