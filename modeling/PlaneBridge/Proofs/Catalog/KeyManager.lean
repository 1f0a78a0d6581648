import PlaneBridge.Proofs.Catalog.Snapshot

/-!
# The record of a key manager

Whether a key manager has a record is decided by its settings alone.  One that has none leaves the
generation as it is, but for a report; one that has a record is a generation of its own.  The
settings of a snapshot are values already, so the key manager of a snapshot always has a record.
-/

namespace PlaneBridge.Catalog

open Tenant

namespace KeyManager

/-- The record of a key manager in a tenant domain, with its settings as text. -/
def recordIn {σ : Type} (configuration : String) (k : KeyManager σ) (domain : String) :
    KeyManagerRecord :=
  ⟨k.name, k.kind, k.enabled, domain, configuration⟩

variable (resolver : Resolver)

theorem record_of_ok {k : KeyManager Setting} {v : Json.Value} (h : k.configuration.value = .ok v)
    (b : Backfill) :
    k.record resolver b =
      (some (k.recordIn v.toText (resolver.domainFor b.asked k.tenantDomain)),
        b.renew.after resolver [k.tenantDomain]) := by
  rw [record, h]
  show (some (k.recordIn v.toText (Backfill.fill resolver k.tenantDomain b.renew).1),
    (Backfill.fill resolver k.tenantDomain b.renew).2) = _
  rw [Backfill.fill_eq]
  rfl

theorem record_of_error {k : KeyManager Setting} {e : Setting.Error}
    (h : k.configuration.value = .error e) (b : Backfill) :
    k.record resolver b =
      (none, { b with notices := b.notices ++ [.configurationUnencoded k.name e.message] }) := by
  rw [record, h]
  rfl

theorem record_eq_some {k : KeyManager Setting} {b b' : Backfill} {r : KeyManagerRecord}
    (h : k.record resolver b = (some r, b')) :
    r = k.recordIn r.configuration (resolver.domainFor b.asked k.tenantDomain) ∧
      b' = b.renew.after resolver [k.tenantDomain] := by
  cases hvalue : k.configuration.value with
  | error e =>
    rw [record_of_error resolver hvalue] at h
    cases congrArg Prod.fst h
  | ok v =>
    rw [record_of_ok resolver hvalue] at h
    obtain ⟨hrecord, hafter⟩ := Prod.mk.inj h
    obtain rfl := Option.some.inj hrecord
    exact ⟨rfl, hafter.symm⟩

end KeyManager

theorem Snapshot.translateIn_keyManager (arrangement : Arrangement) (resolver : Resolver)
    {text : String} {k : KeyManager.FreeForm}
    (h : read .keyManager KeyManager.shape text = .ok k) :
    ∃ r b, k.settings.record resolver .start = (some r, b) ∧
      translateIn arrangement .keyManager text resolver =
        .ok ((KeyManagerRecord.shape.toJson r).sorted, b) := by
  have hrecord := KeyManager.record_of_ok resolver (k := k.settings) rfl .start
  refine ⟨_, _, hrecord, ?_⟩
  rw [@translateIn_of_decode arrangement .keyManager text resolver k h]
  show Except.ok (keyManagerValue resolver k .start) = _
  rw [keyManagerValue, Backfill.bind_eq, hrecord]
  rfl

end PlaneBridge.Catalog
