import PlaneBridge.Catalog.Setting
import PlaneBridge.Json.Printer
import PlaneBridge.Shape.Basic
import PlaneBridge.Tenant

/-!
# Key managers

A key manager as the control plane describes it, and the record that the enforcer receives, which
carries the settings as JSON text.

A key manager whose settings cannot be encoded has no record.  That is reported and costs no other
key manager anything; the resolver is not asked on its behalf.
-/

namespace PlaneBridge.Catalog

structure KeyManager (σ : Type) where
  name : String
  kind : String
  enabled : Bool
  tenantDomain : String
  configuration : σ
  deriving Repr

namespace KeyManager

/-- A key manager whose settings are the members of a JSON object. -/
abbrev FreeForm := KeyManager (Entries Json.Value)

def shape : Shape FreeForm :=
  .record
    (.cons "name" .text <| .cons "type" .text <| .cons "enabled" .flag <|
      .cons "tenantDomain" .text <| .cons "configuration" .freeForm .nil)
    ⟨"", "", false, "", []⟩
    (fun k => (k.name, k.kind, k.enabled, k.tenantDomain, k.configuration, ()))
    (fun (name, kind, enabled, tenantDomain, configuration, ()) =>
      { name, kind, enabled, tenantDomain, configuration })
    (fun _ => rfl) (fun _ => rfl)

def settings (k : FreeForm) : KeyManager Setting :=
  { k with configuration := .plain (.obj k.configuration) }

end KeyManager

/-- A key manager as the enforcer receives it. -/
structure KeyManagerRecord where
  name : String := ""
  kind : String := ""
  enabled : Bool := false
  tenantDomain : String := ""
  /-- The settings as JSON text. -/
  configuration : String := ""
  deriving DecidableEq, Repr

def KeyManagerRecord.shape : Shape KeyManagerRecord :=
  .record
    (.cons "name" .text <| .cons "type" .text <| .cons "enabled" .flag <|
      .cons "tenantDomain" .text <| .cons "configuration" .text .nil)
    {}
    (fun k => (k.name, k.kind, k.enabled, k.tenantDomain, k.configuration, ()))
    (fun (name, kind, enabled, tenantDomain, configuration, ()) =>
      { name, kind, enabled, tenantDomain, configuration })
    (fun _ => rfl) (fun _ => rfl)

open Tenant in
/-- The record of a key manager, its domain filled in a generation of its own; none where the
settings cannot be encoded. -/
def KeyManager.record (resolver : Resolver) (k : KeyManager Setting) :
    StateM Backfill (Option KeyManagerRecord) := do
  match k.configuration.value with
  | .error e =>
    modify fun b => { b with notices := b.notices ++ [.configurationUnencoded k.name e.message] }
    return none
  | .ok v =>
    modify Backfill.renew
    return some
      { name := k.name
        kind := k.kind
        enabled := k.enabled
        tenantDomain := ← Backfill.fill resolver k.tenantDomain
        configuration := v.toText }

end PlaneBridge.Catalog
