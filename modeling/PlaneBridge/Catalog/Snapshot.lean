import PlaneBridge.Catalog.Api
import PlaneBridge.Catalog.Application
import PlaneBridge.Catalog.KeyManager
import PlaneBridge.Catalog.Keyed
import PlaneBridge.Catalog.Listing
import PlaneBridge.Catalog.Policy
import PlaneBridge.Catalog.Subscription
import PlaneBridge.Shape.Json

/-!
# Snapshots

A snapshot is a text in which the control plane lists all it knows of one kind.  `translate` turns
it into the message that the enforcer receives: `perform` reads the text to its end, which may fail,
and then makes the message, asking the resolver and telling of things as it goes.

Listed elements are collected under their keys, so that of elements with the same key the last one
counts; APIs have no key and are kept as they are listed.  The order in which a collection is gone
through is a parameter of `translateIn`, since nothing may hang on it.
-/

namespace PlaneBridge.Catalog

open Tenant

/-! ## Collections -/

section Collections

variable (resolver : Resolver)

def subscriptionEntries (c : Keyed Int32 Subscription) :
    StateM Backfill (Listing SubscriptionEntry) := do
  return ⟨← Backfill.fillAll resolver Subscription.tenantDomain Subscription.entry c.values⟩

def applicationEntries (c : Keyed String Application) :
    StateM Backfill (Listing ApplicationEntry) := do
  return ⟨← Backfill.fillAll resolver Application.tenantDomain Application.entry c.values⟩

def subscriptionPolicyEntries (c : Keyed Int32 SubscriptionPolicy) :
    StateM Backfill (Listing SubscriptionPolicyEntry) := do
  return ⟨← Backfill.fillAll resolver SubscriptionPolicy.tenantDomain SubscriptionPolicy.entry
    c.values⟩

def keyMappingEntries (c : Keyed String KeyMapping) :
    StateM Backfill (Listing KeyMappingEntry) := do
  return ⟨← Backfill.fillAll resolver KeyMapping.tenantDomain KeyMapping.entry c.values⟩

end Collections

/-- Policies for applications belong to no tenant domain. -/
def applicationPolicyEntries (c : Keyed Int32 ApplicationPolicy) :
    Listing ApplicationPolicyEntry :=
  ⟨c.values.map ApplicationPolicy.entry⟩

def apiEntries (l : Listing Api) : Listing ApiEntry := ⟨l.list.map Api.entry⟩

/-! ## Snapshots -/

namespace Snapshot

inductive Kind where
  | subscriptions
  | applications
  | apis
  | applicationPolicies
  | subscriptionPolicies
  | keyMappings
  | keyManager
  deriving DecidableEq, Repr

def Kind.name : Kind → String
  | .subscriptions => "subscriptions"
  | .applications => "applications"
  | .apis => "apis"
  | .applicationPolicies => "application-policies"
  | .subscriptionPolicies => "subscription-policies"
  | .keyMappings => "key-mappings"
  | .keyManager => "key-manager"

def Kind.all : List Kind :=
  [.subscriptions, .applications, .apis, .applicationPolicies, .subscriptionPolicies, .keyMappings,
    .keyManager]

theorem Kind.mem_all (k : Kind) : k ∈ all := by cases k <;> decide

/-- The kind that goes by a name. -/
def Kind.ofName? (name : String) : Option Kind := all.find? (·.name = name)

/-- Why a text is no snapshot of a kind. -/
structure Error where
  kind : Kind
  cause : Json.Error
  deriving DecidableEq, Repr

def Error.message (e : Error) : String :=
  match e.kind with
  | .apis => "Snapshot is not an API list"
  | .keyManager => "Snapshot is not a key manager"
  | _ => "Snapshot is not a control plane list"

/-- The value of a shape that a snapshot of a kind holds. -/
def read {α : Type} (kind : Kind) (shape : Shape α) (text : String) : Except Error α :=
  (shape.ofText false text).mapError fun cause => ⟨kind, cause⟩

/-- What snapshots of a kind list. -/
def Kind.element? : Kind → Option (Σ α : Type, Shape α)
  | .subscriptions => some ⟨_, Subscription.shape⟩
  | .applications => some ⟨_, Application.shape⟩
  | .apis => some ⟨_, Api.shape⟩
  | .applicationPolicies => some ⟨_, ApplicationPolicy.shape⟩
  | .subscriptionPolicies => some ⟨_, SubscriptionPolicy.shape⟩
  | .keyMappings => some ⟨_, KeyMapping.shape⟩
  | .keyManager => none

/-- What a snapshot of a kind holds. -/
def Kind.content (kind : Kind) : Σ α : Type, Shape α :=
  match kind.element? with
  | some item => ⟨Listing item.1, Listing.shape item.2⟩
  | none => ⟨KeyManager.FreeForm, KeyManager.shape⟩

def Kind.decode (kind : Kind) (text : String) : Except Error kind.content.1 :=
  read kind kind.content.2 text

/-- The value of a message that is made while the resolver is asked.  Members of its objects are in
the order of their names. -/
def write {α : Type} (shape : Shape α) (m : StateM Backfill α) : StateM Backfill Json.Value :=
  (fun a => (shape.toJson a).sorted) <$> m

/-- The record of a key manager, or nothing with a report of that. -/
def keyManagerValue (resolver : Resolver) (k : KeyManager.FreeForm) :
    StateM Backfill Json.Value := do
  match ← k.settings.record resolver with
  | some r => return (KeyManagerRecord.shape.toJson r).sorted
  | none =>
    modify fun b => { b with notices := b.notices ++ [.keyManagerDropped k.name] }
    return .null

/-- The message of a content, its collections gone through in the order of an arrangement. -/
def Kind.marshal (arrangement : Arrangement) (resolver : Resolver) :
    (kind : Kind) → kind.content.1 → StateM Backfill Json.Value
  | .subscriptions, (l : Listing Subscription) =>
    write (Listing.shape SubscriptionEntry.shape) (subscriptionEntries resolver
      ((Keyed.ofList Subscription.subscriptionId l.list).arranged arrangement))
  | .applications, (l : Listing Application) =>
    write (Listing.shape ApplicationEntry.shape) (applicationEntries resolver
      ((Keyed.ofList Application.uuid l.list).arranged arrangement))
  | .apis, (l : Listing Api) => write (Listing.shape ApiEntry.shape) (pure (apiEntries l))
  | .applicationPolicies, (l : Listing ApplicationPolicy) =>
    write (Listing.shape ApplicationPolicyEntry.shape) (pure (applicationPolicyEntries
      ((Keyed.ofList ApplicationPolicy.id l.list).arranged arrangement)))
  | .subscriptionPolicies, (l : Listing SubscriptionPolicy) =>
    write (Listing.shape SubscriptionPolicyEntry.shape) (subscriptionPolicyEntries resolver
      ((Keyed.ofList SubscriptionPolicy.id l.list).arranged arrangement))
  | .keyMappings, (l : Listing KeyMapping) =>
    write (Listing.shape KeyMappingEntry.shape) (keyMappingEntries resolver
      ((Keyed.ofList KeyMapping.consumerKey l.list).arranged arrangement))
  | .keyManager, (k : KeyManager.FreeForm) => keyManagerValue resolver k

/-- A translation as a program.  What has been asked and told stays so when it fails. -/
def perform (arrangement : Arrangement) (kind : Kind) (text : String) (resolver : Resolver) :
    ExceptT Error (StateM Backfill) Json.Value := do
  let content ← kind.decode text
  kind.marshal arrangement resolver content

/-- A message and how far the resolver has been asked for it. -/
abbrev Translation := Except Error (Json.Value × Backfill)

/-- What a program has come to, as a translation. -/
def settle : Except Error Json.Value × Backfill → Translation
  | (.ok v, b) => .ok (v, b)
  | (.error e, _) => .error e

/-- The message for the enforcer that a snapshot of a kind stands for. -/
def translateIn (arrangement : Arrangement) (kind : Kind) (text : String) (resolver : Resolver) :
    Translation :=
  settle ((perform arrangement kind text resolver).run .start)

/-- The same, with collections gone through in the order in which their keys have come. -/
def translate : Kind → String → Resolver → Translation := translateIn .asPut

end Snapshot
end PlaneBridge.Catalog
