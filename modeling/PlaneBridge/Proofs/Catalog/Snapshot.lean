import PlaneBridge.Catalog.Snapshot
import PlaneBridge.Proofs.Shape.Order
import PlaneBridge.Proofs.Tenant

/-!
# The message of a snapshot

A translation is reading, which may fail, and then all the rest, which may not,
`Snapshot.translateIn_eq`.  A snapshot that lists records becomes an object whose one member lists
their entries, `wireList`.  For each kind there is one statement of the message and of how far the
resolver has been asked for it, once the text has been read.  Everything that is said of messages
elsewhere rests on these.
-/

namespace PlaneBridge.Catalog

open Tenant

def wireList {β : Type} (shape : Shape β) (entries : List β) : Json.Value :=
  .obj [("list", .arr (entries.map fun e => (shape.toJson e).sorted))]

theorem sorted_toJson_listing {β : Type} (shape : Shape β) (l : Listing β) :
    ((Listing.shape shape).toJson l).sorted = wireList shape l.list := by
  show Json.Value.obj [("list", .arr (Json.sortedItems (l.list.map shape.toJson)))] = _
  rw [Json.sortedItems_eq_map, List.map_map]
  rfl

theorem Snapshot.write_listing {β : Type} (shape : Shape β) (m : StateM Backfill (Listing β))
    (b : Backfill) :
    write (Listing.shape shape) m b = (wireList shape (m b).1.list, (m b).2) := by
  show (((Listing.shape shape).toJson (m b).1).sorted, (m b).2) = _
  rw [sorted_toJson_listing]

section

variable {α β : Type} (resolver : Resolver) (domain : α → String) (entry : α → String → β)

/-- The entries of records in a generation that begins after so many questions. -/
def filledEntries (asked : Nat) (xs : List α) : List β :=
  xs.map fun a => entry a (resolver.domainFor asked (domain a))

theorem fillListing_eq (xs : List α) (b : Backfill) :
    (do return ⟨← Backfill.fillAll resolver domain entry xs⟩ : StateM Backfill (Listing β)) b =
      (⟨filledEntries resolver domain entry b.asked xs⟩,
        b.renew.after resolver (xs.map domain)) := by
  rw [Backfill.bind_eq, Backfill.fillAll_eq]
  rfl

/-- The message of records and how far the resolver has been asked for it. -/
def filledMessage (shape : Shape β) (xs : List α) : Json.Value × Backfill :=
  (wireList shape (filledEntries resolver domain entry 0 xs),
    Backfill.start.after resolver (xs.map domain))

theorem Snapshot.write_fillListing (shape : Shape β) (xs : List α) :
    write (Listing.shape shape)
        (do return ⟨← Backfill.fillAll resolver domain entry xs⟩ : StateM Backfill (Listing β))
        .start =
      filledMessage resolver domain entry shape xs := by
  rw [Snapshot.write_listing, fillListing_eq]
  rfl

end

namespace Snapshot

/-! ## Reading and the rest -/

section

variable {arrangement : Arrangement} {kind : Kind} {text : String} {resolver : Resolver}

theorem perform_of_error {e : Error} (h : kind.decode text = .error e) (before : Backfill) :
    (perform arrangement kind text resolver).run before = (.error e, before) := by
  rw [perform, h]
  rfl

theorem perform_of_ok {content : kind.content.1} (h : kind.decode text = .ok content)
    (before : Backfill) : (perform arrangement kind text resolver).run before =
      (.ok (kind.marshal arrangement resolver content before).1,
        (kind.marshal arrangement resolver content before).2) := by
  rw [perform, h]
  rfl

theorem translateIn_of_decode {content : kind.content.1} (h : kind.decode text = .ok content) :
    translateIn arrangement kind text resolver =
      .ok (kind.marshal arrangement resolver content .start) := by
  rw [translateIn, perform_of_ok h]
  rfl

theorem translateIn_eq : translateIn arrangement kind text resolver =
    (fun content => kind.marshal arrangement resolver content .start) <$> kind.decode text := by
  cases h : kind.decode text with
  | error e =>
    rw [translateIn, perform_of_error h]
    rfl
  | ok content => exact translateIn_of_decode h

theorem translateIn_eq_error {e : Error} :
    translateIn arrangement kind text resolver = .error e ↔ kind.decode text = .error e := by
  rw [translateIn_eq]
  exact Json.map_eq_error

end

/-! ## The kinds -/

/-- The elements that a snapshot of a kind lists. -/
def readListing {α : Type} (kind : Kind) (item : Shape α) (text : String) :
    Except Error (List α) :=
  Listing.list <$> read kind (Listing.shape item) text

theorem readListing_eq_ok {α : Type} {kind : Kind} {item : Shape α} {text : String} {xs : List α} :
    readListing kind item text = .ok xs ↔ read kind (Listing.shape item) text = .ok ⟨xs⟩ := by
  rw [readListing]
  cases read kind (Listing.shape item) text with
  | error e => exact ⟨fun h => (nomatch h), fun h => (nomatch h)⟩
  | ok l => exact ⟨fun h => congrArg (Except.ok ∘ Listing.mk) (Except.ok.inj h),
      fun h => congrArg (Except.ok ∘ Listing.list) (Except.ok.inj h)⟩

theorem eq_ok_of_toOption {ε α : Type} {m : Except ε α} {a : α} (h : m.toOption = some a) :
    m = .ok a := by
  cases m with
  | error e => cases h
  | ok b => rw [Option.some.inj h]

section

variable (arrangement : Arrangement) (resolver : Resolver) {text : String}

theorem translateIn_subscriptions {xs : List Subscription}
    (h : readListing .subscriptions Subscription.shape text = .ok xs) :
    translateIn arrangement .subscriptions text resolver =
      .ok (filledMessage resolver Subscription.tenantDomain Subscription.entry
        SubscriptionEntry.shape
        ((Keyed.ofList Subscription.subscriptionId xs).arranged arrangement).values) := by
  rw [@translateIn_of_decode arrangement .subscriptions text resolver ⟨xs⟩ (readListing_eq_ok.mp h)]
  exact congrArg Except.ok (write_fillListing ..)

theorem translateIn_applications {xs : List Application}
    (h : readListing .applications Application.shape text = .ok xs) :
    translateIn arrangement .applications text resolver =
      .ok (filledMessage resolver Application.tenantDomain Application.entry ApplicationEntry.shape
        ((Keyed.ofList Application.uuid xs).arranged arrangement).values) := by
  rw [@translateIn_of_decode arrangement .applications text resolver ⟨xs⟩ (readListing_eq_ok.mp h)]
  exact congrArg Except.ok (write_fillListing ..)

theorem translateIn_subscriptionPolicies {xs : List SubscriptionPolicy}
    (h : readListing .subscriptionPolicies SubscriptionPolicy.shape text = .ok xs) :
    translateIn arrangement .subscriptionPolicies text resolver =
      .ok (filledMessage resolver SubscriptionPolicy.tenantDomain SubscriptionPolicy.entry
        SubscriptionPolicyEntry.shape
        ((Keyed.ofList SubscriptionPolicy.id xs).arranged arrangement).values) := by
  rw [@translateIn_of_decode arrangement .subscriptionPolicies text resolver ⟨xs⟩ (readListing_eq_ok.mp h)]
  exact congrArg Except.ok (write_fillListing ..)

theorem translateIn_keyMappings {xs : List KeyMapping}
    (h : readListing .keyMappings KeyMapping.shape text = .ok xs) :
    translateIn arrangement .keyMappings text resolver =
      .ok (filledMessage resolver KeyMapping.tenantDomain KeyMapping.entry KeyMappingEntry.shape
        ((Keyed.ofList KeyMapping.consumerKey xs).arranged arrangement).values) := by
  rw [@translateIn_of_decode arrangement .keyMappings text resolver ⟨xs⟩ (readListing_eq_ok.mp h)]
  exact congrArg Except.ok (write_fillListing ..)

theorem translateIn_applicationPolicies {xs : List ApplicationPolicy}
    (h : readListing .applicationPolicies ApplicationPolicy.shape text = .ok xs) :
    translateIn arrangement .applicationPolicies text resolver =
      .ok (wireList ApplicationPolicyEntry.shape
        (((Keyed.ofList ApplicationPolicy.id xs).arranged arrangement).values.map
          ApplicationPolicy.entry), .start) := by
  rw [@translateIn_of_decode arrangement .applicationPolicies text resolver ⟨xs⟩ (readListing_eq_ok.mp h)]
  exact congrArg Except.ok (write_listing ..)

theorem translateIn_apis {xs : List Api} (h : readListing .apis Api.shape text = .ok xs) :
    translateIn arrangement .apis text resolver =
      .ok (wireList ApiEntry.shape (xs.map Api.entry), .start) := by
  rw [@translateIn_of_decode arrangement .apis text resolver ⟨xs⟩ (readListing_eq_ok.mp h)]
  exact congrArg Except.ok (write_listing ..)

end

end Snapshot

end PlaneBridge.Catalog
