import PlaneBridge.Catalog.Snapshot
import PlaneBridge.Enforcer.Config
import PlaneBridge.Proofs.Shape.Json

/-!
# All messages

The messages of the library are the shapes listed here.  What holds of regular shapes holds of all
of them: each is read back from its own JSON text, and those that the enforcer receives bear no
field less.
-/

namespace PlaneBridge

open Json (Value Path)
open Enforcer Catalog

/-- What the enforcer receives, in whole and in parts. -/
def received : List (Σ α, Shape α) :=
  [ ⟨_, Listing.shape SubscriptionEntry.shape⟩, ⟨_, SubscriptionEntry.shape⟩,
    ⟨_, Listing.shape ApplicationEntry.shape⟩, ⟨_, ApplicationEntry.shape⟩,
    ⟨_, Listing.shape ApiEntry.shape⟩, ⟨_, ApiEntry.shape⟩,
    ⟨_, Listing.shape ApplicationPolicyEntry.shape⟩, ⟨_, ApplicationPolicyEntry.shape⟩,
    ⟨_, Listing.shape SubscriptionPolicyEntry.shape⟩, ⟨_, SubscriptionPolicyEntry.shape⟩,
    ⟨_, Listing.shape KeyMappingEntry.shape⟩, ⟨_, KeyMappingEntry.shape⟩,
    ⟨_, KeyManagerRecord.shape⟩,
    ⟨_, EnforcerConfig.shape⟩, ⟨_, Security.shape⟩, ⟨_, Issuer.shape⟩, ⟨_, ClaimMapping.shape⟩,
    ⟨_, AuthHeader.shape⟩, ⟨_, Service.shape⟩, ⟨_, ThreadPool.shape⟩, ⟨_, JwtGenerator.shape⟩,
    ⟨_, JwtIssuer.shape⟩, ⟨_, JwtUser.shape⟩, ⟨_, Cache.shape⟩, ⟨_, Tracing.shape⟩,
    ⟨_, Metrics.shape⟩, ⟨_, Analytics.shape⟩, ⟨_, Throttling.shape⟩, ⟨_, Publisher.shape⟩,
    ⟨_, UrlGroup.shape⟩, ⟨_, PublisherPool.shape⟩, ⟨_, ThrottleAgent.shape⟩,
    ⟨_, Management.shape⟩, ⟨_, RestServer.shape⟩, ⟨_, Filter.shape⟩ ]

/-- What the control plane lists. -/
def listed : List (Σ α, Shape α) :=
  [ ⟨_, Subscription.shape⟩, ⟨_, Application.shape⟩, ⟨_, KeyMapping.shape⟩, ⟨_, Api.shape⟩,
    ⟨_, Listing.shape Api.shape⟩, ⟨_, ApplicationPolicy.shape⟩, ⟨_, SubscriptionPolicy.shape⟩ ]

theorem regular_of_received {m : Σ α, Shape α} (h : m ∈ received) : m.2.regular = true := by
  have hall : received.all (·.2.regular) = true := by decide +kernel
  exact List.all_eq_true.mp hall m h

theorem regular_of_listed {m : Σ α, Shape α} (h : m ∈ listed) : m.2.regular = true := by
  have hall : listed.all (·.2.regular) = true := by decide +kernel
  exact List.all_eq_true.mp hall m h

/-- Messages are read back from their JSON texts.  Of those that the enforcer receives, every field
at any depth must be there. -/
theorem messages_readBack :
    (∀ m ∈ received, ∀ (a : m.1) (v : Value), m.2.Encodes a v →
      (∀ text, text = v.toText ∨ text = v.toPrettyText → m.2.ofText true text = .ok a) ∧
      ∀ p name, m.2.HasField v p name → ∀ text,
        text = (v.modify (Value.drop name) p).toText ∨
          text = (v.modify (Value.drop name) p).toPrettyText →
        m.2.ofText true text = .error (.missing name)) ∧
    ∀ m ∈ listed, ∀ (a : m.1) (v : Value), m.2.Encodes a v →
      ∀ text, text = v.toText ∨ text = v.toPrettyText → m.2.ofText false text = .ok a := by
  constructor
  · intro m hm a v h
    have hregular := regular_of_received hm
    constructor
    · intro text htext
      exact Shape.ofText_printed hregular h true htext
    · intro p name hfield text htext
      exact Shape.ofText_drop hregular h hfield htext
  · intro m hm a v h text htext
    exact Shape.ofText_printed (regular_of_listed hm) h false htext

/-- Analytics with the port that is lowest of all and two properties, one of them not printable. -/
def lowestPort : Analytics where
  configProperties := ⟨[("a", "\"\\\n"), ("b", "")], by decide +kernel⟩
  service := { port := -2147483648 }

/-- The same as a value, with the properties the other way round. -/
def lowestPortValue : Value :=
  .obj [("enabled", .bool false), ("configProperties", .obj [("b", .str ""), ("a", .str "\"\\\n")]),
    ("service", Service.shape.toJson { port := -2147483648 })]

theorem messages_readBack_lowestPort :
    Analytics.shape.ofText true lowestPortValue.toText = .ok lowestPort ∧
      Analytics.shape.ofText true (lowestPortValue.modify (Value.drop "queueSize")
        [.member "service", .member "threadPool"]).toPrettyText = .error (.missing "queueSize") ∧
      Subscription.shape.ofText false (Subscription.shape.toJson { timeStamp := -1 }).toPrettyText =
        .ok { timeStamp := -1 } := by
  have hwritten : Analytics.shape.Encodes lowestPort lowestPortValue :=
    ⟨_, ⟨_, _, rfl, ⟨_, _, ⟨[("b", ""), ("a", "\"\\\n")], .swap _ _ _, rfl⟩,
      ⟨_, _, Shape.encodes_toJson _ _, rfl, rfl⟩, rfl⟩, rfl⟩, rfl⟩
  have hreceived : (⟨_, Analytics.shape⟩ : Σ α, Shape α) ∈ received := by simp [received]
  have hlisted : (⟨_, Subscription.shape⟩ : Σ α, Shape α) ∈ listed := .head _
  have hfield : Analytics.shape.HasField lowestPortValue [.member "service", .member "threadPool"]
      "queueSize" := by
    refine ⟨by decide +kernel, ⟨_, ThreadPool.shape⟩, rfl, by decide +kernel⟩
  obtain ⟨hall, hwithout⟩ := messages_readBack.1 _ hreceived _ _ hwritten
  exact ⟨hall _ (.inl rfl), hwithout _ _ hfield _ (.inr rfl),
    messages_readBack.2 _ hlisted _ _ (Shape.encodes_toJson _ _) _ (.inr rfl)⟩

end PlaneBridge
