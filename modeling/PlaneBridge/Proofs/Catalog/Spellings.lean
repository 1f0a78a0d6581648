import PlaneBridge.Proofs.Catalog.AllOrNothing
import PlaneBridge.Proofs.Shape.Respelled

/-!
# Snapshots in other spellings

What a snapshot says counts and not how it is spelled.  Each entity that the control plane describes
is decoded to the same record from all its spellings, and a snapshot that differs from another only
in the spelling of its entities, or in its own, is translated to the same message with the same
questions and notices: `spelling_irrelevant`.
-/

namespace PlaneBridge.Catalog

open Json (Value Node Writes)
open Snapshot

/-- The entities that the control plane describes. -/
def entities : List (Σ α, Shape α) :=
  [ ⟨_, Subscription.shape⟩, ⟨_, Application.shape⟩, ⟨_, KeyMapping.shape⟩, ⟨_, Api.shape⟩,
    ⟨_, ApplicationPolicy.shape⟩, ⟨_, SubscriptionPolicy.shape⟩, ⟨_, KeyManager.shape⟩ ]

theorem flexible_of_entities {m : Σ α, Shape α} (h : m ∈ entities) : m.2.flexible = true := by
  have hall : entities.all (·.2.flexible) = true := by decide +kernel
  exact List.all_eq_true.mp hall m h

theorem Snapshot.Kind.flexible_content (kind : Kind) : kind.content.2.flexible = true := by
  cases kind <;> decide +kernel

/-- A content that has been decoded is decoded from all its other spellings. -/
theorem Snapshot.Kind.decode_of_respelled {kind : Kind} {text : String} {content : kind.content.1}
    (h : kind.decode text = .ok content) :
    ∃ n, Writes n text ∧ ∀ n' text', kind.content.2.Respelled 0 n n' → Writes n' text' →
      kind.decode text' = .ok content := by
  have hcontent : kind.content.2.ofText false text = .ok content := by
    rw [Kind.decode, read] at h
    cases hread : kind.content.2.ofText false text with
    | error e =>
      rw [hread] at h
      cases h
    | ok content' =>
      rw [hread] at h
      rw [Except.ok.inj h]
  obtain ⟨n, hwrites, hother⟩ := Shape.ofText_of_respelled kind.flexible_content hcontent
  refine ⟨n, hwrites, fun n' text' hspelling hwrites' => ?_⟩
  rw [Kind.decode, read, hother n' text' hspelling hwrites']
  rfl

/-- Entities are decoded to the same records from all their spellings, and snapshots translated to
the same messages with the same questions and notices. -/
theorem spelling_irrelevant :
    (∀ m ∈ entities, ∀ (text : String) (a : m.1), m.2.ofText false text = .ok a →
      ∃ n, Writes n text ∧ ∀ n' text', m.2.Respelled 0 n n' → Writes n' text' →
        m.2.ofText false text' = .ok a) ∧
    ∀ (arrangement : Arrangement) (kind : Kind) (resolver : Tenant.Resolver) (text : String)
      (message : Value × Tenant.Backfill),
      translateIn arrangement kind text resolver = .ok message →
      ∃ n, Writes n text ∧ ∀ n' text', kind.content.2.Respelled 0 n n' → Writes n' text' →
        translateIn arrangement kind text' resolver = .ok message := by
  constructor
  · intro m hm text a h
    exact Shape.ofText_of_respelled (flexible_of_entities hm) h
  · intro arrangement kind resolver text message h
    cases hdecode : kind.decode text with
    | error e =>
      rw [translateIn_eq, hdecode] at h
      cases h
    | ok content =>
      obtain ⟨n, hwrites, hother⟩ := Kind.decode_of_respelled hdecode
      rw [translateIn_of_decode hdecode] at h
      refine ⟨n, hwrites, fun n' text' hspelling hwrites' => ?_⟩
      rw [translateIn_of_decode (hother n' text' hspelling hwrites'), h]

/-- A subscription with two fields that are not the default. -/
def goldSubscription : Subscription := { subscriptionId := 1, policyId := "gold" }

/-- The subscription with its members in no particular order, one of them the default. -/
def goldMembers : Value :=
  .obj [("policyId", .str "gold"), ("timeStamp", .num (.int ⟨0, by decide, by decide⟩)),
    ("subscriptionId", .num (.int ⟨1, by decide, by decide⟩))]

/-- The subscription with its values alone, but for the defaults at the end. -/
def goldValues : Value := .arr [.num (.int ⟨1, by decide, by decide⟩), .str "gold"]

theorem respelled_goldValues :
    Subscription.shape.Respelled 2 goldMembers.node goldValues.node := by
  have hread : Subscription.shape.ofJson (.text false) 2 goldMembers.node = .ok goldSubscription :=
    eq_ok_of_toOption (by decide +kernel)
  exact .values (k := 2) hread (Fields.encodes_toMembers _ _) rfl

/-- The listing of the subscription, and one with its values alone behind a member that nobody asks
for. -/
def goldListing : Value := .obj [("list", .arr [goldMembers])]

def goldShortListing : Value := .obj [("count", .null), ("list", .arr [goldValues])]

theorem respelled_goldShortListing :
    (Listing.shape Subscription.shape).Respelled 0 goldListing.node goldShortListing.node := by
  have hlist : (Listing.shape Subscription.shape).Respelled 0
      (.obj ([] ++ (some "list", .arr ([] ++ goldMembers.node :: []) .closed) :: []) .closed)
      (.obj ([] ++ (some "list", .arr ([] ++ goldValues.node :: []) .closed) :: []) .closed) :=
    .member rfl (.element respelled_goldValues)
  have hcount : (Listing.shape Subscription.shape).Respelled 0
      (.obj ([] ++ [(some "list", .arr [goldValues.node] .closed)]) .closed)
      (.obj ([] ++ (some "count", .null) :: [(some "list", .arr [goldValues.node] .closed)])
        .closed) :=
    .unknown (by decide +kernel) ⟨_, .null⟩
  exact hlist.trans hcount

/-- A key manager with settings, and the same with its values alone. -/
def customMembers : Value :=
  .obj [("configuration", .obj [("b", .null), ("a", .bool true)]), ("name", .str "k")]

def customValues : Value :=
  .arr [.str "k", .str "", .bool false, .str "", .obj [("a", .bool true), ("b", .null)]]

def customManager : KeyManager.FreeForm :=
  ⟨"k", "", false, "", [("a", .bool true), ("b", .null)]⟩

theorem spelling_irrelevant_gold :
    (∃ k, KeyManager.shape.ofText false customMembers.toText = .ok k ∧
      KeyManager.shape.ofText false customValues.toPrettyText = .ok k) ∧
    ∃ message, translateIn .asPut .subscriptions goldListing.toText (.always "") = .ok message ∧
      translateIn .asPut .subscriptions goldShortListing.toPrettyText (.always "") =
        .ok message := by
  have hfloats : ∀ v : Value, v.floats = [] → Json.FloatsReadBack v.floats := by
    intro v hv x hx
    rw [hv] at hx
    cases hx
  constructor
  · have hmem : (⟨_, KeyManager.shape⟩ : Σ α, Shape α) ∈ entities := by simp [entities]
    have hwrites := Value.writes_printed (hfloats customMembers rfl) (.inl rfl)
    have hread : KeyManager.shape.ofJson (.text false) 0 customMembers.node =
        .ok customManager := rfl
    have hdecode : KeyManager.shape.ofText false customMembers.toText = .ok customManager := by
      rw [Shape.ofText_of_writes _ _ hwrites, hread]
    obtain ⟨n, hn, hother⟩ := spelling_irrelevant.1 _ hmem _ _ hdecode
    cases hn.unique hwrites
    refine ⟨customManager, hdecode, hother customValues.node _ ?_
      (Value.writes_printed (hfloats customValues rfl) (.inr rfl))⟩
    exact .values (k := 5) hread (Fields.encodes_toMembers _ _) rfl
  · have hokay : (translateIn .asPut .subscriptions goldListing.toText
        (.always "")).toOption.isSome := by decide +kernel
    obtain ⟨message, h⟩ := Option.isSome_iff_exists.mp hokay
    replace h := eq_ok_of_toOption h
    obtain ⟨n, hn, hother⟩ := spelling_irrelevant.2 _ _ _ _ _ h
    cases hn.unique (Value.writes_printed (hfloats goldListing rfl) (.inl rfl))
    refine ⟨message, h, hother _ _ respelled_goldShortListing ?_⟩
    exact Value.writes_printed (hfloats goldShortListing rfl) (.inr rfl)

end PlaneBridge.Catalog
