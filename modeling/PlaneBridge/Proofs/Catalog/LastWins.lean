import PlaneBridge.Proofs.Catalog.Keyed
import PlaneBridge.Proofs.Catalog.Origin
import PlaneBridge.Proofs.Number.Decimal

/-!
# The last element of each key counts

Of a kind whose elements have keys, a snapshot becomes a list with one entry for each key that
occurs: the entry of the last element with the key.  It does not matter in which order the
collection in between is gone through.  `LastOfEach` says this of a list of entries, and it is
proved once, by `lastOfEach_of_perm`, for entries of the survivors in any order.  What an entry
says of its element is told from the entry alone, `LastTold`.
-/

namespace PlaneBridge.Catalog

open Tenant

/-- The entries of the last elements, one for each key that occurs, and nothing else.  An entry
goes by an identifier, into which the key is rendered. -/
structure LastOfEach {α β κ ι : Type} [DecidableEq κ] [DecidableEq ι] (key : α → κ)
    (render : κ → ι) (ident : β → ι) (entryOf : α → β) (xs : List α) (es : List β) : Prop where
  /-- Under the identifier of a key there is the entry of the last element with that key, once, and
  there is none if no element has the key. -/
  last : ∀ k, es.filter (ident · = render k) =
    ((xs.filter (key · = k)).getLast?.map entryOf).toList
  /-- Every identifier is that of a key that occurs. -/
  occurs : ∀ e ∈ es, ∃ a ∈ xs, ident e = render (key a)
  distinct : (es.map ident).Nodup

/-- Under the identifier of a key there is all that the last element with that key says, with what
has been filled in, once. -/
def LastTold {α β κ ι : Type} [DecidableEq κ] [DecidableEq ι] (key : α → κ) (render : κ → ι)
    (ident : β → ι) (origin? : β → Option α) (filled : α → α) (xs : List α) (es : List β) : Prop :=
  ∀ k, (es.filter (ident · = render k)).map origin? =
    ((xs.filter (key · = k)).getLast?.map fun a => some (filled a)).toList

section

variable {α β κ ι : Type} [DecidableEq κ] [DecidableEq ι]

/-- Lists of at most one element have one order only. -/
theorem eq_toList_of_perm {ys : List α} {o : Option α} (h : ys.Perm o.toList) : ys = o.toList := by
  cases o with
  | none => exact h.eq_nil
  | some a => exact List.perm_singleton.mp h

theorem filter_ident {key : α → κ} {render : κ → ι} (hrender : Function.Injective render)
    {ident : β → ι} {entryOf : α → β} (hident : ∀ a, ident (entryOf a) = render (key a))
    (ys : List α) (k : κ) :
    (ys.map entryOf).filter (ident · = render k) = (ys.filter (key · = k)).map entryOf := by
  rw [List.filter_map]
  refine congrArg (List.map entryOf) (List.filter_congr fun a _ => ?_)
  show decide (ident (entryOf a) = render k) = decide (key a = k)
  rw [hident, decide_eq_decide]
  exact hrender.eq_iff

theorem lastOfEach_of_perm {key : α → κ} {render : κ → ι} (hrender : Function.Injective render)
    {ident : β → ι} {entryOf : α → β} (hident : ∀ a, ident (entryOf a) = render (key a))
    {xs ys : List α} (hys : ys.Perm (survivors key xs)) :
    LastOfEach key render ident entryOf xs (ys.map entryOf) where
  last := by
    intro k
    have hlast : (ys.filter (key · = k)).Perm (xs.filter (key · = k)).getLast?.toList := by
      rw [← filter_survivors]
      exact hys.filter _
    rw [filter_ident hrender hident, eq_toList_of_perm hlast, Option.toList_map]
  occurs := by
    intro e he
    obtain ⟨a, ha, rfl⟩ := List.mem_map.mp he
    exact ⟨a, (survivors_sublist key xs).subset (hys.mem_iff.mp ha), hident a⟩
  distinct := by
    -- Survivors have distinct keys, and rendering keeps distinct keys apart.
    have hkeys : (ys.map key).Nodup := ((hys.map key).nodup_iff).mpr (survivors_nodup key xs)
    have hidents : (ys.map entryOf).map ident = (ys.map key).map render := by
      rw [List.map_map, List.map_map]
      exact List.map_congr_left fun a _ => hident a
    rw [hidents]
    exact List.Pairwise.map render (fun _ _ hne heq => hne (hrender heq)) hkeys

theorem LastOfEach.told {key : α → κ} {render : κ → ι} {ident : β → ι} {entryOf : α → β}
    {xs : List α} {es : List β} (h : LastOfEach key render ident entryOf xs es)
    {origin? : β → Option α} {filled : α → α}
    (horigin : ∀ a, origin? (entryOf a) = some (filled a)) :
    LastTold key render ident origin? filled xs es := by
  intro k
  rw [h.last k]
  cases (xs.filter (key · = k)).getLast? with
  | none => rfl
  | some a => exact congrArg (fun o => [o]) (horigin a)

/-- A collection, in whichever order it is gone through, becomes entries that say all of the last
elements. -/
theorem lastOfEach_values (arrangement : Arrangement) {key : α → κ} {render : κ → ι}
    (hrender : Function.Injective render) {ident : β → ι} {entryOf : α → β}
    (hident : ∀ a, ident (entryOf a) = render (key a)) {origin? : β → Option α} {filled : α → α}
    (horigin : ∀ a, origin? (entryOf a) = some (filled a)) (xs : List α) :
    LastOfEach key render ident entryOf xs
        (((Keyed.ofList key xs).arranged arrangement).values.map entryOf) ∧
      LastTold key render ident origin? filled xs
        (((Keyed.ofList key xs).arranged arrangement).values.map entryOf) := by
  have hlast : LastOfEach key render ident entryOf xs _ :=
    lastOfEach_of_perm hrender hident (Keyed.values_arranged_ofList arrangement key xs)
  exact ⟨hlast, hlast.told horigin⟩

end

namespace Snapshot

theorem renderNumber_injective : Function.Injective fun n : Int32 => decimal n.toInt := by
  intro m n h
  exact Int32.toInt_inj.mp (decimal_injective h)

/-- A snapshot of a kind with keys becomes the entries of the last elements, and APIs are taken as
they are listed.  An entry says all of its element, but for the domain that has been filled in. -/
theorem translateIn_lastOfEach (arrangement : Arrangement) (resolver : Resolver) (text : String) :
    (∀ n : Int32, IsDecimal (decimal n.toInt) n.toInt) ∧
    (∀ xs, readListing .subscriptions Subscription.shape text = .ok xs →
      ∃ es b, translateIn arrangement .subscriptions text resolver =
          .ok (wireList SubscriptionEntry.shape es, b) ∧
        LastOfEach Subscription.subscriptionId (fun n => decimal n.toInt)
          SubscriptionEntry.subscriptionId
          (fun s => s.entry (resolver.domainFor 0 s.tenantDomain)) xs es ∧
        LastTold Subscription.subscriptionId (fun n => decimal n.toInt)
          SubscriptionEntry.subscriptionId SubscriptionEntry.origin?
          (Subscription.domainField.filled resolver) xs es) ∧
    (∀ xs, readListing .applications Application.shape text = .ok xs →
      ∃ es b, translateIn arrangement .applications text resolver =
          .ok (wireList ApplicationEntry.shape es, b) ∧
        LastOfEach Application.uuid id ApplicationEntry.uuid
          (fun a => a.entry (resolver.domainFor 0 a.tenantDomain)) xs es ∧
        LastTold Application.uuid id ApplicationEntry.uuid ApplicationEntry.origin?
          (Application.domainField.filled resolver) xs es) ∧
    (∀ xs, readListing .applicationPolicies ApplicationPolicy.shape text = .ok xs →
      ∃ es b, translateIn arrangement .applicationPolicies text resolver =
          .ok (wireList ApplicationPolicyEntry.shape es, b) ∧
        LastOfEach ApplicationPolicy.id id ApplicationPolicyEntry.id ApplicationPolicy.entry xs
          es ∧
        LastTold ApplicationPolicy.id id ApplicationPolicyEntry.id ApplicationPolicyEntry.origin?
          id xs es) ∧
    (∀ xs, readListing .subscriptionPolicies SubscriptionPolicy.shape text = .ok xs →
      ∃ es b, translateIn arrangement .subscriptionPolicies text resolver =
          .ok (wireList SubscriptionPolicyEntry.shape es, b) ∧
        LastOfEach SubscriptionPolicy.id id SubscriptionPolicyEntry.id
          (fun p => p.entry (resolver.domainFor 0 p.tenantDomain)) xs es ∧
        LastTold SubscriptionPolicy.id id SubscriptionPolicyEntry.id
          SubscriptionPolicyEntry.origin? (SubscriptionPolicy.domainField.filled resolver) xs es) ∧
    (∀ xs, readListing .keyMappings KeyMapping.shape text = .ok xs →
      ∃ es b, translateIn arrangement .keyMappings text resolver =
          .ok (wireList KeyMappingEntry.shape es, b) ∧
        LastOfEach KeyMapping.consumerKey id KeyMappingEntry.consumerKey
          (fun m => m.entry (resolver.domainFor 0 m.tenantDomain)) xs es ∧
        LastTold KeyMapping.consumerKey id KeyMappingEntry.consumerKey KeyMappingEntry.origin?
          (KeyMapping.domainField.filled resolver) xs es) ∧
    ∀ xs, readListing .apis Api.shape text = .ok xs →
      ∃ es b, translateIn arrangement .apis text resolver = .ok (wireList ApiEntry.shape es, b) ∧
        es.length = xs.length ∧ (∀ i : Nat, es[i]? = xs[i]?.map Api.entry) ∧
        es.map ApiEntry.origin? = xs.map some := by
  refine ⟨fun n => isDecimal_decimal n.toInt, fun xs h => ?_, fun xs h => ?_, fun xs h => ?_,
    fun xs h => ?_, fun xs h => ?_, fun xs h => ?_⟩
  · refine ⟨_, _, translateIn_subscriptions arrangement resolver h, ?_⟩
    refine lastOfEach_values arrangement renderNumber_injective ?_ ?_ xs
    · exact fun _ => rfl
    · exact fun s => s.origin?_entry _
  · refine ⟨_, _, translateIn_applications arrangement resolver h, ?_⟩
    refine lastOfEach_values arrangement Function.injective_id ?_ ?_ xs
    · exact fun _ => rfl
    · exact fun _ => rfl
  · refine ⟨_, _, translateIn_applicationPolicies arrangement resolver h, ?_⟩
    refine lastOfEach_values arrangement Function.injective_id ?_ ?_ xs
    · exact fun _ => rfl
    · exact fun _ => rfl
  · refine ⟨_, _, translateIn_subscriptionPolicies arrangement resolver h, ?_⟩
    refine lastOfEach_values arrangement Function.injective_id ?_ ?_ xs
    · exact fun _ => rfl
    · exact fun _ => rfl
  · refine ⟨_, _, translateIn_keyMappings arrangement resolver h, ?_⟩
    refine lastOfEach_values arrangement Function.injective_id ?_ ?_ xs
    · exact fun _ => rfl
    · exact fun _ => rfl
  · refine ⟨_, _, translateIn_apis arrangement resolver h, List.length_map Api.entry,
      fun i => List.getElem?_map, ?_⟩
    rw [List.map_map]
    exact List.map_congr_left fun a _ => a.origin?_entry

/-- A listing of two elements that, whatever the kind, both leave their key out. -/
def repeatedListing : String :=
  "\x7b\"list\":[\x7b\"tenantId\":1,\"name\":\"a\"\x7d,\x7b\"tenantId\":2,\"name\":\"b\"\x7d]\x7d"

theorem translateIn_lastOfEach_repeated :
    (∃ es b, translateIn .asPut .subscriptions repeatedListing (.always "") =
        .ok (wireList SubscriptionEntry.shape es, b) ∧
      (es.filter (·.subscriptionId = "0")).map SubscriptionEntry.tenantId = [2]) ∧
    (∃ es b, translateIn .asPut .applications repeatedListing (.always "") =
        .ok (wireList ApplicationEntry.shape es, b) ∧
      (es.filter (·.uuid = "")).map ApplicationEntry.tenantId = [2]) ∧
    (∃ es b, translateIn .asPut .applicationPolicies repeatedListing (.always "") =
        .ok (wireList ApplicationPolicyEntry.shape es, b) ∧
      (es.filter (·.id = 0)).map ApplicationPolicyEntry.tenantId = [2]) ∧
    (∃ es b, translateIn .asPut .subscriptionPolicies repeatedListing (.always "") =
        .ok (wireList SubscriptionPolicyEntry.shape es, b) ∧
      (es.filter (·.id = 0)).map SubscriptionPolicyEntry.tenantId = [2]) ∧
    (∃ es b, translateIn .asPut .keyMappings repeatedListing (.always "") =
        .ok (wireList KeyMappingEntry.shape es, b) ∧
      (es.filter (·.consumerKey = "")).map KeyMappingEntry.tenantId = [2]) ∧
    ∃ es b, translateIn .asPut .apis repeatedListing (.always "") =
        .ok (wireList ApiEntry.shape es, b) ∧ es.length = 2 ∧
      es.map ApiEntry.origin? = [some { name := "a" }, some { name := "b" }] ∧
      es[1]?.map ApiEntry.name = some "b" := by
  obtain ⟨_, hsubscriptions, happlications, happlicationPolicies, hsubscriptionPolicies,
    hkeyMappings, hapis⟩ := translateIn_lastOfEach .asPut (.always "") repeatedListing
  have hrender : decimal (0 : Int32).toInt = "0" := by decide +kernel
  refine ⟨?_, ?_, ?_, ?_, ?_, ?_⟩
  · obtain ⟨es, b, h, hlast, -⟩ := hsubscriptions [{ tenantId := 1 }, { tenantId := 2 }]
      (eq_ok_of_toOption (by decide +kernel))
    have hfilter := hlast.last 0
    rw [hrender] at hfilter
    refine ⟨es, b, h, ?_⟩
    rw [hfilter]
    decide +kernel
  · obtain ⟨es, b, h, hlast, -⟩ := happlications
      [{ tenantId := 1, name := "a" }, { tenantId := 2, name := "b" }]
      (eq_ok_of_toOption (by decide +kernel))
    have hfilter : es.filter (·.uuid = "") = _ := hlast.last ""
    refine ⟨es, b, h, ?_⟩
    rw [hfilter]
    decide +kernel
  · obtain ⟨es, b, h, hlast, -⟩ := happlicationPolicies
      [{ tenantId := 1, name := "a" }, { tenantId := 2, name := "b" }]
      (eq_ok_of_toOption (by decide +kernel))
    have hfilter : es.filter (·.id = 0) = _ := hlast.last 0
    refine ⟨es, b, h, ?_⟩
    rw [hfilter]
    decide +kernel
  · obtain ⟨es, b, h, hlast, -⟩ := hsubscriptionPolicies
      [{ tenantId := 1, name := "a" }, { tenantId := 2, name := "b" }]
      (eq_ok_of_toOption (by decide +kernel))
    have hfilter : es.filter (·.id = 0) = _ := hlast.last 0
    refine ⟨es, b, h, ?_⟩
    rw [hfilter]
    decide +kernel
  · obtain ⟨es, b, h, hlast, -⟩ := hkeyMappings [{ tenantId := 1 }, { tenantId := 2 }]
      (eq_ok_of_toOption (by decide +kernel))
    have hfilter : es.filter (·.consumerKey = "") = _ := hlast.last ""
    refine ⟨es, b, h, ?_⟩
    rw [hfilter]
    decide +kernel
  · obtain ⟨es, b, h, hlength, heach, horigins⟩ := hapis [{ name := "a" }, { name := "b" }]
      (eq_ok_of_toOption (by decide +kernel))
    refine ⟨es, b, h, hlength, horigins, ?_⟩
    rw [heach 1]
    rfl

end Snapshot
end PlaneBridge.Catalog
