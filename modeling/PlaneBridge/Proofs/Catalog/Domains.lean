import PlaneBridge.Proofs.Catalog.KeyManager
import PlaneBridge.Proofs.Catalog.Keyed

/-!
# The domains of a message

Each message is a generation of its own.  A record that names its domain keeps it, and all others
get the one domain that the resolver answers, or the default one.  The resolver is asked once if
there is such a record, and not otherwise.  `FilledOnce` says all this of a list of records and its
entries, whatever has become of the resolver before.

None of it hangs on the order of the records.  A generation asks at the first empty domain, and by
`Backfill.fillAll_eq` the others cannot tell which one that was; the collections below hold their
records in any order.
-/

namespace PlaneBridge.Catalog

open Tenant

/-- Entries of records whose domains have been filled in, in a generation from `before` to
`after`. -/
structure FilledOnce {α β : Type} (resolver : Resolver) (domain : α → String)
    (entry : α → String → β) (wire : β → String) (before : Backfill) (xs : List α) (es : List β)
    (after : Backfill) : Prop where
  /-- Each record has its entry, in its place. -/
  records : es = xs.map fun a => entry a (resolver.domainFor before.asked (domain a))
  domains : es.map wire = xs.map fun a =>
    if domain a ≠ "" then domain a
    else if resolver before.asked ≠ "" then resolver before.asked
    else "carbon.super"
  nonempty : ∀ e ∈ es, wire e ≠ ""
  asked : after.asked = before.asked + if "" ∈ xs.map domain then 1 else 0
  told : ∃ told, after.notices = before.notices ++ told ∧ told.map Notice.line =
    if "" ∈ xs.map domain ∧ resolver before.asked = "" then
      ["WARN Connected tenant domain is empty, falling back to carbon.super"]
    else []

section

variable {α β : Type}

theorem filledOnce_after (resolver : Resolver) (domain : α → String) (entry : α → String → β)
    {wire : β → String} (hwire : ∀ a d, wire (entry a d) = d) (before : Backfill) (xs : List α) :
    FilledOnce resolver domain entry wire before xs
      (filledEntries resolver domain entry before.asked xs)
      (before.renew.after resolver (xs.map domain)) where
  records := rfl
  domains := by
    rw [filledEntries, List.map_map]
    exact List.map_congr_left fun a _ => hwire a _
  nonempty := by
    intro e he
    obtain ⟨a, _, rfl⟩ := List.mem_map.mp he
    rw [hwire]
    exact resolver.domainFor_ne_empty before.asked (domain a)
  asked := by
    by_cases hmem : "" ∈ xs.map domain
    · rw [if_pos hmem, Backfill.after_of_mem hmem, Backfill.settle_of_none rfl]
      rfl
    · rw [if_neg hmem, Backfill.after_of_notMem hmem]
      rfl
  told := by
    by_cases hmem : "" ∈ xs.map domain
    · refine ⟨resolver.notices before.asked, ?_, ?_⟩
      · rw [Backfill.after_of_mem hmem, Backfill.settle_of_none rfl]
        rfl
      · rw [Resolver.lines_notices]
        by_cases hanswer : resolver before.asked = ""
        · rw [if_pos hanswer, if_pos ⟨hmem, hanswer⟩]
        · rw [if_neg hanswer, if_neg fun h => hanswer h.2]
    · refine ⟨[], ?_, ?_⟩
      · rw [Backfill.after_of_notMem hmem, List.append_nil]
        rfl
      · rw [if_neg fun h => hmem h.1]
        rfl

end

/-- A collection becomes a list whose domains are filled once. -/
def FillsOnce {α β : Type} (resolver : Resolver) (domain : α → String) (entry : α → String → β)
    (wire : β → String) (xs : List α) (m : StateM Backfill (Listing β)) : Prop :=
  ∀ before, ∃ es after, m before = (⟨es⟩, after) ∧
    FilledOnce resolver domain entry wire before xs es after

theorem fillsOnce_fillAll {α β : Type} (resolver : Resolver) (domain : α → String)
    (entry : α → String → β) {wire : β → String} (hwire : ∀ a d, wire (entry a d) = d)
    (xs : List α) :
    FillsOnce resolver domain entry wire xs
      (do return ⟨← Backfill.fillAll resolver domain entry xs⟩) := by
  intro before
  exact ⟨_, _, fillListing_eq resolver domain entry xs before,
    filledOnce_after resolver domain entry hwire before xs⟩

/-- A message lists entries of the elements that survive under their keys, their domains filled
once. -/
def ListsFilledOnce {α β κ : Type} [DecidableEq κ] (resolver : Resolver) (key : α → κ)
    (domain : α → String) (entry : α → String → β) (wire : β → String) (shape : Shape β)
    (xs : List α) (translation : Snapshot.Translation) : Prop :=
  ∃ ys es after, ys.Perm (survivors key xs) ∧ translation = .ok (wireList shape es, after) ∧
    FilledOnce resolver domain entry wire .start ys es after

theorem listsFilledOnce_filledMessage {α β κ : Type} [DecidableEq κ] (arrangement : Arrangement)
    (resolver : Resolver) (key : α → κ) (domain : α → String) (entry : α → String → β)
    {wire : β → String} (hwire : ∀ a d, wire (entry a d) = d) (shape : Shape β) (xs : List α) :
    ListsFilledOnce resolver key domain entry wire shape xs
      (.ok (filledMessage resolver domain entry shape
        ((Keyed.ofList key xs).arranged arrangement).values)) := by
  refine ⟨_, _, _, Keyed.values_arranged_ofList arrangement key xs, rfl, ?_⟩
  exact filledOnce_after resolver domain entry hwire .start _

/-- A message asks the resolver if an element that survives leaves its domain empty. -/
theorem ListsFilledOnce.asked {α β κ : Type} [DecidableEq κ] {resolver : Resolver} {key : α → κ}
    {domain : α → String} {entry : α → String → β} {wire : β → String} {shape : Shape β}
    {xs : List α} {translation : Snapshot.Translation}
    (h : ListsFilledOnce resolver key domain entry wire shape xs translation) :
    ∃ es after, translation = .ok (wireList shape es, after) ∧
      after.asked = if "" ∈ (survivors key xs).map domain then 1 else 0 := by
  obtain ⟨ys, es, after, hys, htranslation, hfilled⟩ := h
  refine ⟨es, after, htranslation, ?_⟩
  have hmem : "" ∈ ys.map domain ↔ "" ∈ (survivors key xs).map domain := (hys.map domain).mem_iff
  have hasked := hfilled.asked
  simp only [hmem] at hasked
  exact hasked.trans (Nat.zero_add _)

/-- A key manager that has a record is filled once, as a list of its own. -/
theorem record_filledOnce {resolver : Resolver} {k : KeyManager Setting} {before after : Backfill}
    {r : KeyManagerRecord} (h : k.record resolver before = (some r, after)) :
    FilledOnce resolver KeyManager.tenantDomain (KeyManager.recordIn r.configuration)
      KeyManagerRecord.tenantDomain before [k] [r] after := by
  obtain ⟨hrecord, rfl⟩ := KeyManager.record_eq_some resolver h
  have hwire : ∀ (k : KeyManager Setting) (domain : String),
      (k.recordIn r.configuration domain).tenantDomain = domain := fun _ _ => rfl
  have hfilled := filledOnce_after resolver KeyManager.tenantDomain
    (KeyManager.recordIn r.configuration) hwire before [k]
  have hes : filledEntries resolver KeyManager.tenantDomain (KeyManager.recordIn r.configuration)
      before.asked [k] = [r] := by
    rw [filledEntries, List.map_singleton, ← hrecord]
  rw [hes] at hfilled
  exact hfilled

open Snapshot in
/-- Domains are filled in once: for each collection and key manager, whatever has become of the
resolver before, and for the message of each snapshot, of the elements that survive.  For APIs and
application policies nobody is asked. -/
theorem domains_filledOnce (resolver : Resolver) :
    (∀ c : Keyed Int32 Subscription, FillsOnce resolver Subscription.tenantDomain
      Subscription.entry SubscriptionEntry.tenantDomain c.values
      (subscriptionEntries resolver c)) ∧
    (∀ c : Keyed String Application, FillsOnce resolver Application.tenantDomain
      Application.entry ApplicationEntry.tenantDomain c.values (applicationEntries resolver c)) ∧
    (∀ c : Keyed Int32 SubscriptionPolicy, FillsOnce resolver SubscriptionPolicy.tenantDomain
      SubscriptionPolicy.entry SubscriptionPolicyEntry.tenantDomain c.values
      (subscriptionPolicyEntries resolver c)) ∧
    (∀ c : Keyed String KeyMapping, FillsOnce resolver KeyMapping.tenantDomain
      KeyMapping.entry KeyMappingEntry.tenantDomain c.values (keyMappingEntries resolver c)) ∧
    (∀ (k : KeyManager Setting) (before after : Backfill) (r : KeyManagerRecord),
      k.record resolver before = (some r, after) →
        FilledOnce resolver KeyManager.tenantDomain (KeyManager.recordIn r.configuration)
          KeyManagerRecord.tenantDomain before [k] [r] after) ∧
    ∀ (arrangement : Arrangement) (text : String),
      (∀ xs, readListing .subscriptions Subscription.shape text = .ok xs →
        ListsFilledOnce resolver Subscription.subscriptionId Subscription.tenantDomain
          Subscription.entry SubscriptionEntry.tenantDomain SubscriptionEntry.shape xs
          (translateIn arrangement .subscriptions text resolver)) ∧
      (∀ xs, readListing .applications Application.shape text = .ok xs →
        ListsFilledOnce resolver Application.uuid Application.tenantDomain
          Application.entry ApplicationEntry.tenantDomain ApplicationEntry.shape xs
          (translateIn arrangement .applications text resolver)) ∧
      (∀ xs, readListing .subscriptionPolicies SubscriptionPolicy.shape text = .ok xs →
        ListsFilledOnce resolver SubscriptionPolicy.id SubscriptionPolicy.tenantDomain
          SubscriptionPolicy.entry SubscriptionPolicyEntry.tenantDomain
          SubscriptionPolicyEntry.shape xs
          (translateIn arrangement .subscriptionPolicies text resolver)) ∧
      (∀ xs, readListing .keyMappings KeyMapping.shape text = .ok xs →
        ListsFilledOnce resolver KeyMapping.consumerKey KeyMapping.tenantDomain
          KeyMapping.entry KeyMappingEntry.tenantDomain KeyMappingEntry.shape xs
          (translateIn arrangement .keyMappings text resolver)) ∧
      (∀ k, read .keyManager KeyManager.shape text = .ok k →
        ∃ r after, translateIn arrangement .keyManager text resolver =
            .ok ((KeyManagerRecord.shape.toJson r).sorted, after) ∧
          FilledOnce resolver KeyManager.tenantDomain
            (KeyManager.recordIn r.configuration) KeyManagerRecord.tenantDomain .start
            [k.settings] [r] after) ∧
      (∀ xs, readListing .apis Api.shape text = .ok xs →
        ∃ v, translateIn arrangement .apis text resolver = .ok (v, .start)) ∧
      ∀ xs, readListing .applicationPolicies ApplicationPolicy.shape text = .ok xs →
        ∃ v, translateIn arrangement .applicationPolicies text resolver = .ok (v, .start) := by
  refine ⟨fun c => ?_, fun c => ?_, fun c => ?_, fun c => ?_, fun k before after r h => ?_,
    fun arrangement text => ⟨fun xs h => ?_, fun xs h => ?_, fun xs h => ?_, fun xs h => ?_,
      fun k h => ?_, fun xs h => ?_, fun xs h => ?_⟩⟩
  · exact fillsOnce_fillAll resolver _ _ (fun _ _ => rfl) c.values
  · exact fillsOnce_fillAll resolver _ _ (fun _ _ => rfl) c.values
  · exact fillsOnce_fillAll resolver _ _ (fun _ _ => rfl) c.values
  · exact fillsOnce_fillAll resolver _ _ (fun _ _ => rfl) c.values
  · exact record_filledOnce h
  · rw [translateIn_subscriptions arrangement resolver h]
    exact listsFilledOnce_filledMessage arrangement resolver _ _ _ (fun _ _ => rfl) _ xs
  · rw [translateIn_applications arrangement resolver h]
    exact listsFilledOnce_filledMessage arrangement resolver _ _ _ (fun _ _ => rfl) _ xs
  · rw [translateIn_subscriptionPolicies arrangement resolver h]
    exact listsFilledOnce_filledMessage arrangement resolver _ _ _ (fun _ _ => rfl) _ xs
  · rw [translateIn_keyMappings arrangement resolver h]
    exact listsFilledOnce_filledMessage arrangement resolver _ _ _ (fun _ _ => rfl) _ xs
  · obtain ⟨r, after, hrecord, htranslate⟩ := translateIn_keyManager arrangement resolver h
    exact ⟨r, after, htranslate, record_filledOnce hrecord⟩
  · exact ⟨_, translateIn_apis arrangement resolver h⟩
  · exact ⟨_, translateIn_applicationPolicies arrangement resolver h⟩

/-- A listing of an element without a domain that, whatever the kind, another one replaces. -/
def overwrittenListing : String := "\x7b\"list\":[\x7b\x7d,\x7b\"tenantDomain\":\"t\"\x7d]\x7d"

open Snapshot in
theorem domains_filledOnce_overwritten :
    (∃ es after, translateIn .asPut .subscriptions overwrittenListing (.always "") =
        .ok (wireList SubscriptionEntry.shape es, after) ∧ after.asked = 0) ∧
    (∃ es after, translateIn .asPut .applications overwrittenListing (.always "") =
        .ok (wireList ApplicationEntry.shape es, after) ∧ after.asked = 0) ∧
    (∃ es after, translateIn .asPut .subscriptionPolicies overwrittenListing (.always "") =
        .ok (wireList SubscriptionPolicyEntry.shape es, after) ∧ after.asked = 0) ∧
    (∃ es after, translateIn .asPut .keyMappings overwrittenListing (.always "") =
        .ok (wireList KeyMappingEntry.shape es, after) ∧ after.asked = 0) ∧
    (∃ r after, translateIn .asPut .keyManager overwrittenListing (.always "") =
        .ok ((KeyManagerRecord.shape.toJson r).sorted, after) ∧ after.asked = 1) ∧
    (∃ v, translateIn .asPut .apis overwrittenListing (.always "") = .ok (v, .start)) ∧
    (∃ v, translateIn .asPut .applicationPolicies overwrittenListing (.always "") =
        .ok (v, .start)) ∧
    ∃ r after, KeyManager.record (.always "") ⟨"", "", false, "", .plain .null⟩ .start =
        (some r, after) ∧ r.tenantDomain ≠ "" := by
  obtain ⟨_, _, _, _, hrecord, hsnapshot⟩ := domains_filledOnce (.always "")
  obtain ⟨hsubscriptions, happlications, hsubscriptionPolicies, hkeyMappings, hkeyManager, hapis,
    happlicationPolicies⟩ := hsnapshot .asPut overwrittenListing
  refine ⟨?_, ?_, ?_, ?_, ?_, ?_, ?_, ?_⟩
  · obtain ⟨es, after, h, hasked⟩ := (hsubscriptions [{}, { tenantDomain := "t" }]
      (eq_ok_of_toOption (by decide +kernel))).asked
    exact ⟨es, after, h, hasked.trans (by decide +kernel)⟩
  · obtain ⟨es, after, h, hasked⟩ := (happlications [{}, { tenantDomain := "t" }]
      (eq_ok_of_toOption (by decide +kernel))).asked
    exact ⟨es, after, h, hasked.trans (by decide +kernel)⟩
  · obtain ⟨es, after, h, hasked⟩ := (hsubscriptionPolicies [{}, { tenantDomain := "t" }]
      (eq_ok_of_toOption (by decide +kernel))).asked
    exact ⟨es, after, h, hasked.trans (by decide +kernel)⟩
  · obtain ⟨es, after, h, hasked⟩ := (hkeyMappings [{}, { tenantDomain := "t" }]
      (eq_ok_of_toOption (by decide +kernel))).asked
    exact ⟨es, after, h, hasked.trans (by decide +kernel)⟩
  · have hread : ((read .keyManager KeyManager.shape overwrittenListing).toOption.map
        KeyManager.tenantDomain) = some "" := by decide +kernel
    obtain ⟨k, hk, hdomain⟩ := Option.map_eq_some_iff.mp hread
    obtain ⟨r, after, h, hfilled⟩ := hkeyManager k (eq_ok_of_toOption hk)
    have hempty : "" ∈ [k.settings].map KeyManager.tenantDomain :=
      List.mem_singleton.mpr hdomain.symm
    refine ⟨r, after, h, ?_⟩
    rw [hfilled.asked, if_pos hempty]
    rfl
  · exact hapis [{}, {}] (eq_ok_of_toOption (by decide +kernel))
  · exact happlicationPolicies [{}, {}] (eq_ok_of_toOption (by decide +kernel))
  · have hsome := KeyManager.record_of_ok (.always "")
      (k := ⟨"", "", false, "", .plain .null⟩) rfl .start
    refine ⟨_, _, hsome, ?_⟩
    exact (hrecord _ _ _ _ hsome).nonempty _ List.mem_cons_self

end PlaneBridge.Catalog
