import Mathlib.Data.List.Perm.Basic
import PlaneBridge.Proofs.Catalog.Keyed
import PlaneBridge.Proofs.Catalog.Origin

/-!
# Nothing is lost on the way

A snapshot becomes a message that holds one value for each record, and every value leads back to the
record that it was written from, but for the domain that has been filled in.  Records have keys of
their own, so two snapshots whose messages hold the same values list the same records:
`exists_perm_of_sameValues`.  `Lossless` says this of a kind, together with the way back.

APIs are sent in their order and leave no domain out, so for them it is the sequences that agree.
-/

namespace PlaneBridge.Catalog

open Json (Value)
open Tenant

/-- Where no key comes twice every element survives. -/
theorem survivors_eq_self {α κ : Type} [DecidableEq κ] {key : α → κ} {xs : List α}
    (h : (xs.map key).Nodup) : survivors key xs = xs := by
  induction xs with
  | nil => rfl
  | cons a xs ih =>
    obtain ⟨hfresh, hrest⟩ := List.nodup_cons.mp h
    rw [survivors_of_notMem hfresh, ih hrest]

/-! ## Values that lead back -/

section

variable {α : Type} {write write' : α → Value} {read : Value → Option α} {f : α → α}

theorem mapM_read (h : ∀ a, read (write a) = some (f a)) (xs : List α) :
    (xs.map write).mapM read = some (xs.map f) := by
  induction xs with
  | nil => rfl
  | cons a xs ih =>
    rw [List.map_cons, List.mapM_cons, h, ih]
    rfl

theorem mem_map_of_write {xs : List α} {ws : List Value} (h : ∀ a, read (write a) = some (f a))
    (hws : ∀ w, w ∈ ws ↔ w ∈ xs.map write) (c : α) :
    c ∈ xs.map f ↔ ∃ w ∈ ws, read w = some c := by
  constructor
  · intro hc
    obtain ⟨a, ha, rfl⟩ := List.mem_map.mp hc
    exact ⟨write a, (hws _).mpr (List.mem_map_of_mem ha), h a⟩
  · rintro ⟨w, hw, hread⟩
    obtain ⟨a, ha, rfl⟩ := List.mem_map.mp ((hws w).mp hw)
    rw [h] at hread
    exact List.mem_map.mpr ⟨a, ha, Option.some.inj hread⟩

/-- Records under keys of their own can be told from the set of the values that they are written
as, as far as values lead back. -/
theorem exists_perm_of_sameValues {κ : Type} {key : α → κ}
    (h : ∀ a, read (write a) = some (f a)) (h' : ∀ a, read (write' a) = some (f a))
    (hkey : ∀ a, key (f a) = key a) {xs ys : List α} (hxs : (xs.map key).Nodup)
    (hys : (ys.map key).Nodup) {ws ws' : List Value} (hws : ∀ w, w ∈ ws ↔ w ∈ xs.map write)
    (hws' : ∀ w, w ∈ ws' ↔ w ∈ ys.map write') (hsame : ∀ w, w ∈ ws ↔ w ∈ ws') :
    ∃ zs, zs.Perm ys ∧ List.Forall₂ (fun a b => f a = f b) xs zs := by
  have hnodup : ∀ {zs : List α}, (zs.map key).Nodup → (zs.map f).Nodup := by
    intro zs hzs
    have hkeys : (zs.map f).map key = zs.map key := by
      rw [List.map_map]
      exact List.map_congr_left fun a _ => hkey a
    exact (hkeys ▸ hzs).of_map
  have hperm : (xs.map f).Perm (ys.map f) := by
    refine (List.perm_ext_iff_of_nodup (hnodup hxs) (hnodup hys)).mpr fun c => ?_
    rw [mem_map_of_write h hws, mem_map_of_write h' hws']
    simp only [hsame]
  have hback : List.Forall₂ (fun c b => c = f b) (ys.map f) ys := by
    rw [List.forall₂_map_left_iff, List.forall₂_same]
    exact fun _ _ => rfl
  obtain ⟨zs, hzs, hmoved⟩ := List.perm_comp_forall₂ hperm hback
  exact ⟨zs, hmoved, List.forall₂_map_left_iff.mp hzs⟩

end

/-! ## Kinds that lose nothing -/

open Snapshot in
/-- What snapshots of a kind list can be told from their messages, where no two records have the
same key.  `same` says in what records may differ whose values do not, `whole` which records are
told from their values alone, and `origin?` is the one way back. -/
structure Lossless {α κ : Type} (kind : Kind) (item : Shape α) (key : α → κ)
    (same : String → α → α → Prop) (whole : α → Prop) (origin? : Value → Option α) : Prop where
  /-- Messages that hold the same values come of the same records, in some order. -/
  told : ∀ (first second : Arrangement) (resolver resolver' : Resolver),
    resolver 0 = resolver' 0 → ∀ {text text' : String} {xs ys : List α},
    readListing kind item text = .ok xs → readListing kind item text' = .ok ys →
    (xs.map key).Nodup → (ys.map key).Nodup →
    ∃ v b v' b', translateIn first kind text resolver = .ok (v, b) ∧
      translateIn second kind text' resolver' = .ok (v', b') ∧
      ((∀ w, w ∈ listedValues v ↔ w ∈ listedValues v') →
        ∃ zs, zs.Perm ys ∧ List.Forall₂ (same (resolver.connected 0)) xs zs)
  /-- Records that are whole come back from their message. -/
  undone : ∀ (arrangement : Arrangement) (resolver : Resolver) {text : String} {xs : List α},
    readListing kind item text = .ok xs → (xs.map key).Nodup → (∀ a ∈ xs, whole a) →
    ∃ v b, translateIn arrangement kind text resolver = .ok (v, b) ∧
      ∃ zs, (listedValues v).mapM origin? = some zs ∧ zs.Perm xs

section

variable {α κ : Type} [DecidableEq κ] {kind : Snapshot.Kind} {item : Shape α} {key : α → κ}
  {origin? : Value → Option α}

/-- A kind loses nothing if its records are sent as they have been collected, each as a value that
leads back to the record, filled in. -/
theorem Lossless.of_written {same : String → α → α → Prop} {whole : α → Prop}
    (filled : Resolver → α → α) (write : Resolver → α → Value)
    (hsent : ∀ (arrangement : Arrangement) (resolver : Resolver) {text : String} {xs : List α},
      Snapshot.readListing kind item text = .ok xs →
      ∃ v b, Snapshot.translateIn arrangement kind text resolver = .ok (v, b) ∧
        listedValues v =
          ((Keyed.ofList key xs).arranged arrangement).values.map (write resolver))
    (hread : ∀ resolver a, origin? (write resolver a) = some (filled resolver a))
    (hkey : ∀ resolver a, key (filled resolver a) = key a)
    (hanswer : ∀ {resolver resolver' : Resolver}, resolver 0 = resolver' 0 →
      filled resolver = filled resolver')
    (hsame : ∀ {resolver : Resolver} {a b : α}, filled resolver a = filled resolver b →
      same (resolver.connected 0) a b)
    (hwhole : ∀ {resolver : Resolver} {a : α}, whole a → filled resolver a = a) :
    Lossless kind item key same whole origin? where
  told := by
    intro first second resolver resolver' hfirst text text' xs ys hxs hys hnodup hnodup'
    obtain ⟨v, b, hv, hvalues⟩ := hsent first resolver hxs
    obtain ⟨v', b', hv', hvalues'⟩ := hsent second resolver' hys
    refine ⟨v, b, v', b', hv, hv', fun hset => ?_⟩
    -- the collection only moves records whose keys are distinct
    have hmem : ∀ w, w ∈ listedValues v ↔ w ∈ xs.map (write resolver) := by
      intro w
      have hperm := Keyed.values_arranged_ofList first key xs
      rw [survivors_eq_self hnodup] at hperm
      rw [hvalues]
      exact (hperm.map _).mem_iff
    have hmem' : ∀ w, w ∈ listedValues v' ↔ w ∈ ys.map (write resolver') := by
      intro w
      have hperm := Keyed.values_arranged_ofList second key ys
      rw [survivors_eq_self hnodup'] at hperm
      rw [hvalues']
      exact (hperm.map _).mem_iff
    have hread' : ∀ a, origin? (write resolver' a) = some (filled resolver a) := by
      intro a
      rw [hread, hanswer hfirst]
    obtain ⟨zs, hzs, hall⟩ := exists_perm_of_sameValues (hread resolver) hread' (hkey resolver)
      hnodup hnodup' hmem hmem' hset
    exact ⟨zs, hzs, hall.imp fun _ _ heq => hsame heq⟩
  undone := by
    intro arrangement resolver text xs hxs hnodup hall
    obtain ⟨v, b, hv, hvalues⟩ := hsent arrangement resolver hxs
    have hperm := Keyed.values_arranged_ofList arrangement key xs
    rw [survivors_eq_self hnodup] at hperm
    refine ⟨v, b, hv, _, ?_, hperm⟩
    rw [hvalues, mapM_read (hread resolver)]
    have hfilled : ∀ a ∈ ((Keyed.ofList key xs).arranged arrangement).values,
        filled resolver a = a := fun a ha => hwhole (hall a (hperm.mem_iff.mp ha))
    rw [List.map_congr_left hfilled, List.map_id']

/-- Of a kind whose records belong to tenant domains, the domain filled in is all that is not told
from the message. -/
theorem Lossless.of_filledMessage {β : Type} {entry : α → String → β} {shape : Shape β}
    {entryOrigin? : β → Option α} {f : DomainField α}
    (hsent : ∀ (arrangement : Arrangement) (resolver : Resolver) {text : String} {xs : List α},
      Snapshot.readListing kind item text = .ok xs →
      Snapshot.translateIn arrangement kind text resolver =
        .ok (filledMessage resolver f.get entry shape
          ((Keyed.ofList key xs).arranged arrangement).values))
    (hregular : shape.regular = true)
    (horigin : ∀ a domain, entryOrigin? (entry a domain) = some (f.set a domain))
    (hkey : ∀ a domain, key (f.set a domain) = key a) :
    Lossless kind item key f.Same (fun a => f.get a ≠ "") (originOf shape entryOrigin?) := by
  refine Lossless.of_written f.filled
    (fun resolver a => (shape.toJson (entry a (resolver.domainFor 0 (f.get a)))).sorted)
    ?_ ?_ ?_ ?_ ?_ ?_
  · intro arrangement resolver text xs hxs
    refine ⟨_, _, hsent arrangement resolver hxs, ?_⟩
    show listedValues (wireList shape (filledEntries resolver f.get entry 0 _)) = _
    rw [listedValues_wireList, filledEntries, List.map_map]
    rfl
  · intro resolver a
    rw [originOf_sorted hregular, horigin, DomainField.filled]
  · exact fun resolver a => hkey a _
  · intro resolver resolver' hfirst
    funext a
    simp only [DomainField.filled, Resolver.domainFor, Resolver.connected, hfirst]
  · exact DomainField.same_of_filled_eq
  · exact DomainField.filled_of_ne

end

namespace Snapshot

/-- Nothing of what a snapshot lists is lost in its message, but which domains have been filled
in. -/
theorem translateIn_lossless :
    Lossless .subscriptions Subscription.shape Subscription.subscriptionId
      Subscription.domainField.Same (fun s => s.tenantDomain ≠ "")
      (originOf SubscriptionEntry.shape SubscriptionEntry.origin?) ∧
    Lossless .applications Application.shape Application.uuid
      Application.domainField.Same (fun a => a.tenantDomain ≠ "")
      (originOf ApplicationEntry.shape ApplicationEntry.origin?) ∧
    Lossless .applicationPolicies ApplicationPolicy.shape ApplicationPolicy.id
      (fun _ p q => p = q) (fun _ => True)
      (originOf ApplicationPolicyEntry.shape ApplicationPolicyEntry.origin?) ∧
    Lossless .subscriptionPolicies SubscriptionPolicy.shape SubscriptionPolicy.id
      SubscriptionPolicy.domainField.Same (fun p => p.tenantDomain ≠ "")
      (originOf SubscriptionPolicyEntry.shape SubscriptionPolicyEntry.origin?) ∧
    Lossless .keyMappings KeyMapping.shape KeyMapping.consumerKey
      KeyMapping.domainField.Same (fun m => m.tenantDomain ≠ "")
      (originOf KeyMappingEntry.shape KeyMappingEntry.origin?) ∧
    (∀ (first second : Arrangement) (resolver resolver' : Resolver) {text text' : String}
      {xs ys : List Api}, readListing .apis Api.shape text = .ok xs →
      readListing .apis Api.shape text' = .ok ys →
      ∃ v b v' b', translateIn first .apis text resolver = .ok (v, b) ∧
        translateIn second .apis text' resolver' = .ok (v', b') ∧
        (listedValues v = listedValues v' → xs = ys) ∧
        (listedValues v).mapM (originOf ApiEntry.shape ApiEntry.origin?) = some xs) := by
  refine ⟨?_, ?_, ?_, ?_, ?_, ?_⟩
  · exact Lossless.of_filledMessage (f := Subscription.domainField) translateIn_subscriptions
      (by decide +kernel) Subscription.origin?_entry fun _ _ => rfl
  · exact Lossless.of_filledMessage (f := Application.domainField) translateIn_applications
      (by decide +kernel) (fun _ _ => rfl) fun _ _ => rfl
  · refine Lossless.of_written (fun _ p => p)
      (fun _ p => (ApplicationPolicyEntry.shape.toJson p.entry).sorted) ?_ ?_ ?_ ?_ ?_ ?_
    · intro arrangement resolver text xs hxs
      refine ⟨_, _, translateIn_applicationPolicies arrangement resolver hxs, ?_⟩
      rw [listedValues_wireList, List.map_map]
      rfl
    · intro resolver p
      rw [originOf_sorted (by decide +kernel)]
      rfl
    · exact fun _ _ => rfl
    · exact fun _ => rfl
    · exact fun heq => heq
    · exact fun _ => rfl
  · exact Lossless.of_filledMessage (f := SubscriptionPolicy.domainField)
      translateIn_subscriptionPolicies (by decide +kernel) (fun _ _ => rfl) fun _ _ => rfl
  · exact Lossless.of_filledMessage (f := KeyMapping.domainField) translateIn_keyMappings
      (by decide +kernel) (fun _ _ => rfl) fun _ _ => rfl
  · intro first second resolver resolver' text text' xs ys hxs hys
    have hread : ∀ as : List Api,
        (listedValues (wireList ApiEntry.shape (as.map Api.entry))).mapM
          (originOf ApiEntry.shape ApiEntry.origin?) = some as := by
      intro as
      rw [listedValues_wireList, List.map_map]
      have hback : ∀ a : Api, originOf ApiEntry.shape ApiEntry.origin?
          (ApiEntry.shape.toJson a.entry).sorted = some a := by
        intro a
        rw [originOf_sorted (by decide +kernel), Api.origin?_entry]
      have hall := mapM_read hback as
      rw [List.map_id'] at hall
      exact hall
    refine ⟨_, _, _, _, translateIn_apis first resolver hxs, translateIn_apis second resolver' hys,
      fun hsame => ?_, hread xs⟩
    have hxs := hread xs
    rw [hsame, hread ys] at hxs
    exact (Option.some.inj hxs).symm

/-- A listing of two subscriptions, one of which leaves its domain out. -/
def unnamedListing : String :=
  "\x7b\"list\":[\x7b\"subscriptionId\":1\x7d," ++
    "\x7b\"subscriptionId\":-2,\"tenantDomain\":\"u\"\x7d]\x7d"

/-- The same two the other way round, with a domain for both. -/
def namedListing : String :=
  "\x7b\"list\":[\x7b\"tenantDomain\":\"u\",\"subscriptionId\":-2\x7d," ++
    "\x7b\"subscriptionId\":1,\"tenantDomain\":\"t\"\x7d]\x7d"

/-- A listing of an API that comes twice. -/
def repeatedApis : String := "\x7b\"list\":[\x7b\"apiId\":7\x7d,\x7b\"apiId\":7\x7d]\x7d"

theorem translateIn_lossless_filledIn :
    ∃ v b v' b', translateIn .asPut .subscriptions unnamedListing (.always "t") = .ok (v, b) ∧
      translateIn .asPut .subscriptions namedListing (.always "t") = .ok (v', b') ∧
      (∀ w, w ∈ listedValues v ↔ w ∈ listedValues v') ∧
      (∃ zs, zs.Perm [{ subscriptionId := -2, tenantDomain := "u" },
          { subscriptionId := 1, tenantDomain := "t" }] ∧
        List.Forall₂ (Subscription.domainField.Same "t")
          [{ subscriptionId := 1 }, { subscriptionId := -2, tenantDomain := "u" }] zs) ∧
      (∃ zs, (listedValues v').mapM (originOf SubscriptionEntry.shape SubscriptionEntry.origin?) =
          some zs ∧
        zs.Perm [{ subscriptionId := -2, tenantDomain := "u" },
          { subscriptionId := 1, tenantDomain := "t" }]) ∧
      readListing .apis Api.shape repeatedApis = .ok [{ apiId := 7 }, { apiId := 7 }] ∧
      ∃ v b, translateIn .asPut .apis repeatedApis (.always "t") = .ok (v, b) ∧
        (listedValues v).mapM (originOf ApiEntry.shape ApiEntry.origin?) =
          some [{ apiId := 7 }, { apiId := 7 }] := by
  obtain ⟨⟨told, undone⟩, _, _, _, _, hapis⟩ := translateIn_lossless
  have hunnamed : readListing .subscriptions Subscription.shape unnamedListing =
      .ok [{ subscriptionId := 1 }, { subscriptionId := -2, tenantDomain := "u" }] :=
    eq_ok_of_toOption (by decide +kernel)
  have hnamed : readListing .subscriptions Subscription.shape namedListing =
      .ok [{ subscriptionId := -2, tenantDomain := "u" },
        { subscriptionId := 1, tenantDomain := "t" }] :=
    eq_ok_of_toOption (by decide +kernel)
  have hrepeated : readListing .apis Api.shape repeatedApis = .ok [{ apiId := 7 }, { apiId := 7 }] :=
    eq_ok_of_toOption (by decide +kernel)
  obtain ⟨v, b, v', b', hv, hv', hsame⟩ := told .asPut .asPut (.always "t") (.always "t") rfl
    hunnamed hnamed (by decide +kernel) (by decide +kernel)
  obtain ⟨named, _, hnamed', origins, horigins, hperm⟩ := undone .asPut (.always "t") hnamed
    (by decide +kernel) (by decide +kernel)
  obtain ⟨rfl, _⟩ := Prod.mk.inj (Except.ok.inj (hv'.symm.trans hnamed'))
  have hset : ∀ w, w ∈ listedValues v ↔ w ∈ listedValues v' := by
    have hfirst := hv.symm.trans (translateIn_subscriptions .asPut (.always "t") hunnamed)
    have hsecond := hv'.symm.trans (translateIn_subscriptions .asPut (.always "t") hnamed)
    obtain ⟨rfl, _⟩ := Prod.mk.inj (Except.ok.inj hfirst)
    obtain ⟨rfl, _⟩ := Prod.mk.inj (Except.ok.inj hsecond)
    intro w
    have hcomm : ∀ x y : Value, w ∈ [x, y] ↔ w ∈ [y, x] := by simp [or_comm]
    exact hcomm _ _
  obtain ⟨w, c, _, _, hw, _, _, hback⟩ :=
    hapis .asPut .asPut (.always "t") (.always "t") hrepeated hrepeated
  exact ⟨v, b, v', b', hv, hv', hset, hsame hset, ⟨origins, horigins, hperm⟩, hrepeated, w, c, hw,
    hback⟩

end Snapshot
end PlaneBridge.Catalog
