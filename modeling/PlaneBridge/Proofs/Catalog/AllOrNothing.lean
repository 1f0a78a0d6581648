import PlaneBridge.Proofs.Catalog.Elements
import PlaneBridge.Proofs.Shape.Refusal

/-!
# All or nothing

A snapshot is read to its end before anything is done with it.  Translating never fails but while
reading, so when it does nothing has been asked or told.  Of a listing all elements are read or
none: one misfit, wherever it stands, and there is no message at all.
-/

namespace PlaneBridge.Catalog.Snapshot

open Tenant
open Json (Node)

theorem Kind.regular_of_element? {kind : Kind} {item : Σ α : Type, Shape α}
    (h : kind.element? = some item) : item.2.regular = true := by
  cases kind <;> cases h <;> decide +kernel

/-! ## Listings -/

section

variable {arrangement : Arrangement} {kind : Kind} {text : String} {resolver : Resolver}

theorem decode_eq_error {item : Σ α : Type, Shape α} (h : kind.element? = some item) {e : Error} :
    kind.decode text = .error e ↔ readListing kind item.2 text = .error e := by
  cases kind <;> cases h <;> exact Json.map_eq_error.symm

/-- A snapshot of a listing is refused for the first of its elements that cannot be read, if there
is one. -/
theorem translateIn_of_lists {item : Σ α : Type, Shape α} (hitem : kind.element? = some item)
    {items : List Node} (hlists : Lists text items) {e : Error} :
    translateIn arrangement kind text resolver = .error e ↔
      ∃ cause, items.mapM (item.2.ofJson (.text false) 0) = .error cause ∧ e = ⟨kind, cause⟩ := by
  rw [translateIn_eq_error, decode_eq_error hitem,
    readListing_of_lists (Kind.regular_of_element? hitem) hlists]
  cases items.mapM (item.2.ofJson (.text false) 0) with
  | error cause =>
    constructor
    · intro h
      exact ⟨cause, rfl, (Except.error.inj h).symm⟩
    · rintro ⟨cause', h, rfl⟩
      cases h
      rfl
  | ok xs =>
    constructor
    · intro h
      cases h
    · rintro ⟨cause, h, -⟩
      cases h

/-- There is a message exactly if the elements have been read. -/
theorem exists_message_iff {item : Σ α : Type, Shape α} (hitem : kind.element? = some item)
    {items : List Node} (hlists : Lists text items) :
    (∃ message, translateIn arrangement kind text resolver = .ok message) ↔
      ∃ xs, items.mapM (item.2.ofJson (.text false) 0) = .ok xs := by
  cases hread : items.mapM (item.2.ofJson (.text false) 0) with
  | error cause =>
    rw [(translateIn_of_lists hitem hlists).mpr ⟨cause, hread, rfl⟩]
    exact ⟨fun ⟨_, h⟩ => (nomatch h), fun ⟨_, h⟩ => (nomatch h)⟩
  | ok xs =>
    refine ⟨fun _ => ⟨xs, rfl⟩, fun _ => ?_⟩
    cases htranslate : translateIn arrangement kind text resolver with
    | ok message => exact ⟨message, rfl⟩
    | error e =>
      obtain ⟨cause, h, -⟩ := (translateIn_of_lists hitem hlists).mp htranslate
      cases hread.symm.trans h

theorem exists_error_of_element {item : Σ α : Type, Shape α} (hitem : kind.element? = some item)
    {items : List Node} (hlists : Lists text items) {n : Node} (hn : n ∈ items)
    (h : ∀ a, item.2.ofJson (.text false) 0 n ≠ .ok a) :
    ∃ cause, translateIn arrangement kind text resolver = .error ⟨kind, cause⟩ := by
  cases hread : items.mapM (item.2.ofJson (.text false) 0) with
  | error cause => exact ⟨cause, (translateIn_of_lists hitem hlists).mpr ⟨cause, hread, rfl⟩⟩
  | ok xs =>
    obtain ⟨a, ha⟩ := Json.exists_mapM_eq_ok.mp ⟨xs, hread⟩ n hn
    exact absurd ha (h a)

end

/-- A translation that fails has asked nothing and told nothing, and once the text has been read
nothing can fail.  A listing has a message exactly if each of its elements can be read, and then the
message is that of all of them; one that is a misfit or cannot be read for another reason, wherever
it stands, refuses the whole. -/
theorem translateIn_allOrNothing (arrangement : Arrangement) (kind : Kind) (text : String)
    (resolver : Resolver) :
    translateIn arrangement kind text resolver =
      settle ((perform arrangement kind text resolver).run .start) ∧
    (∀ before e after, (perform arrangement kind text resolver).run before = (.error e, after) →
      after = before) ∧
    ((∃ content, kind.decode text = .ok content) →
      ∃ message, translateIn arrangement kind text resolver = .ok message) ∧
    ∀ item items, kind.element? = some item → Lists text items →
      ((∃ message, translateIn arrangement kind text resolver = .ok message) ↔
        ∀ n ∈ items, ∃ a, Decodes item.2 n a) ∧
      (∀ message, translateIn arrangement kind text resolver = .ok message →
        ∃ xs, readListing kind item.2 text = .ok xs ∧
          List.Forall₂ (Decodes item.2) items xs) ∧
      ∀ n ∈ items, (item.2.Misfit n ∨ ∀ a, ¬ Decodes item.2 n a) →
        ∃ e, translateIn arrangement kind text resolver = .error e ∧
          e.message = if kind = .apis then "Snapshot is not an API list"
            else "Snapshot is not a control plane list" := by
  refine ⟨?settled, ?silent, ?read, fun item items hitem hlists => ⟨?whole, ?entire, ?refused⟩⟩
  case settled => rfl
  case silent =>
    intro before e after h
    cases hdecode : kind.decode text with
    | error e' =>
      rw [perform_of_error hdecode] at h
      exact (Prod.mk.inj h).2.symm
    | ok content =>
      rw [perform_of_ok hdecode] at h
      cases (Prod.mk.inj h).1
  case read =>
    rintro ⟨content, hdecode⟩
    exact ⟨_, translateIn_of_decode hdecode⟩
  case whole =>
    rw [exists_message_iff hitem hlists, Json.exists_mapM_eq_ok]
    exact forall₂_congr fun n hn => exists_congr fun a =>
      (decodes_iff (hlists.exists_spells n hn)).symm
  case entire =>
    intro message h
    obtain ⟨xs, hxs⟩ := (exists_message_iff hitem hlists).mp ⟨message, h⟩
    refine ⟨xs, ?_, ?_⟩
    · rw [readListing_of_lists (Kind.regular_of_element? hitem) hlists, hxs]
      rfl
    · have hall := (List.forall₂_and_left items xs).mpr
        ⟨hlists.exists_spells, Json.mapM_eq_ok.mp hxs⟩
      exact hall.imp fun n a ⟨hspells, ha⟩ => (decodes_iff hspells).mpr ha
  case refused =>
    intro n hn h
    have hunread : ∀ a, item.2.ofJson (.text false) 0 n ≠ .ok a := by
      rcases h with h | h
      · exact h.ofJson_ne_ok _ _
      · exact fun a ha => h a ((decodes_iff (hlists.exists_spells n hn)).mpr ha)
    obtain ⟨cause, herror⟩ := exists_error_of_element hitem hlists hn hunread
    refine ⟨_, herror, ?_⟩
    cases kind with
    | keyManager => cases hitem
    | _ => rfl

/-- A subscription with a member that nobody asks for. -/
def strangeElement : Json.Value :=
  .obj [("subscriptionId", Shape.int32.toJson 1), ("count", .null)]

/-- A subscription that has the same member twice. -/
def repeatedElement : Json.Value :=
  .obj [("subscriptionId", Shape.int32.toJson 2), ("subscriptionId", Shape.int32.toJson 2)]

/-- The text of a listing with one more member. -/
def listingText (elements : List Json.Value) : String :=
  (Json.Value.obj [("count", .null), ("list", .arr elements)]).toText

theorem lists_listingText (elements : List Json.Value)
    (h : Json.FloatsReadBack (Json.itemFloats elements)) :
    Lists (listingText elements) (Json.itemNodes elements) := by
  refine lists_toText ?_ ⟨by simp [Json.memberNodes], rfl⟩
  simpa [Json.memberFloats, Json.Value.floats] using h

theorem translateIn_allOrNothing_repeated :
    (∃ message xs, translateIn .asPut .subscriptions (listingText [strangeElement]) (.always "t") =
        .ok message ∧
      readListing .subscriptions Subscription.shape (listingText [strangeElement]) = .ok xs ∧
      xs.length = 1) ∧
    ∃ e, translateIn .asPut .subscriptions (listingText [strangeElement, repeatedElement])
        (.always "t") = .error e ∧
      e.message = "Snapshot is not a control plane list" ∧
      (perform .asPut .subscriptions (listingText [strangeElement, repeatedElement])
        (.always "t")).run .start = (.error e, .start) := by
  obtain ⟨-, -, hread, hstrange⟩ := translateIn_allOrNothing .asPut .subscriptions
    (listingText [strangeElement]) (.always "t")
  obtain ⟨hsettled, hsilent, -, hrepeated⟩ := translateIn_allOrNothing .asPut .subscriptions
    (listingText [strangeElement, repeatedElement]) (.always "t")
  obtain ⟨-, hentire, -⟩ := hstrange ⟨_, Subscription.shape⟩ _ rfl
    (lists_listingText _ fun _ h => absurd h List.not_mem_nil)
  obtain ⟨-, -, hrefused⟩ := hrepeated ⟨_, Subscription.shape⟩ _ rfl
    (lists_listingText _ fun _ h => absurd h List.not_mem_nil)
  have hmisfit : Subscription.shape.Misfit (.obj
      ([] ++ (some "subscriptionId", (Shape.int32.toJson 2).node) ::
        ([] ++ (some "subscriptionId", (Shape.int32.toJson 2).node) :: [])) .closed) :=
    .repeated (by decide)
  obtain ⟨e, he, hmessage⟩ := hrefused repeatedElement.node
    (List.mem_cons_of_mem _ List.mem_cons_self) (.inl hmisfit)
  have hdecode : read .subscriptions (Listing.shape Subscription.shape)
      (listingText [strangeElement]) = .ok ⟨[{ subscriptionId := 1 }]⟩ :=
    eq_ok_of_toOption (by decide +kernel)
  obtain ⟨message, hok⟩ := hread ⟨_, hdecode⟩
  obtain ⟨xs, hxs, hall⟩ := hentire message hok
  refine ⟨⟨message, xs, hok, hxs, hall.length_eq.symm⟩, e, he, hmessage, ?_⟩
  -- what the program has come to is the error, and that has left all as it was
  match hrun : (perform .asPut .subscriptions (listingText [strangeElement, repeatedElement])
    (.always "t")).run .start with
  | (.ok v, after) =>
    rw [he, hrun] at hsettled
    cases hsettled
  | (.error e', after) =>
    rw [he, hrun] at hsettled
    cases hsettled
    rw [hsilent _ _ _ hrun]

end PlaneBridge.Catalog.Snapshot
