import PlaneBridge.Proofs.Catalog.KeyManager
import PlaneBridge.Proofs.Json.FreeForm
import PlaneBridge.Proofs.Shape.Given
import PlaneBridge.Proofs.Shape.Json

/-!
# The configuration of a key manager

The settings of a key manager travel as JSON text inside a JSON text.  What a snapshot says of them
is what comes back when that text is read, and the record that carries it comes back whole.

The settings of a snapshot lie one level deep in it and stand alone in the text of the record, so
they are nested no deeper there and no limit is met.
-/

namespace PlaneBridge

open Json (Value Node Document FloatsReadBack memberFloats)

theorem Shape.ofJson_of_ofText {α : Type} {shape : Shape α} {strict : Bool} {text : String} {a : α}
    (h : shape.ofText strict text = .ok a) :
    shape.ofJson (.text strict) 0 (Document.ofText text.toList).root = .ok a := by
  obtain ⟨b, hb, h⟩ := Json.exists_of_bind_eq_ok h
  split at h
  · cases h
  · cases h
    exact hb

theorem Shape.ofText_freeForm {members : Entries Value} (hincreasing : members.Increasing)
    (hfit : Json.MembersFit (some 127) 1 members) (hfloats : FloatsReadBack (memberFloats members))
    (strict : Bool) {text : String}
    (htext : text = (Value.obj members).toText ∨ text = (Value.obj members).toPrettyText) :
    Shape.freeForm.ofText strict text = .ok members := by
  have hread : Shape.freeForm.ofJson (.text strict) 0 (Value.obj members).node = .ok members := by
    rw [Value.node, ofJson]
    show (do
      let read ← Node.toEntries (some 127) 1 (Json.memberNodes members)
      Json.Ending.closed.close
      return Entries.sort read) = _
    rw [Json.toEntries_of_fit members hfit]
    exact congrArg Except.ok (Entries.sort_eq_self hincreasing)
  rw [ofText, Value.ofText_printed (v := .obj members) hfloats htext, hread]
  rfl

namespace Catalog

theorem KeyManagerRecord.sorted_toJson (r : KeyManagerRecord) :
    (KeyManagerRecord.shape.toJson r).sorted =
      .obj [("configuration", .str r.configuration), ("enabled", .bool r.enabled),
        ("name", .str r.name), ("tenantDomain", .str r.tenantDomain), ("type", .str r.kind)] := by
  simp only [shape, Shape.toJson, Fields.toMembers, Value.sorted, Json.sortedMembers, Entries.sort,
    Entries.insert, List.foldl, String.reduceLT, String.reduceEq, if_true, if_false]

theorem KeyManagerRecord.ofText_sorted (r : KeyManagerRecord) {text : String}
    (htext : text = (KeyManagerRecord.shape.toJson r).sorted.toText ∨
      text = (KeyManagerRecord.shape.toJson r).sorted.toPrettyText) :
    KeyManagerRecord.shape.ofText true text = .ok r := by
  have hfloats : FloatsReadBack (KeyManagerRecord.shape.toJson r).sorted.floats := by
    rw [sorted_toJson]
    exact fun _ hx => absurd hx List.not_mem_nil
  rw [Shape.ofText, Value.ofText_printed hfloats htext, sorted_toJson]
  simp [shape, Value.node, Json.memberNodes, Shape.ofJson, Fields.putMember, Slots.empty,
    Fields.complete, Fields.rowOf, Node.toText, Node.toFlag, Json.Rules.text, Json.Ending.close,
    bind, Except.bind, pure, Except.pure, Except.mapError]

namespace Snapshot

/-- What a snapshot says of the settings of its key manager. -/
def configurationNode (text : String) : Option Node :=
  (Document.ofText text.toList).root.given? 4 "configuration"

theorem says_configuration {text : String} {k : KeyManager.FreeForm}
    (h : read .keyManager KeyManager.shape text = .ok k) :
    (match configurationNode text with
      | some n => (Value.obj k.configuration).Says n
      | none => k.configuration = []) ∧
      k.configuration.Increasing ∧ Json.MembersFit (some 127) 2 k.configuration := by
  have hread : KeyManager.shape.ofJson (.text false) 0 (Document.ofText text.toList).root = .ok k := by
    rw [read] at h
    cases htext : KeyManager.shape.ofText false text with
    | error e => rw [htext] at h; cases h
    | ok k' =>
      rw [htext] at h
      cases h
      exact Shape.ofJson_of_ofText htext
  obtain ⟨_, _, _, _, hconfiguration, _⟩ := Shape.given_of_ofJson (by decide +kernel) hread
  cases hnode : configurationNode text with
  | none =>
    have hempty : k.configuration = [] := by
      rw [configurationNode] at hnode
      simpa [hnode] using hconfiguration
    rw [hempty]
    exact ⟨rfl, .nil, trivial⟩
  | some n =>
    rw [configurationNode] at hnode
    have hfree : Shape.freeForm.ofJson (.text false) 1 n = .ok k.configuration := by
      simpa [hnode] using hconfiguration
    exact Shape.says_of_freeForm hfree

/-- The settings of a key manager survive being written as text, and the record with that text
survives being written. -/
theorem configuration_readBack (arrangement : Arrangement) (resolver : Tenant.Resolver)
    {text : String} {k : KeyManager.FreeForm} (h : read .keyManager KeyManager.shape text = .ok k)
    (hfloats : FloatsReadBack (memberFloats k.configuration)) :
    ∃ r b, translateIn arrangement .keyManager text resolver =
        .ok ((KeyManagerRecord.shape.toJson r).sorted, b) ∧
      (match configurationNode text with
        | some n => (Value.obj k.configuration).Says n
        | none => k.configuration = []) ∧
      (∀ strict, Shape.freeForm.ofText strict r.configuration = .ok k.configuration) ∧
      ∀ v, v = KeyManagerRecord.shape.toJson r ∨ v = (KeyManagerRecord.shape.toJson r).sorted →
        ∀ written, written = v.toText ∨ written = v.toPrettyText →
          KeyManagerRecord.shape.ofText true written = .ok r := by
  obtain ⟨hmeans, hincreasing, hfit⟩ := says_configuration h
  obtain ⟨r, b, hrecord, htranslate⟩ := translateIn_keyManager arrangement resolver h
  refine ⟨r, b, htranslate, hmeans, fun strict => ?_, fun v hv written hwritten => ?_⟩
  · have htext : r.configuration = (Value.obj k.configuration).toText := by
      rw [KeyManager.record_of_ok resolver (k := k.settings) rfl] at hrecord
      rw [← Option.some.inj (congrArg Prod.fst hrecord)]
      rfl
    -- in the snapshot the settings lie one level deeper than in their own text
    exact Shape.ofText_freeForm hincreasing (hfit.mono (Nat.le_succ 1)) hfloats strict (.inl htext)
  · rcases hv with rfl | rfl
    · exact Shape.ofText_printed (by decide +kernel) (Shape.encodes_toJson _ r) true hwritten
    · exact KeyManagerRecord.ofText_sorted r hwritten

/-- Settings with a name that comes twice, the greatest and the least integer, a fraction, and a text
of which nothing can stand for itself. -/
def escapedSnapshot : String :=
  "\x7b\"configuration\":\x7b\"n\":18446744073709551615,\"a\":[1.5,null]," ++
    "\"n\":-9223372036854775808,\"s\":\x7b\"\\u0022\\\\\\n\":\"\\u0001\"\x7d\x7d\x7d"

def escapedSettings : String :=
  "\x7b\"a\":[1.5,null],\"n\":-9223372036854775808,\"s\":\x7b\"\\\"\\\\\\n\":\"\\u0001\"\x7d\x7d"

theorem configuration_readBack_escaped :
    ∃ k, read .keyManager KeyManager.shape escapedSnapshot = .ok k ∧
      (Value.obj k.configuration).toText = escapedSettings ∧
      FloatsReadBack (memberFloats k.configuration) ∧
      ∃ r b, translateIn .asPut .keyManager escapedSnapshot (.always "") =
          .ok ((KeyManagerRecord.shape.toJson r).sorted, b) ∧
        Shape.freeForm.ofText true r.configuration = .ok k.configuration ∧
        KeyManagerRecord.shape.ofText true (KeyManagerRecord.shape.toJson r).sorted.toText =
          .ok r := by
  have hread : (read .keyManager KeyManager.shape escapedSnapshot).toOption.map (fun k =>
      ((Value.obj k.configuration).toText, memberFloats k.configuration)) =
        some (escapedSettings, [⟨false, 6755399441055744, -52, by decide +kernel⟩]) := by
    decide +kernel
  obtain ⟨k, hk, hfacts⟩ := Option.map_eq_some_iff.mp hread
  obtain ⟨htext, hfloats⟩ := Prod.mk.inj hfacts
  have hback : FloatsReadBack (memberFloats k.configuration) := by
    rw [hfloats]
    intro x hx
    rw [List.mem_singleton.mp hx]
    refine ⟨⟨false, ['1'], ['5'], none, false⟩, ?_, by decide +kernel⟩
    have hone : Json.Number.text (.float ⟨false, 6755399441055744, -52, by decide +kernel⟩) =
        ['1', '.', '5'] := by decide +kernel
    rw [hone]
    rfl
  have hok := eq_ok_of_toOption hk
  obtain ⟨r, b, htranslate, _, hconfiguration, hrecord⟩ :=
    configuration_readBack .asPut (.always "") hok hback
  exact ⟨k, hok, htext, hback, r, b, htranslate, hconfiguration true,
    hrecord _ (.inr rfl) _ (.inl rfl)⟩

end Snapshot
end Catalog
end PlaneBridge
