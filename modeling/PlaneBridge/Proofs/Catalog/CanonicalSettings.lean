import PlaneBridge.Proofs.Catalog.Configuration
import PlaneBridge.Proofs.Json.Alike
import PlaneBridge.Proofs.Json.Canonical
import PlaneBridge.Proofs.Shape.Spelled

/-!
# One text for the same settings

The settings of a key manager are read as the value that its snapshot says of them, and that value
is written in the canonical grammar.  So snapshots whose settings are alike lead to records with the
same text, however their settings were spelled: `configuration_canonical`.
-/

namespace PlaneBridge.Catalog.Snapshot

open Json (Value Node Writes Canonical)

/-- The settings in a snapshot of a key manager, where it names none an object without members. -/
def settingsNode (n : Node) : Node := (n.given? 4 "configuration").getD (.obj [] .closed)

/-- A key manager that has been translated has settings, and its record has them as text. -/
theorem exists_settings {arrangement : Arrangement} {resolver : Tenant.Resolver} {text : String}
    {v : Value} {b : Tenant.Backfill}
    (h : translateIn arrangement .keyManager text resolver = .ok (v, b)) :
    ∃ n r members, Writes n text ∧ v = (KeyManagerRecord.shape.toJson r).sorted ∧
      (Value.obj members).Says (settingsNode n) ∧ (Value.obj members).Fits (some 127) 1 ∧
      r.configuration = (Value.obj members).toText := by
  cases hread : read .keyManager KeyManager.shape text with
  | error e =>
    have herror : translateIn arrangement .keyManager text resolver = .error e :=
      translateIn_eq_error.mpr hread
    cases h.symm.trans herror
  | ok k =>
    obtain ⟨r, b', hrecord, htranslate⟩ := translateIn_keyManager arrangement resolver hread
    cases h.symm.trans htranslate
    have htext : KeyManager.shape.ofText false text = .ok k := by
      rw [read] at hread
      cases htext : KeyManager.shape.ofText false text with
      | error e =>
        rw [htext] at hread
        cases hread
      | ok k' =>
        rw [htext] at hread
        rw [Except.ok.inj hread]
    obtain ⟨n, hwrites, -⟩ := Shape.ofText_eq_ok_iff.mp htext
    obtain ⟨hsay, hincreasing, hfit⟩ := says_configuration hread
    refine ⟨n, r, k.configuration, hwrites, rfl, ?_, ⟨rfl, hincreasing, hfit⟩, ?_⟩
    · rw [configurationNode, hwrites.ofText] at hsay
      rw [settingsNode]
      cases hgiven : n.given? 4 "configuration" with
      | some m =>
        simp only [hgiven] at hsay
        exact hsay
      | none =>
        simp only [hgiven] at hsay
        rw [hsay]
        exact ⟨[], rfl, .nil, fun _ => Iff.rfl, trivial⟩
    · rw [KeyManager.record_of_ok resolver (k := k.settings) rfl] at hrecord
      rw [← Option.some.inj (congrArg Prod.fst hrecord)]
      rfl

/-- Key managers whose settings are alike have records with the same configuration text, and it is
canonical. -/
theorem configuration_canonical {first second : Arrangement} {resolver resolver' : Tenant.Resolver}
    {text text' : String} {v v' : Value} {b b' : Tenant.Backfill}
    (h : translateIn first .keyManager text resolver = .ok (v, b))
    (h' : translateIn second .keyManager text' resolver' = .ok (v', b')) :
    ∃ n n' r r', (Writes n text ∧ v = (KeyManagerRecord.shape.toJson r).sorted ∧
        Canonical r.configuration.toList) ∧
      (Writes n' text' ∧ v' = (KeyManagerRecord.shape.toJson r').sorted ∧
        Canonical r'.configuration.toList) ∧
      ((settingsNode n).Alike (settingsNode n') → r.configuration = r'.configuration) := by
  obtain ⟨n, r, members, hwrites, hv, hsay, hfits, htext⟩ := exists_settings h
  obtain ⟨n', r', members', hwrites', hv', hsay', hfits', htext'⟩ := exists_settings h'
  refine ⟨n, n', r, r', ⟨hwrites, hv, ?_⟩, ⟨hwrites', hv', ?_⟩, fun halike => ?_⟩
  · rw [htext, Value.toText, String.toList_ofList]
    exact Value.canonical_compact _ hfits
  · rw [htext', Value.toText, String.toList_ofList]
    exact Value.canonical_compact _ hfits'
  · rw [htext, htext', Value.eq_of_alike halike hsay hsay']

/-- Settings over lines, with one name twice and the least name last. -/
def spreadSnapshot : Value :=
  .obj [("configuration", .obj [("b", .bool true), ("b", .null), ("a", .arr [])])]

/-- The same settings on one line, with one name escaped. -/
def escapedName : String := "\x7b\"configuration\":\x7b\"\\u0061\":[],\"b\":null\x7d\x7d"

def escapedNode : Node :=
  .obj [(some "configuration",
    .obj [(some "a", .arr [] .closed), (some "b", .null)] .closed)] .closed

theorem writes_escapedNode : Writes escapedNode escapedName := by
  have hname : ∀ rest, Json.Text.scan [] (['\\', 'u', '0', '0', '6', '1', '"'] ++ rest) =
      .found (some "a") rest := by
    intro rest
    have hunit : Json.Text.hexUnit? '0' '0' '6' '1' = some 97 := by decide
    refine (Json.Text.scan_unit hunit).trans ?_
    rw [Json.Text.scan.eq_def]
    rfl
  have hsettings := Json.Spells.obj (.cons hname .nil (.noItems .nil) .nil
    (.last (Json.scan_quote "b") .nil .null .nil))
  refine ⟨_, [], ?_, .obj (.last (Json.scan_quote "configuration") .nil hsettings .nil), .nil⟩
  decide +kernel

theorem alike_spreadSnapshot :
    (settingsNode spreadSnapshot.node).Alike (settingsNode escapedNode) := by
  have hspread : settingsNode spreadSnapshot.node =
      .obj [(some "b", .bool true), (some "b", .null), (some "a", .arr [] .closed)] .closed := by
    simp [settingsNode, spreadSnapshot, Node.given?, Json.named, Entries.last?, Value.node,
      Json.memberNodes, Json.itemNodes]
  have hescaped : settingsNode escapedNode =
      .obj [(some "a", .arr [] .closed), (some "b", .null)] .closed := by
    simp [settingsNode, escapedNode, Node.given?, Json.named, Entries.last?]
  have hlast : ∀ name, Entries.last? name
      [("b", Node.bool true), ("b", .null), ("a", .arr [] .closed)] =
        Entries.last? name [("a", .arr [] .closed), ("b", .null)] := by
    intro name
    by_cases ha : "a" = name
    · subst ha
      rfl
    · simp only [Entries.last?, ha, if_false, Option.none_or]
      split <;> rfl
  rw [hspread, hescaped]
  refine @Node.Alike.obj [("b", .bool true), ("b", .null), ("a", .arr [] .closed)]
    [("a", .arr [] .closed), ("b", .null)] (fun name => ?_) fun name n m hn hm => ?_
  · rw [← not_iff_not, ← Entries.last?_eq_none, hlast, Entries.last?_eq_none]
  · rw [hlast, hm] at hn
    obtain rfl := Option.some.inj hn
    have hmem := Entries.mem_of_last? hm
    simp only [List.mem_cons, Prod.mk.injEq, List.not_mem_nil, or_false] at hmem
    rcases hmem with ⟨-, rfl⟩ | ⟨-, rfl⟩
    · exact .arr .nil
    · exact .leaf rfl

/-- The settings are alike, so they have one text. -/
theorem configuration_canonical_spread :
    ∃ v b v' b' r r',
      translateIn .asPut .keyManager spreadSnapshot.toPrettyText (.always "") = .ok (v, b) ∧
      translateIn .asPut .keyManager escapedName (.always "") = .ok (v', b') ∧
      v = (KeyManagerRecord.shape.toJson r).sorted ∧
      v' = (KeyManagerRecord.shape.toJson r').sorted ∧ r.configuration = r'.configuration ∧
      Canonical r.configuration.toList := by
  have hokay : (translateIn .asPut .keyManager spreadSnapshot.toPrettyText
      (.always "")).toOption.isSome := by decide +kernel
  have hokay' : (translateIn .asPut .keyManager escapedName (.always "")).toOption.isSome := by
    decide +kernel
  obtain ⟨⟨v, b⟩, h⟩ := Option.isSome_iff_exists.mp hokay
  obtain ⟨⟨v', b'⟩, h'⟩ := Option.isSome_iff_exists.mp hokay'
  replace h := eq_ok_of_toOption h
  replace h' := eq_ok_of_toOption h'
  obtain ⟨n, n', r, r', ⟨hwrites, hv, hcanonical⟩, ⟨hwrites', hv', -⟩, hsame⟩ :=
    configuration_canonical h h'
  have hn : n = spreadSnapshot.node := by
    refine hwrites.unique (Value.writes_printed ?_ (.inr rfl))
    exact fun _ hx => absurd hx List.not_mem_nil
  have hn' : n' = escapedNode := hwrites'.unique writes_escapedNode
  subst hn hn'
  exact ⟨v, b, v', b', r, r', h, h', hv, hv', hsame alike_spreadSnapshot,
    hcanonical⟩

end PlaneBridge.Catalog.Snapshot
