import PlaneBridge.Config.Adapter
import PlaneBridge.Proofs.Shape.Places

/-!
# What a document says about the configuration

The configuration that a document holds is what its root says to the configuration's shape.  Of a
document that is a tree more is known: the configuration hangs on what the tree says, and not on its
anchors or on entries of unknown names.
-/

namespace PlaneBridge.Config

open Json (Path)
open Yaml (Node)

/-- The path through members of these names. -/
def through (names : List String) : Path := names.map .member

theorem AdapterConfig.shape_regular : AdapterConfig.shape.regular = true := by decide +kernel

theorem ofYaml_of_parse {text : String} {c : AdapterConfig}
    (h : AdapterConfig.parse text = .ok c) : AdapterConfig.shape.ofYaml text = some c := by
  rw [AdapterConfig.parse] at h
  split at h
  · rename_i hread
    cases h
    exact hread
  · cases h

theorem read?_of_parse {text : String} {root : Node} (hroot : Yaml.root? text.toList = some root)
    {c : AdapterConfig} (h : AdapterConfig.parse text = .ok c) :
    AdapterConfig.shape.read? root.anchored root = some c :=
  Shape.read?_of_ofYaml AdapterConfig.shape_regular hroot (ofYaml_of_parse h)

/-- The two sections are read from their own entries. -/
theorem sections_of_read? {anchors : List (Nat × Node)} {root : Node} {c : AdapterConfig}
    (h : AdapterConfig.shape.read? anchors root = some c) :
    ∃ enforcer analytics,
      (root.step? anchors (.member "enforcer")).mapM (EnforcerSection.shape.read? anchors) =
        some enforcer ∧
      (root.step? anchors (.member "analytics")).mapM (AnalyticsSection.shape.read? anchors) =
        some analytics ∧
      c.enforcer = enforcer.getD {} ∧ c.analytics = analytics.getD {} := by
  rw [AdapterConfig.shape, Shape.read?] at h
  obtain ⟨es, hes, h⟩ := Option.bind_eq_some_iff.mp h
  obtain ⟨slots, hslots, h⟩ := Option.bind_eq_some_iff.mp h
  rw [Fields.read?] at hslots
  obtain ⟨enforcer, henforcer, hslots⟩ := Option.bind_eq_some_iff.mp hslots
  obtain ⟨rest, hrest, hslots⟩ := Option.bind_eq_some_iff.mp hslots
  rw [Fields.read?] at hrest
  obtain ⟨analytics, hanalytics, hrest⟩ := Option.bind_eq_some_iff.mp hrest
  obtain ⟨_, _, hrest⟩ := Option.bind_eq_some_iff.mp hrest
  cases hrest
  cases hslots
  cases h
  rw [Node.step?, Node.step?, hes]
  exact ⟨enforcer, analytics, henforcer, hanalytics, rfl, rfl⟩

/-! ## Documents that are trees -/

/-- The text is a document that is a tree. -/
def IsTreeDocument (text : String) (root : Node) : Prop :=
  Yaml.root? text.toList = some root ∧ root.IsTree

/-- What a tree says does not hang on its anchors. -/
theorem IsTreeDocument.ofYaml {text : String} {root : Node} (h : IsTreeDocument text root)
    (anchors : List (Nat × Node)) :
    AdapterConfig.shape.ofYaml text = AdapterConfig.shape.read? anchors root :=
  Shape.ofYaml_of_isTree AdapterConfig.shape_regular h.1 h.2 anchors

theorem IsTreeDocument.read? {text : String} {root : Node} (h : IsTreeDocument text root)
    {c : AdapterConfig} (hc : AdapterConfig.parse text = .ok c) (anchors : List (Nat × Node)) :
    AdapterConfig.shape.read? anchors root = some c :=
  (h.ofYaml anchors).symm.trans (ofYaml_of_parse hc)

theorem IsTreeDocument.parse_of_known {text text' : String} {root root' : Node}
    (hdoc : IsTreeDocument text root) (hdoc' : IsTreeDocument text' root')
    (h : AdapterConfig.shape.known root' = AdapterConfig.shape.known root) :
    AdapterConfig.parse text' = AdapterConfig.parse text := by
  have hknown : ∀ {n : Node}, n.IsTree →
      AdapterConfig.shape.read? [] (AdapterConfig.shape.known n) =
        AdapterConfig.shape.read? [] n :=
    fun hn => AdapterConfig.shape.read?_known AdapterConfig.shape_regular hn
  have hread : AdapterConfig.shape.ofYaml text' = AdapterConfig.shape.ofYaml text := by
    rw [hdoc.ofYaml [], hdoc'.ofYaml [], ← hknown hdoc.2, ← hknown hdoc'.2, h]
  rw [AdapterConfig.parse, AdapterConfig.parse, hread]

end PlaneBridge.Config
