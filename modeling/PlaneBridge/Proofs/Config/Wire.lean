import PlaneBridge.Proofs.Config.Marshal

/-!
# The configuration on the wire

What a document says about the enforcer and its analytics is sent under other names and in another
arrangement.  `wireLayout` is that arrangement: a part of the configuration at each of its places,
and no part within another.  It leaves out the control plane and nothing else, so each leaf of the
two sections has a place of its own on the wire, and a configuration's two sections can be told
from what is sent.
-/

namespace PlaneBridge.Config

open Json (Value Path Step Layout)
open Yaml (Node)

/-! ## The arrangement -/

def wireLayout : Layout :=
  .obj
    [ ("jwtGenerator", .part (through ["enforcer", "jwtGenerator"])),
      ("jwtIssuer", JwtIssuer.layout.under (through ["enforcer", "jwtIssuer"])),
      ("authService", .part (through ["enforcer", "authService"])),
      ("security", .part (through ["enforcer", "security"])),
      ("cache", Cache.layout.under (through ["enforcer", "cache"])),
      ("tracing", .part (through ["enforcer", "tracing"])),
      ("metrics", .part (through ["enforcer", "metrics"])),
      ("analytics", AnalyticsSection.layout.under (through ["analytics"])),
      ("throttling", .part (through ["enforcer", "throttling"])),
      ("management", .part (through ["enforcer", "management"])),
      ("restServer", .part (through ["enforcer", "restServer"])),
      ("filters", .part (through ["enforcer", "filters"])) ]

/-- What is sent of a configuration. -/
def AdapterConfig.wire (c : AdapterConfig) : Value := EnforcerConfig.shape.toJson c.enforcerConfig

/-- Each part of the message is written as its section has it. -/
theorem wire_eq_fill (c : AdapterConfig) :
    c.wire = wireLayout.fill (AdapterConfig.shape.toJson c) := by
  simp only [AdapterConfig.wire, EnforcerConfig.shape, Shape.toJson_record, Fields.toMembers,
    AdapterConfig.enforcerConfig, EnforcerConfig.ofSections, JwtGenerator.toJson_marshal,
    JwtIssuer.toJson_marshal, Service.toJson_marshal, Security.toJson_marshal,
    Cache.toJson_marshal, Tracing.toJson_marshal, Metrics.toJson_marshal,
    AnalyticsSection.toJson_marshal, Throttling.toJson_marshal, Management.toJson_marshal,
    RestServer.toJson_marshal, Shape.toJson_list_map Filter.toJson_marshal]
  simp only [wireLayout, Layout.fill, Json.fillMembers, Layout.fill_under]
  rfl

/-- Where a document's path leads on the wire. -/
def wirePath : Path → Path
  | .member "enforcer" :: .member "cache" :: .member "enabled" :: p =>
    .member "cache" :: .member "enable" :: p
  | .member "enforcer" :: .member "jwtIssuer" :: .member "jwtUser" :: p =>
    .member "jwtIssuer" :: .member "jwtUsers" :: p
  | .member "enforcer" :: p => p
  | .member "analytics" :: .member "enforcer" :: .member "configProperties" :: p =>
    .member "analytics" :: .member "configProperties" :: p
  | .member "analytics" :: .member "enforcer" :: .member "logReceiver" :: p =>
    .member "analytics" :: .member "service" :: p
  | p => p

theorem wirePath_of_mem_moves :
    ∀ m ∈ wireLayout.moves [], ∀ q, wirePath (m.1 ++ q) = m.2 ++ q := by
  simp [wireLayout, JwtIssuer.layout, Cache.layout, AnalyticsSection.layout, Layout.under,
    Json.underMembers, Layout.moves, Json.movesMembers, sameNames, through, wirePath]

theorem wireLayout_apart : (wireLayout.moves []).Pairwise fun m n => m.1.Apart n.1 := by
  decide +kernel

theorem wireLayout_regular : wireLayout.regular = true := by decide +kernel

theorem shape_covered :
    AdapterConfig.shape.covered (through ["controlPlane"] :: (wireLayout.moves []).map (·.1)) [] =
      true := by
  decide +kernel

/-- The path lies in one of the sections that are sent. -/
def IsSent (p : Path) : Prop :=
  through ["enforcer"] <+: p ∨ through ["analytics"] <+: p

theorem IsSent.not_controlPlane {p : Path} (h : IsSent p) : ¬ through ["controlPlane"] <+: p := by
  intro hpre
  rcases h with h | h
  all_goals
    obtain ⟨q, rfl⟩ := h
    have hname := (List.cons_prefix_cons.mp hpre).1
    simp at hname

/-- What is sent of a leaf, a list or a map lies within one of the parts. -/
theorem exists_move {p : Path} (hp : IsSent p) {sub : Σ α, Shape α}
    (hsub : AdapterConfig.shape.at? p = some sub) (hrecord : sub.2.isRecord = false) :
    ∃ m ∈ wireLayout.moves [], ∃ q, p = m.1 ++ q ∧ wirePath p = m.2 ++ q := by
  obtain ⟨place, hplace, hpre⟩ := Shape.exists_prefix_of_covered shape_covered hsub hrecord
  rcases List.mem_cons.mp hplace with rfl | hplace
  · exact absurd hpre hp.not_controlPlane
  · obtain ⟨m, hm, rfl⟩ := List.mem_map.mp hplace
    obtain ⟨q, rfl⟩ := hpre
    exact ⟨m, hm, q, rfl, wirePath_of_mem_moves m hm q⟩

theorem wire_at? (c : AdapterConfig) {p : Path} (hp : IsSent p) {sub : Σ α, Shape α}
    (hsub : AdapterConfig.shape.at? p = some sub) (hrecord : sub.2.isRecord = false) {v : Value}
    (hv : (AdapterConfig.shape.toJson c).at? p = some v) : c.wire.at? (wirePath p) = some v := by
  obtain ⟨m, hm, q, rfl, hwire⟩ := exists_move hp hsub hrecord
  rw [Value.at?_append] at hv
  obtain ⟨u, hu, hv⟩ := Option.bind_eq_some_iff.mp hv
  obtain ⟨r, htarget, hat⟩ :=
    Layout.at?_fill (v := AdapterConfig.shape.toJson c) wireLayout wireLayout_regular hm
  rw [hwire, htarget, wire_eq_fill, List.nil_append, Value.at?_append, hat, hu]
  exact hv

theorem wire_modify {c c' : AdapterConfig} {p : Path} (hp : IsSent p) {sub : Σ α, Shape α}
    (hsub : AdapterConfig.shape.at? p = some sub) (hrecord : sub.2.isRecord = false) {v : Value}
    (hv : (AdapterConfig.shape.toJson c).at? p = some v) {f : Value → Value}
    (h : AdapterConfig.shape.toJson c' = (AdapterConfig.shape.toJson c).modify f p) :
    c'.wire = c.wire.modify f (wirePath p) := by
  obtain ⟨m, hm, q, rfl, hwire⟩ := exists_move hp hsub hrecord
  rw [Value.at?_append] at hv
  obtain ⟨u, hu, _⟩ := Option.bind_eq_some_iff.mp hv
  obtain ⟨r, htarget, hfill⟩ := Layout.fill_modify f q (Option.isSome_of_eq_some hu) wireLayout
    wireLayout_regular wireLayout_apart hm
  rw [wire_eq_fill, h, hfill, hwire, htarget, wire_eq_fill, List.nil_append]

theorem sections_of_wire {c c' : AdapterConfig} (h : c.wire = c'.wire) :
    c.enforcer = c'.enforcer ∧ c.analytics = c'.analytics := by
  have hregular : EnforcerConfig.shape.regular = true := by decide +kernel
  exact EnforcerConfig.ofSections_injective (Shape.toJson_injective hregular h)

/-! ## What a document says on the wire -/

section

variable {text : String} {root : Node} (hdoc : IsTreeDocument text root) {c : AdapterConfig}
  (hc : AdapterConfig.parse text = .ok c)

include hdoc hc

/-- What the document gives is sent, whether a leaf, a list or a map. -/
theorem IsTreeDocument.wire_given {p : Path} (hp : IsSent p) {m : Node}
    (hm : root.at? root.anchored p = some m) {sub : Σ α, Shape α}
    (hsub : AdapterConfig.shape.at? p = some sub) (hrecord : sub.2.isRecord = false) :
    ∃ b, sub.2.read? root.anchored m = some b ∧ c.wire.at? (wirePath p) = some (sub.2.toJson b) := by
  obtain ⟨b, hb, hat⟩ := Shape.at?_of_read? (hdoc.read? hc root.anchored) hm hsub
  exact ⟨b, hb, wire_at? c hp hsub hrecord hat⟩

theorem IsTreeDocument.wire_leaf {p : Path} (hp : IsSent p) {m : Node}
    (hm : root.at? root.anchored p = some m) {sub : Σ α, Shape α}
    (hsub : AdapterConfig.shape.at? p = some sub) (hscalar : sub.2.isScalar = true) :
    ∃ b, sub.2.scalar? m = some b ∧ c.wire.at? (wirePath p) = some (sub.2.toJson b) := by
  obtain ⟨b, hb, hat⟩ := hdoc.wire_given hc hp hm hsub (Shape.isRecord_of_isScalar hscalar)
  rw [Shape.read?_scalar hscalar, (hdoc.2.within hm).resolve] at hb
  exact ⟨b, hb, hat⟩

theorem IsTreeDocument.wire_list {p : Path} (hp : IsSent p) {m : Node}
    (hm : root.at? root.anchored p = some m) {α : Type} {item : Shape α}
    (hsub : AdapterConfig.shape.at? p = some ⟨_, .list item⟩) :
    ∃ items vs, m.items? = some items ∧ c.wire.at? (wirePath p) = some (.arr vs) ∧
      List.Forall₂ (fun n v => ∃ a, item.read? root.anchored n = some a ∧ v = item.toJson a)
        items vs := by
  obtain ⟨as, has, hat⟩ := hdoc.wire_given hc hp hm hsub rfl
  rw [Shape.read?_list, (hdoc.2.within hm).resolve] at has
  obtain ⟨items, hitems, has⟩ := Option.bind_eq_some_iff.mp has
  refine ⟨items, as.map item.toJson, hitems, hat, ?_⟩
  rw [List.forall₂_map_right_iff]
  exact (forall₂_of_mapM has).imp fun n a ha => ⟨a, ha, rfl⟩

theorem IsTreeDocument.wire_map {p : Path} (hp : IsSent p) {m : Node}
    (hm : root.at? root.anchored p = some m)
    (hsub : AdapterConfig.shape.at? p = some ⟨_, .textMap⟩) :
    ∃ es ms, m.members? root.anchored = some es ∧ c.wire.at? (wirePath p) = some (.obj ms) ∧
      (ms.map (·.1)).Perm (es.map (·.1)) := by
  obtain ⟨texts, htexts, hat⟩ := hdoc.wire_given hc hp hm hsub rfl
  rw [Shape.read?] at htexts
  obtain ⟨es, hes, htexts⟩ := Option.bind_eq_some_iff.mp htexts
  obtain ⟨pairs, hpairs, htexts⟩ := Option.bind_eq_some_iff.mp htexts
  cases htexts
  refine ⟨es, _, hes, hat, ?_⟩
  have hnodup := (hdoc.2.within hm).nodup_members? hes
  rw [List.map_map]
  show ((Entries.sort pairs).map (·.1)).Perm _
  rw [List.perm_ext_iff_of_nodup (Entries.sort_increasing pairs).nodup hnodup]
  have hnames := Entries.names_of_forall₂ (R := fun n t => Node.textIn root.anchored n = some t)
    (Node.texts_forall₂ hpairs)
  intro name
  rw [Entries.mem_names_sort, hnames]

theorem IsTreeDocument.wire_replaced {p : Path} (hp : IsSent p) {m : Node}
    (hm : root.at? root.anchored p = some m) {sub : Σ α, Shape α}
    (hsub : AdapterConfig.shape.at? p = some sub) (hscalar : sub.2.isScalar = true) {w : Node}
    {b : sub.1} (hw : sub.2.scalar? w = some b) {text' : String}
    (htext' : Yaml.root? text'.toList = some (root.modify (fun _ => w) p)) :
    ∃ c', AdapterConfig.parse text' = .ok c' ∧
      c'.wire = c.wire.modify (fun _ => sub.2.toJson b) (wirePath p) ∧
      ∀ q, ¬ q <+: wirePath p → c'.wire.at? q = c.wire.at? q := by
  have hrecord := Shape.isRecord_of_isScalar hscalar
  have hwtree : ∀ n : Node, n.IsTree → w.IsTree := fun _ _ => Shape.isTree_of_scalar? hw
  have hdoc' : IsTreeDocument text' (root.modify (fun _ => w) p) :=
    ⟨htext', hdoc.2.modify hwtree p⟩
  have hread := hdoc.read? hc root.anchored
  obtain ⟨a, ha, hat⟩ := Shape.at?_of_read? hread hm hsub
  have hread' : sub.2.read? root.anchored w = some b := by
    rw [Shape.read?_scalar hscalar, (Shape.isTree_of_scalar? hw).resolve]
    exact hw
  obtain ⟨c', hc', hjson⟩ := Shape.read?_modify AdapterConfig.shape_regular hdoc.2 hread hm hsub
    hwtree ha hread' (g := fun _ => sub.2.toJson b) rfl
  have hwire := wire_modify hp hsub hrecord hat hjson
  refine ⟨c', ?_, hwire, fun q hq => ?_⟩
  · -- the changed document has anchors of its own, but a tree is read without them
    rw [AdapterConfig.parse, hdoc'.ofYaml root.anchored, hc']
  · rw [hwire]
    exact Shape.at?_modify_scalar hscalar (wire_at? c hp hsub hrecord hat) b hq

end

/-! ## What is not sent -/

theorem IsTreeDocument.wire_of_sections {text text' : String} {root root' : Node}
    (hdoc : IsTreeDocument text root) (hdoc' : IsTreeDocument text' root') {c c' : AdapterConfig}
    (hc : AdapterConfig.parse text = .ok c) (hc' : AdapterConfig.parse text' = .ok c')
    (h : ∀ name ∈ ["enforcer", "analytics"],
      root'.at? root'.anchored (through [name]) = root.at? root.anchored (through [name])) :
    c'.wire = c.wire := by
  have hstep : ∀ name ∈ ["enforcer", "analytics"],
      root'.step? [] (.member name) = root.step? [] (.member name) := by
    intro name hname
    have hsame := h name hname
    rw [hdoc.2.at? [], hdoc'.2.at? []] at hsame
    simpa [through, Node.at?] using hsame
  obtain ⟨e, a, he, ha, hce, hca⟩ := sections_of_read? (hdoc.read? hc [])
  obtain ⟨e', a', he', ha', hce', hca'⟩ := sections_of_read? (hdoc'.read? hc' [])
  rw [hstep "enforcer" (.head _), he] at he'
  rw [hstep "analytics" (.tail _ (.head _)), ha] at ha'
  cases he'
  cases ha'
  rw [AdapterConfig.wire, AdapterConfig.wire, AdapterConfig.enforcerConfig,
    AdapterConfig.enforcerConfig, hce, hca, hce', hca']

/-! ## The wire as a whole -/

/-- How a document that is a tree with this root, and is read as a configuration, shows on the
wire. -/
structure ShowsOnWire (text : String) (root : Node) (c : AdapterConfig) : Prop where
  /-- A leaf has its value at its own place. -/
  leaf : ∀ {p : Path}, IsSent p → ∀ {m : Node}, root.at? root.anchored p = some m →
    ∀ {sub : Σ α, Shape α}, AdapterConfig.shape.at? p = some sub → sub.2.isScalar = true →
    ∃ b, sub.2.scalar? m = some b ∧ c.wire.at? (wirePath p) = some (sub.2.toJson b)
  /-- A list has its elements in their order. -/
  list : ∀ {p : Path}, IsSent p → ∀ {m : Node}, root.at? root.anchored p = some m →
    ∀ {α : Type} {item : Shape α}, AdapterConfig.shape.at? p = some ⟨_, .list item⟩ →
    ∃ items vs, m.items? = some items ∧ c.wire.at? (wirePath p) = some (.arr vs) ∧
      List.Forall₂ (fun n v => ∃ a, item.read? root.anchored n = some a ∧ v = item.toJson a)
        items vs
  /-- A map has just its keys. -/
  map : ∀ {p : Path}, IsSent p → ∀ {m : Node}, root.at? root.anchored p = some m →
    AdapterConfig.shape.at? p = some ⟨_, .textMap⟩ →
    ∃ es ms, m.members? root.anchored = some es ∧ c.wire.at? (wirePath p) = some (.obj ms) ∧
      (ms.map (·.1)).Perm (es.map (·.1))
  /-- Another value for a leaf is sent in its place, and all else is the same. -/
  replaced : ∀ {p : Path}, IsSent p → ∀ {m : Node}, root.at? root.anchored p = some m →
    ∀ {sub : Σ α, Shape α}, AdapterConfig.shape.at? p = some sub → sub.2.isScalar = true →
    ∀ {w : Node} {b : sub.1}, sub.2.scalar? w = some b →
    ∀ {text' : String}, Yaml.root? text'.toList = some (root.modify (fun _ => w) p) →
    ∃ c', AdapterConfig.parse text' = .ok c' ∧
      c'.wire = c.wire.modify (fun _ => sub.2.toJson b) (wirePath p) ∧
      ∀ q, ¬ q <+: wirePath p → c'.wire.at? q = c.wire.at? q
  /-- Entries of unknown names count for nothing. -/
  unknown : ∀ {text' : String} {root' : Node}, IsTreeDocument text' root' →
    AdapterConfig.shape.known root' = AdapterConfig.shape.known root →
    AdapterConfig.parse text' = AdapterConfig.parse text
  /-- So does all that is not in the two sections. -/
  controlPlane : ∀ {text' : String} {root' : Node}, IsTreeDocument text' root' →
    ∀ {c' : AdapterConfig}, AdapterConfig.parse text' = .ok c' →
    (∀ name ∈ ["enforcer", "analytics"],
      root'.at? root'.anchored (through [name]) = root.at? root.anchored (through [name])) →
    c'.wire = c.wire

/-- What is sent shows all that a document says about the two sections and nothing else. -/
theorem configuration_wire :
    (∀ {text : String} {root : Node} {c : AdapterConfig}, IsTreeDocument text root →
      AdapterConfig.parse text = .ok c → ShowsOnWire text root c) ∧
    (∀ (c : AdapterConfig) (e : Environment), (c.override e).wire = c.wire) ∧
    (∀ c c' : AdapterConfig, c.wire = c'.wire →
      c.enforcer = c'.enforcer ∧ c.analytics = c'.analytics) := by
  refine ⟨fun hdoc hc => ?_, fun _ _ => rfl, fun _ _ => sections_of_wire⟩
  exact
    { leaf := hdoc.wire_leaf hc
      list := hdoc.wire_list hc
      map := hdoc.wire_map hc
      replaced := hdoc.wire_replaced hc
      unknown := fun hdoc' h => hdoc.parse_of_known hdoc' h
      controlPlane := fun hdoc' _ hc' h => hdoc.wire_of_sections hdoc' hc hc' h }

/-- A document that says whether there is a cache, and gives a filter two properties. -/
def cachedText (enabled : String) : String :=
  "enforcer:\n  cache: \x7benabled: " ++ enabled ++ "\x7d\n" ++
    "  filters: [configProperties: \x7bb: x, a: y\x7d]\n"

def cachedRoot (enabled : String) : Node :=
  let word (text : String) : Node := .scalar Node.bare text true
  .mapping Node.bare [(word "enforcer", .mapping Node.bare
    [ (word "cache", .mapping Node.bare [(word "enabled", word enabled)]),
      (word "filters", .sequence Node.bare [.mapping Node.bare [(word "configProperties",
        .mapping Node.bare [(word "b", word "x"), (word "a", word "y")])]]) ])]

theorem configuration_wire_cached :
    ∃ c c' ms, AdapterConfig.parse (cachedText "true") = .ok c ∧
      AdapterConfig.parse (cachedText "false") = .ok c' ∧
      c.wire.at? (through ["cache", "enable"]) = some (.bool true) ∧
      c'.wire = c.wire.modify (fun _ => .bool false) (through ["cache", "enable"]) ∧
      c.wire.at? [.member "filters", .item 0, .member "configProperties"] = some (.obj ms) ∧
      (ms.map (·.1)).Perm ["b", "a"] := by
  let leaf : Path := through ["enforcer", "cache", "enabled"]
  let properties : Path :=
    [.member "enforcer", .member "filters", .item 0, .member "configProperties"]
  let root : Node := cachedRoot "true"
  have hdoc : IsTreeDocument (cachedText "true") root := by
    refine ⟨by decide +kernel, ?_⟩
    simp [root, cachedRoot, Node.IsTree, Node.EntriesTree, Node.ItemsTree, Node.named, Node.text?]
  obtain ⟨c, hc⟩ : ∃ c, AdapterConfig.shape.ofYaml (cachedText "true") = some c :=
    Option.isSome_iff_exists.mp (by decide +kernel)
  have hparse : AdapterConfig.parse (cachedText "true") = .ok c := by rw [AdapterConfig.parse, hc]
  have hshows := configuration_wire.1 hdoc hparse
  have hleaf : root.at? root.anchored leaf = some (.scalar Node.bare "true" true) := by
    decide +kernel
  have hflag : AdapterConfig.shape.at? leaf = some ⟨_, .flag⟩ := rfl
  have hscalar : ∀ value : Bool,
      Shape.flag.scalar? (.scalar Node.bare (if value then "true" else "false") true) =
        some value := by
    decide +kernel
  obtain ⟨b, hb, hat⟩ := hshows.leaf (.inl ⟨_, rfl⟩) hleaf hflag rfl
  cases (hscalar true).symm.trans hb
  obtain ⟨c', hparse', hwire, _⟩ := hshows.replaced (.inl ⟨_, rfl⟩) hleaf hflag rfl (hscalar false)
    (show Yaml.root? (cachedText "false").toList = _ by decide +kernel)
  obtain ⟨m, hm⟩ := Option.isSome_iff_exists.mp
    (show (root.at? root.anchored properties).isSome by decide +kernel)
  obtain ⟨es, ms, hes, hms, hperm⟩ := hshows.map (.inl ⟨_, rfl⟩) hm rfl
  have hnames : ((root.at? root.anchored properties).bind (·.members? root.anchored)).map
      (List.map (·.1)) = some ["b", "a"] := by
    decide +kernel
  rw [hm, Option.bind_some, hes] at hnames
  exact ⟨c, c', ms, hparse, hparse', hat, hwire, hms, Option.some.inj hnames ▸ hperm⟩

end PlaneBridge.Config
