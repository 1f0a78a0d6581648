import PlaneBridge.Config.Load
import PlaneBridge.Proofs.Config.Document

/-!
# The ways to a configuration

A configuration comes from a document, from a file under an environment, or from the defaults under
an environment where there is no file.  Each way has its own order of reading, overriding and
checking, and each leaves something out.  They agree nevertheless, `entryPoints_agree`: a file under
a silent environment is its document, no file is an empty one, and nothing that the environment
replaces goes to the enforcer or names the tenant domain.
-/

namespace PlaneBridge

/-! ## Files that hold a text -/

namespace Disk

/-- The path leads to a file that holds this text. -/
def Holds (disk : Disk) (path text : String) : Prop :=
  ∃ content, disk path = .ok (.file content) ∧ String.fromUTF8? content = some text

theorem Holds.readText {disk : Disk} {path text : String} (h : disk.Holds path text) :
    disk.readText path = .ok text := by
  obtain ⟨content, hfile, htext⟩ := h
  simp only [Disk.readText, Disk.read, hfile, bind, Except.bind, pure, Except.pure, htext]

theorem readText_of_not_utf8 {disk : Disk} {path : String} {content : ByteArray}
    (hfile : disk path = .ok (.file content)) (htext : String.fromUTF8? content = none) :
    disk.readText path = .error .notUtf8 := by
  simp only [readText, read, hfile, bind, Except.bind, pure, Except.pure, htext]
  rfl

theorem holds_of_readText {disk : Disk} {path text : String} (h : disk.readText path = .ok text) :
    disk.Holds path text := by
  cases hentry : disk path with
  | error failure =>
    simp only [Disk.readText, read, hentry, bind, Except.bind] at h
    cases h
  | ok entry =>
    cases entry with
    | directory =>
      simp only [Disk.readText, read, hentry, bind, Except.bind] at h
      cases h
    | file content =>
      cases htext : String.fromUTF8? content with
      | none =>
        rw [readText_of_not_utf8 hentry htext] at h
        cases h
      | some text' =>
        rw [Holds.readText ⟨content, hentry, htext⟩] at h
        cases h
        exact ⟨content, hentry, htext⟩

theorem holds_of_toUTF8 {disk : Disk} {path text : String}
    (h : disk path = .ok (.file text.toUTF8)) : disk.Holds path text :=
  ⟨text.toUTF8, h, dif_pos text.isValidUTF8⟩

end Disk

/-! ## Records of which nothing is given -/

theorem Fields.fill_empty {types : List Type} (row : Row types) :
    (Slots.empty : Slots types).fill row = row := by
  induction types with
  | nil => rfl
  | cons α types ih => exact Prod.ext rfl (ih row.2)

/-- A record of which a node says nothing is its default. -/
theorem Shape.ofNode_record_nil {anchors : List (Nat × Yaml.Node)} {R : Type} {types : List Type}
    (fields : Fields types) (default : R) (toRow : R → Row types) (ofRow : Row types → R)
    (hofRow : ∀ r, ofRow (toRow r) = r) (htoRow : ∀ row, toRow (ofRow row) = row)
    {n : Yaml.Node} (h : n.entries? = some []) :
    (Shape.record fields default toRow ofRow hofRow htoRow).ofNode anchors n = pure default := by
  have htarget : n.target anchors = pure n := by
    cases n with
    | reference => cases h
    | _ => rfl
  rw [ofNode, htarget, pure_bind, h]
  show (pure (ofRow (Slots.empty.fill (toRow default))) : Yaml.Following R) = _
  rw [Fields.fill_empty, hofRow]

namespace Config

/-! ## What the environment replaces -/

/-- The variables that replace settings. -/
def Environment.names : List String := [serviceUrl, username, password, enabled]

/-- No variable that replaces a setting is set. -/
def Environment.IsSilent (e : Environment) : Prop := ∀ name ∈ names, e name = none

namespace AdapterConfig

theorem override_of_isSilent {e : Environment} (h : e.IsSilent) (c : AdapterConfig) :
    c.override e = c := by
  have hcontrolPlane : c.controlPlane.override e = c.controlPlane := by
    simp only [Environment.IsSilent, Environment.names, List.forall_mem_cons] at h
    obtain ⟨hurl, husername, hpassword, henabled, -⟩ := h
    rw [ControlPlane.override, hurl, husername, hpassword, henabled]
    rfl
  rw [override, hcontrolPlane]

theorem enforcerConfig_override (c : AdapterConfig) (e : Environment) :
    (c.override e).enforcerConfig = c.enforcerConfig := rfl

theorem resolver_override (c : AdapterConfig) (e : Environment) :
    (c.override e).controlPlane.resolver = c.controlPlane.resolver := rfl

/-! ## Checking -/

theorem validated_eq_ok {c c' : AdapterConfig} : c.validated = .ok c' ↔ c.fault? = none ∧ c = c' := by
  rw [validated]
  cases c.fault? with
  | none => simp
  | some fault => simp

theorem validated_eq_error {c : AdapterConfig} {error : Error} :
    c.validated = .error error ↔ ∃ fault, c.fault? = some fault ∧ error = .invalid fault := by
  rw [validated]
  cases c.fault? with
  | none => simp
  | some fault => simp [eq_comm]

/-! ## Documents -/

/-- The text is a document that says nothing. -/
def IsEmptyDocument (document : String) : Prop :=
  ∃ root, Yaml.root? document.toList = some root ∧ root.entries? = some []

theorem parse_of_isEmptyDocument {document : String} (h : IsEmptyDocument document) :
    parse document = .ok {} := by
  obtain ⟨root, hroot, hentries⟩ := h
  have hread : shape.ofYaml document = some {} := by
    rw [Shape.ofYaml, hroot]
    show StateT.run' (shape.ofNode root.anchored root) _ = _
    rw [shape, Shape.ofNode_record_nil _ _ _ _ _ _ hentries]
    rfl
  rw [parse, hread]

/-- Comments say nothing. -/
example : IsEmptyDocument "---\n# nothing yet\n" := ⟨.empty, by rfl, rfl⟩

theorem parse_cases (document : String) :
    (∃ c, parse document = .ok c) ∨ parse document = .error .unparsable := by
  rw [parse]
  cases shape.ofYaml document with
  | some c => exact .inl ⟨c, rfl⟩
  | none => exact .inr rfl

/-! ## Files -/

section

variable {disk : Disk} {path : String}

theorem load_of_unreadable {failure : Disk.Failure} (h : disk.readText path = .error failure)
    (e : Environment) : load disk path e = (.error (.unreadable path failure.message), []) := by
  rw [load, h]

theorem load_of_unparsable {document : String} (hfile : disk.Holds path document)
    (h : parse document = .error .unparsable) (e : Environment) :
    load disk path e = (.error .unparsable, []) := by
  rw [load, hfile.readText]
  simp only [h]
  rfl

/-- A document that can be parsed is overridden and checked. -/
theorem load_of_parse {document : String} (hfile : disk.Holds path document) {c : AdapterConfig}
    (h : parse document = .ok c) (e : Environment) :
    load disk path e = ((c.override e).validated,
      if (c.override e).fault? = none then [.configurationLoaded path] else []) := by
  simp only [load, hfile.readText, h, bind, Except.bind, validated]
  cases (c.override e).fault? <;> rfl

/-- Where the environment is silent, a configuration that has no fault is loaded as it is. -/
theorem loadOrDefault_of_parse {document : String} (hfile : disk.Holds path document)
    {c : AdapterConfig} (h : parse document = .ok c) (hfault : c.fault? = none) {e : Environment}
    (he : e.IsSilent) : (loadOrDefault disk path e).1 = .ok c := by
  have hexists : disk.exists? path = true := by
    obtain ⟨content, hentry, -⟩ := hfile
    rw [Disk.exists?, hentry]
    rfl
  rw [loadOrDefault, if_pos hexists, load_of_parse hfile h, override_of_isSilent he]
  exact validated_eq_ok.mpr ⟨hfault, rfl⟩

theorem loadOrDefault_of_absent (habsent : disk.exists? path = false) {e : Environment}
    (he : e.IsSilent) : (loadOrDefault disk path e).1 = .ok {} := by
  rw [loadOrDefault, habsent, override_of_isSilent he]
  show validated {} = _
  exact validated_eq_ok.mpr ⟨rfl, rfl⟩

/-- A file cannot be read, or not be parsed, or its configuration is overridden and checked; only
the last has to do with the environment. -/
theorem load_cases (disk : Disk) (path : String) :
    (∃ failure : Disk.Failure, ∀ e,
      load disk path e = (.error (.unreadable path failure.message), [])) ∨
      (∀ e, load disk path e = (.error .unparsable, [])) ∨
      ∃ c : AdapterConfig, ∀ e, load disk path e = ((c.override e).validated,
        if (c.override e).fault? = none then [.configurationLoaded path] else []) := by
  cases htext : disk.readText path with
  | error failure => exact .inl ⟨failure, load_of_unreadable htext⟩
  | ok document =>
    have hfile : disk.Holds path document := Disk.holds_of_readText htext
    rcases parse_cases document with ⟨c, hc⟩ | hparse
    · exact .inr (.inr ⟨c, load_of_parse hfile hc⟩)
    · exact .inr (.inl (load_of_unparsable hfile hparse))

/-- Whether a document can be parsed is settled before the environment is asked. -/
theorem load_unparsable_congr {e : Environment} (h : (load disk path e).1 = .error .unparsable)
    (e' : Environment) : (load disk path e').1 = .error .unparsable := by
  rcases load_cases disk path with ⟨failure, hload⟩ | hload | ⟨c, hload⟩
  · rw [hload] at h
    cases h
  · rw [hload]
  · rw [hload, validated_eq_error] at h
    obtain ⟨fault, -, h⟩ := h
    cases h

/-- What has been loaded has been checked last. -/
theorem fault?_of_load {e : Environment} {c : AdapterConfig} (h : (load disk path e).1 = .ok c) :
    c.fault? = none := by
  rcases load_cases disk path with ⟨failure, hload⟩ | hload | ⟨parsed, hload⟩
  · rw [hload] at h
    cases h
  · rw [hload] at h
    cases h
  · rw [hload] at h
    obtain ⟨hfault, rfl⟩ := validated_eq_ok.mp h
    exact hfault

end

/-- The ways to a configuration agree.  A file under a silent environment is its document, and
under any environment the two share what goes to the enforcer and the connected tenant domain.  No
file is an empty one, but for the notice.  A file that is no text cannot be read, and whether a
document can be parsed does not hang on the environment. -/
theorem entryPoints_agree (disk : Disk) (path : String) :
    (∀ document, disk.Holds path document →
      (∀ e : Environment, e.IsSilent → (load disk path e).1 = ofYaml document) ∧
      (∀ e c c', (load disk path e).1 = .ok c → ofYaml document = .ok c' →
        c.enforcerConfig = c'.enforcerConfig ∧
          c.controlPlane.resolver = c'.controlPlane.resolver) ∧
      (IsEmptyDocument document → ∀ (without : Disk) (absent : String) (e : Environment),
        without.exists? absent = false →
          loadOrDefault without absent e =
            ((load disk path e).1, [.configurationAbsent absent]) ∧
          ((∃ c, load disk path e = (.ok c, [.configurationLoaded path])) ∨
            ∃ fault, load disk path e = (.error (.invalid fault), [])))) ∧
    (∀ content, disk path = .ok (.file content) → String.fromUTF8? content = none → ∀ e,
      load disk path e = (.error (.unreadable path Disk.Failure.notUtf8.message), [])) ∧
    (∀ e e', (load disk path e).1 = .error .unparsable →
      (load disk path e').1 = .error .unparsable) := by
  refine ⟨fun document hfile => ⟨?silent, ?shared, ?absent⟩, ?notUtf8, ?unparsable⟩
  case silent =>
    intro e he
    rcases parse_cases document with ⟨c, hc⟩ | hparse
    · rw [load_of_parse hfile hc, override_of_isSilent he, ofYaml, hc]
      rfl
    · rw [load_of_unparsable hfile hparse, ofYaml, hparse]
      rfl
  case shared =>
    intro e c c' hload hyaml
    rcases parse_cases document with ⟨parsed, hparsed⟩ | hparse
    · rw [load_of_parse hfile hparsed, validated_eq_ok] at hload
      rw [ofYaml, hparsed] at hyaml
      obtain ⟨-, rfl⟩ := hload
      obtain ⟨-, rfl⟩ := validated_eq_ok.mp hyaml
      exact ⟨enforcerConfig_override parsed e, resolver_override parsed e⟩
    · rw [load_of_unparsable hfile hparse] at hload
      cases hload
  case absent =>
    intro hempty without absent e habsent
    have hload := load_of_parse hfile (parse_of_isEmptyDocument hempty) e
    refine ⟨?_, ?_⟩
    · rw [loadOrDefault, habsent, hload]
      rfl
    · rw [hload, validated]
      cases (override {} e).fault? with
      | none => exact .inl ⟨_, rfl⟩
      | some fault => exact .inr ⟨fault, rfl⟩
  case notUtf8 =>
    intro content hfile htext e
    exact load_of_unreadable (Disk.readText_of_not_utf8 hfile htext) e
  case unparsable =>
    intro e e' h
    exact load_unparsable_congr h e'

/-- A document that has an address and a tenant domain and leaves the control plane disabled. -/
def addressedText : String := "controlPlane: \x7bserviceUrl: u, tenantDomain: t\x7d"

def addressed : AdapterConfig := { controlPlane := { serviceUrl := "u", tenantDomain := "t" } }

/-- A disk that holds one document, an empty one and a file that is no text. -/
def threeFiles : Disk
  | "addressed" => .ok (.file addressedText.toUTF8)
  | "empty" => .ok (.file "".toUTF8)
  | "bytes" => .ok (.file ⟨#[0xff]⟩)
  | _ => .error .notFound

/-- The environment that enables the control plane. -/
def enabling : Environment := fun name => if name = Environment.enabled then some "yes" else none

/-- With an address the control plane may be enabled.  Without one the defaults and the empty
document are refused alike. -/
theorem entryPoints_agree_threeFiles :
    (load threeFiles "addressed" fun _ => none).1 = ofYaml addressedText ∧
    (∃ c c', (load threeFiles "addressed" enabling).1 = .ok c ∧ ofYaml addressedText = .ok c' ∧
      c ≠ c' ∧ c.enforcerConfig = c'.enforcerConfig ∧
        c.controlPlane.resolver = c'.controlPlane.resolver) ∧
    loadOrDefault threeFiles "missing" enabling =
      (.error (.invalid .noServiceUrl), [.configurationAbsent "missing"]) ∧
    (load threeFiles "empty" enabling).1 = .error (.invalid .noServiceUrl) ∧
    (load threeFiles "bytes" enabling).1 =
      .error (.unreadable "bytes" "stream did not contain valid UTF-8") := by
  have haddressed : threeFiles.Holds "addressed" addressedText := Disk.holds_of_toUTF8 rfl
  have hblank : threeFiles.Holds "empty" "" := Disk.holds_of_toUTF8 rfl
  have hempty : IsEmptyDocument "" := ⟨.empty, rfl, rfl⟩
  obtain ⟨hsilent, hshared, -⟩ :=
    (entryPoints_agree threeFiles "addressed").1 addressedText haddressed
  obtain ⟨-, -, habsent⟩ := (entryPoints_agree threeFiles "empty").1 "" hblank
  obtain ⟨hbytes, -⟩ := (entryPoints_agree threeFiles "bytes").2
  have hparse : parse addressedText = .ok addressed := by
    rw [parse, show shape.ofYaml addressedText = some addressed by decide +kernel]
  have hload : (load threeFiles "addressed" enabling).1 = .ok (addressed.override enabling) := by
    rw [load_of_parse haddressed hparse]
    exact validated_eq_ok.mpr ⟨by decide +kernel, rfl⟩
  have hyaml : ofYaml addressedText = .ok addressed := by
    rw [ofYaml, hparse]
    show addressed.validated = _
    exact validated_eq_ok.mpr ⟨by decide +kernel, rfl⟩
  have hrefused : (load threeFiles "empty" enabling).1 = .error (.invalid .noServiceUrl) := by
    rw [load_of_parse hblank (parse_of_isEmptyDocument hempty)]
    exact validated_eq_error.mpr ⟨.noServiceUrl, by decide +kernel, rfl⟩
  refine ⟨hsilent _ fun _ _ => rfl, ⟨_, _, hload, hyaml, by decide +kernel, hshared _ _ _ hload hyaml⟩, ?_,
    hrefused, ?_⟩
  · rw [(habsent hempty threeFiles "missing" enabling rfl).1, hrefused]
  · rw [hbytes _ rfl (by decide +kernel)]
    rfl

end AdapterConfig
end Config
end PlaneBridge
