import PlaneBridge.Proofs.Catalog.KeyManager
import PlaneBridge.Proofs.CommandLine.Run
import PlaneBridge.Proofs.CommandLine.Words
import PlaneBridge.Proofs.Config.Load
import PlaneBridge.Proofs.Shape.Decoded
import PlaneBridge.Proofs.Shape.Spelled

/-!
# What is written

The two commands that send nothing write one document each.  That of `renderConfig` is decoded as
the enforcer's configuration, whatever the order of its maps, and that of `translate` as the message
itself, which is sorted and nested far less deeply than a reader allows: `Kind.message`.

`output_documents` says when there is a document and which, and that a run that fails writes
nothing.
-/

namespace PlaneBridge

open Json (Value)
open Catalog (Listing Arrangement)

theorem blanks_lineEnd : Json.Blanks "\n".toList := by
  intro c hc
  rw [List.mem_singleton.mp hc]
  decide

/-! ## The messages of snapshots -/

namespace Catalog.Snapshot

/-- The shape of the message that snapshots of a kind stand for. -/
def Kind.message : Kind → Σ α : Type, Shape α
  | .subscriptions => ⟨_, Listing.shape SubscriptionEntry.shape⟩
  | .applications => ⟨_, Listing.shape ApplicationEntry.shape⟩
  | .apis => ⟨_, Listing.shape ApiEntry.shape⟩
  | .applicationPolicies => ⟨_, Listing.shape ApplicationPolicyEntry.shape⟩
  | .subscriptionPolicies => ⟨_, Listing.shape SubscriptionPolicyEntry.shape⟩
  | .keyMappings => ⟨_, Listing.shape KeyMappingEntry.shape⟩
  | .keyManager => ⟨_, KeyManagerRecord.shape⟩

theorem Kind.regular_message (kind : Kind) :
    kind.message.2.regular = true ∧ kind.message.2.height ≤ 127 := by
  have hall : all.all (fun kind => kind.message.2.regular && kind.message.2.height ≤ 127) = true := by
    decide +kernel
  simpa using List.all_eq_true.mp hall kind kind.mem_all

theorem exists_message {arrangement : Arrangement} {kind : Kind} {text : String}
    {resolver : Tenant.Resolver} {v : Value} {b : Tenant.Backfill}
    (h : translateIn arrangement kind text resolver = .ok (v, b)) :
    ∃ a, v = (kind.message.2.toJson a).sorted := by
  rw [translateIn_eq] at h
  obtain ⟨content, hdecode, h⟩ := Json.exists_of_map_eq_ok h
  obtain rfl : v = (kind.marshal arrangement resolver content .start).1 := (congrArg Prod.fst h).symm
  cases kind with
  | keyManager =>
    obtain ⟨r, b, -, htranslate⟩ := translateIn_keyManager arrangement resolver hdecode
    rw [translateIn_of_decode hdecode] at htranslate
    exact ⟨r, congrArg Prod.fst (Except.ok.inj htranslate)⟩
  | _ => exact ⟨_, rfl⟩

/-- The text of a message is decoded as the message. -/
theorem ofText_message {arrangement : Arrangement} {kind : Kind} {text : String}
    {resolver : Tenant.Resolver} {v : Value} {b : Tenant.Backfill}
    (h : translateIn arrangement kind text resolver = .ok (v, b)) :
    Value.ofText (CommandLine.line v.toPrettyText) = .ok v := by
  obtain ⟨a, rfl⟩ := exists_message h
  obtain ⟨hregular, hheight⟩ := kind.regular_message
  exact Shape.ofText_sorted hregular hheight a (.inr rfl) blanks_lineEnd

end Catalog.Snapshot

namespace CommandLine

open Config Catalog.Snapshot

theorem ofText_renderConfig {c : EnforcerConfig} {v : Value} (h : EnforcerConfig.shape.Encodes c v) :
    EnforcerConfig.shape.ofText true (line v.toPrettyText) = .ok c := by
  have hregular : EnforcerConfig.shape.regular = true := by decide +kernel
  have hwrites : Json.Writes v.node v.toPrettyText :=
    Value.writes_printed (Shape.floatsReadBack_of_encodes hregular h) (.inr rfl)
  rw [line, Shape.ofText_of_writes _ _ (hwrites.append blanks_lineEnd)]
  exact Shape.ofJson_of_encodes _ _ hregular h 0

section

variable {σ : Type} (arrangement : Arrangement) (write : EnforcerConfig → Value)
  (next : Delivery.Source σ) (s : σ) {disk : Disk}

theorem translate_eq_ok_iff {kind : Kind} {input : String} {c : AdapterConfig} {text : String} :
    ((Command.translate kind input).runIn arrangement write disk next s c).output = .ok text ↔
      ∃ snapshot v b, disk.Holds input snapshot ∧
        translateIn arrangement kind snapshot c.controlPlane.resolver = .ok (v, b) ∧
        text = line v.toPrettyText := by
  constructor
  · intro h
    rw [Command.runIn] at h
    split at h
    · cases h
    · next snapshot hsnapshot =>
      split at h
      · cases h
      · next v b htranslate =>
        cases h
        exact ⟨snapshot, v, b, Disk.holds_of_readText hsnapshot, htranslate, rfl⟩
  · rintro ⟨snapshot, v, b, hsnapshot, htranslate, rfl⟩
    simp only [Command.runIn, hsnapshot.readText, htranslate]

end

/-- The two commands that send nothing either write one document and the end of its line or fail.
The document is the enforcer's configuration of what has been loaded or the message of the snapshot,
and it is decoded as that.  It is there just if the configuration can be loaded and the snapshot can
be read and translated.  A run that fails writes nothing.  If the configuration cannot be loaded,
this is the failure, whatever there is on the disk besides.  The texts of a map may be written in
any order. -/
theorem output_documents {σ : Type} (arrangement : Arrangement) {write : EnforcerConfig → Value}
    (hwrite : ∀ c, EnforcerConfig.shape.Encodes c (write c)) (next : Delivery.Source σ) (s : σ)
    (disk : Disk) (e : Environment) {words : List String} {config : String} {command : Command}
    (hwords : Invocation.ofWords? words = some ⟨config, command⟩) :
    (command = .renderConfig →
      ((runIn arrangement write disk e next s words).exitCode = 0 ↔
        ∃ c, (AdapterConfig.loadOrDefault disk config e).1 = .ok c) ∧
      ∀ c, (AdapterConfig.loadOrDefault disk config e).1 = .ok c →
        (runIn arrangement write disk e next s words).standardOutput =
          line (write c.enforcerConfig).toPrettyText ∧
        EnforcerConfig.shape.ofText true
          (runIn arrangement write disk e next s words).standardOutput = .ok c.enforcerConfig) ∧
    (∀ kind input, command = .translate kind input →
      ((runIn arrangement write disk e next s words).exitCode = 0 ↔
        ∃ c snapshot v b, (AdapterConfig.loadOrDefault disk config e).1 = .ok c ∧
          disk.Holds input snapshot ∧
          translateIn arrangement kind snapshot c.controlPlane.resolver = .ok (v, b)) ∧
      ∀ c snapshot v b, (AdapterConfig.loadOrDefault disk config e).1 = .ok c →
        disk.Holds input snapshot →
        translateIn arrangement kind snapshot c.controlPlane.resolver = .ok (v, b) →
        (runIn arrangement write disk e next s words).standardOutput = line v.toPrettyText ∧
        Value.ofText (runIn arrangement write disk e next s words).standardOutput = .ok v) ∧
    ((runIn arrangement write disk e next s words).exitCode ≠ 0 →
      (runIn arrangement write disk e next s words).standardOutput = "") ∧
    ∀ error, (AdapterConfig.loadOrDefault disk config e).1 = .error error →
      (runIn arrangement write disk e next s words).output = .error (.config error) ∧
      (runIn arrangement write disk e next s words).exitCode = 1 ∧
      ∀ disk' : Disk, disk' config = disk config →
        runIn arrangement write disk' e next s words = runIn arrangement write disk e next s words := by
  refine ⟨?render, ?translate, Result.standardOutput_of_failure, ?error⟩
  case render =>
    rintro rfl
    have houtput : ∀ c, (AdapterConfig.loadOrDefault disk config e).1 = .ok c →
        (runIn arrangement write disk e next s words).output =
          .ok (line (write c.enforcerConfig).toPrettyText) :=
      fun c hload => output_of_load arrangement write next s hwords hload
    refine ⟨?_, fun c hload => ?_⟩
    · rw [exitCode_eq_zero_iff]
      constructor
      · rintro ⟨text, h⟩
        obtain ⟨c, hload, -⟩ := (output_eq_ok_iff arrangement write next s hwords).mp h
        exact ⟨c, hload⟩
      · rintro ⟨c, hload⟩
        exact ⟨_, houtput c hload⟩
    · rw [Result.standardOutput_of_ok (houtput c hload)]
      exact ⟨rfl, ofText_renderConfig (hwrite c.enforcerConfig)⟩
  case translate =>
    rintro kind input rfl
    refine ⟨?_, fun c snapshot v b hload hsnapshot htranslate => ?_⟩
    · rw [exitCode_eq_zero_iff]
      constructor
      · rintro ⟨text, h⟩
        obtain ⟨c, hload, h⟩ := (output_eq_ok_iff arrangement write next s hwords).mp h
        obtain ⟨snapshot, v, b, hsnapshot, htranslate, -⟩ :=
          (translate_eq_ok_iff arrangement write next s).mp h
        exact ⟨c, snapshot, v, b, hload, hsnapshot, htranslate⟩
      · rintro ⟨c, snapshot, v, b, hload, hsnapshot, htranslate⟩
        have hcommand := (translate_eq_ok_iff arrangement write next s).mpr
          ⟨snapshot, v, b, hsnapshot, htranslate, rfl⟩
        exact ⟨_, (output_eq_ok_iff arrangement write next s hwords).mpr ⟨c, hload, hcommand⟩⟩
    · have hcommand := (translate_eq_ok_iff arrangement write next s).mpr
        ⟨snapshot, v, b, hsnapshot, htranslate, rfl⟩
      have houtput := (output_eq_ok_iff arrangement write next s hwords).mpr ⟨c, hload, hcommand⟩
      rw [Result.standardOutput_of_ok houtput]
      exact ⟨rfl, ofText_message htranslate⟩
  case error =>
    intro error hload
    have hrun := runIn_of_error arrangement write next s hwords hload
    refine ⟨?_, ?_, fun disk' hdisk => ?_⟩
    · rw [hrun]
    · rw [hrun]
      rfl
    · have hsame := loadOrDefault_congr hdisk e
      have hload' : (AdapterConfig.loadOrDefault disk' config e).1 = .error error := by
        rw [hsame]
        exact hload
      rw [hrun, runIn_of_error arrangement write next s hwords hload', hsame]

def listing : String := "\x7b\"list\": [\x7b\"subscriptionId\": 1\x7d]\x7d"

def tracedText : String :=
  "enforcer: \x7btracing: \x7bconfigProperties: \x7ba: x, b: y\x7d\x7d\x7d"

/-- A configuration with two properties for the tracing. -/
def traced : AdapterConfig :=
  { enforcer := { tracing := { configProperties := ⟨[("a", "x"), ("b", "y")], by decide +kernel⟩ } } }

/-- A disk that holds one listing and one configuration. -/
def oneListing : Disk
  | "listing" => .ok (.file listing.toUTF8)
  | "traced" => .ok (.file tracedText.toUTF8)
  | _ => .error .notFound

def reversed : Value → Value
  | .obj members => .obj members.reverse
  | v => v

/-- The configuration with the properties for the tracing the other way round. -/
def backwards (c : EnforcerConfig) : Value :=
  (EnforcerConfig.shape.toJson c).modify reversed [.member "tracing", .member "configProperties"]

theorem encodes_backwards (c : EnforcerConfig) : EnforcerConfig.shape.Encodes c (backwards c) := by
  have hwritten : ∀ {α : Type} {shape : Shape α} {a : α}, shape.Encodes a (shape.toJson a) :=
    Shape.encodes_toJson _ _
  have hmap : Shape.textMap.Encodes c.tracing.configProperties
      (reversed c.tracing.configProperties.toJson) :=
    ⟨_, List.reverse_perm _, congrArg Value.obj List.map_reverse.symm⟩
  have htracing : Enforcer.Tracing.shape.Encodes c.tracing
      ((Enforcer.Tracing.shape.toJson c.tracing).modify reversed [.member "configProperties"]) :=
    ⟨_, .cons hwritten <| .cons hwritten <| .cons hmap rfl, rfl⟩
  exact ⟨_, .cons hwritten <| .cons hwritten <| .cons hwritten <| .cons hwritten <|
    .cons hwritten <| .cons htracing <| .cons hwritten <| .cons hwritten <| .cons hwritten <|
    .cons hwritten <| .cons hwritten <| .cons hwritten rfl, rfl⟩

/-- What words come to on this disk, where nobody answers. -/
def runListing (e : Environment) (words : List String) : Result :=
  runIn .asPut backwards oneListing e (fun s => (.failure "", s)) () words

def listingWords : List String :=
  ["--config=" ++ "none", "translate", "--kind=" ++ Kind.subscriptions.name, "--input=" ++ "listing"]

theorem load_traced :
    (AdapterConfig.loadOrDefault oneListing "traced" fun _ => none).1 = .ok traced := by
  have hholds : oneListing.Holds "traced" tracedText := Disk.holds_of_toUTF8 rfl
  have hparse : AdapterConfig.parse tracedText = .ok traced := by
    rw [AdapterConfig.parse,
      show AdapterConfig.shape.ofYaml tracedText = some traced by decide +kernel]
  exact AdapterConfig.loadOrDefault_of_parse hholds hparse rfl fun _ _ => rfl

/-- The defaults are written, and the listing is translated under them.  They are refused where the
control plane is enabled, and then the listing might as well not be there.  A configuration is
decoded as itself although the properties for its tracing are not in the order of their names. -/
theorem output_documents_oneListing :
    EnforcerConfig.shape.ofText true
      (runListing (fun _ => none) ["--config=" ++ "none", "render-config"]).standardOutput =
      .ok (AdapterConfig.enforcerConfig {}) ∧
    ((runListing (fun _ => none) ["--config=" ++ "traced", "render-config"]).standardOutput =
        line (backwards traced.enforcerConfig).toPrettyText ∧
      EnforcerConfig.shape.ofText true
        (runListing (fun _ => none) ["--config=" ++ "traced", "render-config"]).standardOutput =
        .ok traced.enforcerConfig) ∧
    (runListing (fun _ => none) listingWords).exitCode = 0 ∧
    (∃ v, (runListing (fun _ => none) listingWords).standardOutput = line v.toPrettyText ∧
      Value.ofText (runListing (fun _ => none) listingWords).standardOutput = .ok v) ∧
    (runListing AdapterConfig.enabling listingWords).standardOutput = "" ∧
    runListing AdapterConfig.enabling listingWords =
      runIn .asPut backwards (fun _ => .error .notFound) AdapterConfig.enabling
        (fun s => (.failure "", s)) () listingWords := by
  have hrender : ∀ config, config = "none" ∨ config = "traced" →
      Invocation.ofWords? ["--config=" ++ config, "render-config"] = some ⟨config, .renderConfig⟩ := by
    rintro config (rfl | rfl) <;> exact ofWords?_renderConfig (by decide)
  have hwords : Invocation.ofWords? listingWords =
      some ⟨"none", .translate .subscriptions "listing"⟩ :=
    ofWords?_translate (by decide) (by decide) .subscriptions
  have hload : (AdapterConfig.loadOrDefault oneListing "none" fun _ => none).1 = .ok {} :=
    AdapterConfig.loadOrDefault_of_absent rfl fun _ _ => rfl
  have hrefused : (AdapterConfig.loadOrDefault oneListing "none" AdapterConfig.enabling).1 =
      .error (.invalid .noServiceUrl) :=
    AdapterConfig.validated_eq_error.mpr ⟨.noServiceUrl, by decide +kernel, rfl⟩
  have hlisting : oneListing.Holds "listing" listing := Disk.holds_of_toUTF8 rfl
  have hdecode : read .subscriptions (Listing.shape Catalog.Subscription.shape) listing =
      .ok ⟨[{ subscriptionId := 1 }]⟩ :=
    eq_ok_of_toOption (by decide +kernel)
  obtain ⟨hdefaults, -⟩ := output_documents .asPut encodes_backwards (fun s => (.failure "", s)) ()
    oneListing (fun _ => none) (hrender "none" (.inl rfl))
  obtain ⟨htraced, -⟩ := output_documents .asPut encodes_backwards (fun s => (.failure "", s)) ()
    oneListing (fun _ => none) (hrender "traced" (.inr rfl))
  obtain ⟨-, htranslate, -⟩ := output_documents .asPut encodes_backwards
    (fun s => (.failure "", s)) () oneListing (fun _ => none) hwords
  obtain ⟨-, -, hsilent, hfailed⟩ := output_documents .asPut encodes_backwards
    (fun s => (.failure "", s)) () oneListing AdapterConfig.enabling hwords
  obtain ⟨hexit, hmessage⟩ := htranslate _ _ rfl
  have hmade := @translateIn_of_decode .asPut .subscriptions listing
    (AdapterConfig.controlPlane {}).resolver _ hdecode
  obtain ⟨-, hone, hsame⟩ := hfailed _ hrefused
  refine ⟨((hdefaults rfl).2 _ hload).2, (htraced rfl).2 _ load_traced,
    hexit.mpr ⟨_, _, _, _, hload, hlisting, hmade⟩, ⟨_, hmessage _ _ _ _ hload hlisting hmade⟩,
    hsilent ?_, ?_⟩
  · rw [hone]
    decide
  · exact (hsame (fun _ => .error .notFound) rfl).symm

end CommandLine
end PlaneBridge
