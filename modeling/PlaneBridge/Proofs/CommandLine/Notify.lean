import PlaneBridge.Proofs.CommandLine.Run
import PlaneBridge.Proofs.Config.Load
import PlaneBridge.Proofs.Delivery.Skip

/-!
# Notifying from the command line

Before a notification is sent, or even skipped, a client is set up.  That takes a truststore whose
certificates can all be trusted, if the configuration names one: `setUp_eq_ok_iff`.  With a client
the outcome is written and the command succeeds, whatever the outcome is; without one nothing is
written and the command fails, even where there was nothing to send.
-/

namespace PlaneBridge

open Config (AdapterConfig ControlPlane Environment)

/-! ## Clients -/

theorem Trust.Store.load_eq_ok_iff {disk : Disk} {path : String}
    {certificates : List Certificate} :
    (load disk path).1 = .ok certificates ↔
      ∃ content, disk path = .ok (.file content) ∧ parse content.toList = .ok certificates := by
  constructor
  · intro h
    cases hentry : disk path with
    | error failure =>
      simp only [load, Disk.read, hentry, bind, Except.bind] at h
      cases h
    | ok entry =>
      cases entry with
      | directory =>
        simp only [load, Disk.read, hentry, bind, Except.bind] at h
        cases h
      | file content =>
        refine ⟨content, rfl, ?_⟩
        simp only [load, Disk.read, hentry, bind, Except.bind, pure, Except.pure] at h
        split at h
        · cases h
        · next hparse => rw [hparse, Except.ok.inj h]
  · rintro ⟨content, hfile, hparse⟩
    simp only [load, Disk.read, hfile, bind, Except.bind, pure, Except.pure, hparse]

namespace Delivery.Client

/-- The truststore that is named, if one is, can be read and all its certificates can be trusted. -/
def IsEquipped (disk : Disk) (c : ControlPlane) : Prop :=
  ∀ path, c.truststorePath = some path →
    ∃ content certificates, disk path = .ok (.file content) ∧
      Trust.Store.parse content.toList = .ok certificates ∧
      certificates.all Trust.Certificate.isTrustable = true

theorem setUp_eq (disk : Disk) (c : ControlPlane) :
    (setUp disk c).1 = (certificates disk c.truststorePath).1 >>= fun trusted =>
      if trusted.all Trust.Certificate.isTrustable then .ok () else .error .badCertificate := by
  rw [setUp]
  cases certificates disk c.truststorePath with
  | mk result notices =>
    cases result with
    | error e => rfl
    | ok trusted =>
      show (if trusted.all Trust.Certificate.isTrustable then _ else _ : _ × _).1 =
        if trusted.all Trust.Certificate.isTrustable then _ else _
      split <;> rfl

theorem certificates_some (disk : Disk) (path : String) :
    (certificates disk (some path)).1 = (Trust.Store.load disk path).1.mapError .truststore := rfl

theorem setUp_eq_ok_iff {disk : Disk} {c : ControlPlane} :
    (setUp disk c).1 = .ok () ↔ IsEquipped disk c := by
  rw [setUp_eq, IsEquipped]
  cases c.truststorePath with
  | none => exact ⟨fun _ _ hpath => (nomatch hpath), fun _ => rfl⟩
  | some path =>
    rw [certificates_some]
    cases hload : (Trust.Store.load disk path).1 with
    | error error =>
      refine ⟨fun h => (nomatch h), fun h => ?_⟩
      obtain ⟨content, trusted, hfile, hparse, -⟩ := h path rfl
      rw [Trust.Store.load_eq_ok_iff.mpr ⟨content, hfile, hparse⟩] at hload
      cases hload
    | ok trusted =>
      obtain ⟨content, hfile, hparse⟩ := Trust.Store.load_eq_ok_iff.mp hload
      show (if trusted.all Trust.Certificate.isTrustable then Except.ok ()
        else .error Error.badCertificate) = .ok () ↔ _
      constructor
      · intro h path' hpath
        obtain rfl := Option.some.inj hpath
        split at h
        · next htrusted => exact ⟨content, trusted, hfile, hparse, htrusted⟩
        · cases h
      · intro h
        obtain ⟨content', trusted', hfile', hparse', htrusted⟩ := h path rfl
        rw [Trust.Store.load_eq_ok_iff.mpr ⟨content', hfile', hparse'⟩] at hload
        rw [← Except.ok.inj hload, if_pos htrusted]

end Delivery.Client

/-! ## Commands -/

namespace CommandLine

open Delivery (Notification)
open Delivery.Client (IsEquipped setUp setUp_eq_ok_iff)

/-- What a command tells the control plane, if it does. -/
def Command.notification? : Command → Option Notification
  | .notifyDeployed revision => some (.deployed [revision])
  | .notifyRemoved revision => some (.removed revision)
  | _ => none

section

variable {σ : Type} (next : Delivery.Source σ) (s : σ) {disk : Disk}

theorem runIn_of_notification {command : Command} {n : Notification}
    (h : command.notification? = some n) (arrangement : Catalog.Arrangement)
    (write : EnforcerConfig → Json.Value) (c : AdapterConfig) :
    command.runIn arrangement write disk next s c = notify disk next s c.controlPlane n := by
  cases command with
  | notifyDeployed revision => rw [← Option.some.inj h]; rfl
  | notifyRemoved revision => rw [← Option.some.inj h]; rfl
  | _ => cases h

variable {c : ControlPlane} (n : Notification)

theorem notify_of_ok (h : (setUp disk c).1 = .ok ()) :
    (notify disk next s c n).output = .ok (line (n.send next c s).outcome.text) := by
  cases hboth : setUp disk c with
  | mk result notices =>
    rw [hboth] at h
    cases h
    simp only [notify, hboth]

theorem notify_of_error {error : Delivery.Client.Error} (h : (setUp disk c).1 = .error error) :
    (notify disk next s c n).output = .error (.client error) := by
  cases hboth : setUp disk c with
  | mk result notices =>
    rw [hboth] at h
    cases h
    simp only [notify, hboth]

end

/-- Under every configuration for which a client can be set up, a notifying command succeeds and
writes what has become of its notification, whatever that is.  A deployed revision is skipped where
the control plane is disabled, and a removed one if it lacks an identifier.  Where no client can be
set up a command fails and writes nothing, even if it would have sent nothing. -/
theorem notify_writesOutcome {σ : Type} (arrangement : Catalog.Arrangement)
    (write : EnforcerConfig → Json.Value) (next : Delivery.Source σ) (s : σ) {disk : Disk}
    {e : Environment} {words : List String} {config : String} {command : Command}
    {n : Notification} {c : AdapterConfig}
    (hwords : Invocation.ofWords? words = some ⟨config, command⟩)
    (hn : command.notification? = some n)
    (hload : (AdapterConfig.loadOrDefault disk config e).1 = .ok c) :
    (IsEquipped disk c.controlPlane →
      (runIn arrangement write disk e next s words).exitCode = 0 ∧
      (runIn arrangement write disk e next s words).standardOutput =
        (n.send next c.controlPlane s).outcome.text ++ "\n" ∧
      (∀ revision, command = .notifyDeployed revision → c.controlPlane.enabled = false →
        (runIn arrangement write disk e next s words).standardOutput = "skipped (Disabled)\n") ∧
      ∀ revision, command = .notifyRemoved revision →
        revision.apiUUID = "" ∨ revision.revisionUUID = "" ∨ revision.environment = "" →
        (runIn arrangement write disk e next s words).standardOutput = "skipped (MissingField)\n") ∧
    (¬ IsEquipped disk c.controlPlane →
      (runIn arrangement write disk e next s words).exitCode = 1 ∧
      (runIn arrangement write disk e next s words).standardOutput = "") := by
  have hrun : (runIn arrangement write disk e next s words).output =
      (notify disk next s c.controlPlane n).output := by
    rw [output_of_load arrangement write next s hwords hload, runIn_of_notification next s hn]
  rw [← setUp_eq_ok_iff]
  constructor
  · intro hclient
    rw [notify_of_ok next s n hclient] at hrun
    have houtput := Result.standardOutput_of_ok hrun
    refine ⟨(exitCode_eq_zero_iff _).mpr ⟨_, hrun⟩, houtput, ?disabled, ?missing⟩
    case disabled =>
      rintro revision rfl hdisabled
      obtain rfl := Option.some.inj hn
      have hskip : (Notification.deployed [revision]).skip? c.controlPlane = some .disabled := by
        rw [Notification.skip?_deployed_cons, hdisabled]
        rfl
      rw [houtput, Notification.send_of_skip?_eq_some next hskip]
      rfl
    case missing =>
      rintro revision rfl hmissing
      obtain rfl := Option.some.inj hn
      have hskip : (Notification.removed revision).skip? c.controlPlane = some .missingField := by
        rw [Notification.skip?_removed, if_pos hmissing]
      rw [houtput, Notification.send_of_skip?_eq_some next hskip]
      rfl
  · intro hclient
    cases hsetUp : (setUp disk c.controlPlane).1 with
    | ok _ => exact absurd hsetUp hclient
    | error error =>
      rw [notify_of_error next s n hsetUp] at hrun
      have hexit : (runIn arrangement write disk e next s words).exitCode = 1 := by
        rw [Result.exitCode, hrun]
        rfl
      refine ⟨hexit, Result.standardOutput_of_failure ?_⟩
      rw [hexit]
      decide

def storelessText : String := "controlPlane: \x7btruststorePath: missing.pem\x7d"

/-- A disk whose configuration names a truststore that is not there. -/
def storeless : Disk
  | "conf/adapter.yaml" => .ok (.file storelessText.toUTF8)
  | _ => .error .notFound

/-- What words come to where nobody answers and the environment says nothing. -/
def runUnanswered (disk : Disk) (words : List String) : Result :=
  run disk (fun _ => none) (fun s => (.failure "", s)) () words

def deployedWords : List String :=
  ["notify-deployed", "--api-id", "a1", "--revision-id", "7", "--vhost", "v"]

def namelessWords : List String :=
  ["notify-undeployed", "--api-uuid", "", "--revision-uuid", "r", "--env", "e"]

def removedWords : List String :=
  ["notify-undeployed", "--api-uuid", "a", "--revision-uuid", "r", "--env", "e"]

theorem ofWords?_notifying :
    Invocation.ofWords? deployedWords =
      some ⟨defaultConfig, .notifyDeployed (.under "a1" 7 [] "v")⟩ ∧
    Invocation.ofWords? namelessWords = some ⟨defaultConfig, .notifyRemoved ⟨"", "r", "e"⟩⟩ ∧
    Invocation.ofWords? removedWords = some ⟨defaultConfig, .notifyRemoved ⟨"a", "r", "e"⟩⟩ := by
  decide +kernel

/-- The configuration that names the truststore, with the control plane disabled. -/
def storelessConfig : AdapterConfig := { controlPlane := { truststorePath := some "missing.pem" } }

theorem load_storeless :
    (AdapterConfig.loadOrDefault storeless defaultConfig fun _ => none).1 = .ok storelessConfig := by
  have hholds : storeless.Holds defaultConfig storelessText := Disk.holds_of_toUTF8 rfl
  have hparse : AdapterConfig.parse storelessText = .ok storelessConfig := by
    rw [AdapterConfig.parse,
      show AdapterConfig.shape.ofYaml storelessText = some storelessConfig by decide +kernel]
  exact AdapterConfig.loadOrDefault_of_parse hholds hparse rfl fun _ _ => rfl

/-- With the defaults there is a client, and a revision that is told of is given up since nobody
answers.  If the truststore is not there nothing is told of it. -/
theorem notify_writesOutcome_unanswered :
    (runUnanswered (fun _ => .error .notFound) deployedWords).standardOutput =
      "skipped (Disabled)\n" ∧
    (runUnanswered (fun _ => .error .notFound) namelessWords).standardOutput =
      "skipped (MissingField)\n" ∧
    (runUnanswered (fun _ => .error .notFound) removedWords).exitCode = 0 ∧
    (runUnanswered (fun _ => .error .notFound) removedWords).standardOutput =
      "dropped after 3 failed attempt(s)\n" ∧
    (runUnanswered storeless removedWords).exitCode = 1 := by
  have hload : (AdapterConfig.loadOrDefault (fun _ => .error .notFound) defaultConfig
      fun _ => none).1 = .ok {} :=
    AdapterConfig.loadOrDefault_of_absent rfl fun _ _ => rfl
  have hequipped : IsEquipped (fun _ => .error .notFound) (AdapterConfig.controlPlane {}) :=
    fun _ hpath => (nomatch hpath)
  have hmissing : ¬ IsEquipped storeless storelessConfig.controlPlane := by
    intro h
    obtain ⟨content, _, hfile, -⟩ := h "missing.pem" rfl
    cases hfile
  obtain ⟨hdeployedWords, hnamelessWords, hremovedWords⟩ := ofWords?_notifying
  obtain ⟨-, -, hdisabled, -⟩ := (notify_writesOutcome .asPut EnforcerConfig.shape.toJson (fun s => (.failure "", s)) ()
    hdeployedWords rfl hload).1 hequipped
  obtain ⟨-, -, -, hnameless⟩ := (notify_writesOutcome .asPut EnforcerConfig.shape.toJson (fun s => (.failure "", s)) ()
    hnamelessWords rfl hload).1 hequipped
  obtain ⟨hexit, hremoved, -⟩ := (notify_writesOutcome .asPut EnforcerConfig.shape.toJson (fun s => (.failure "", s)) ()
    hremovedWords rfl hload).1 hequipped
  obtain ⟨hfailed, -⟩ := (notify_writesOutcome .asPut EnforcerConfig.shape.toJson (fun s => (.failure "", s)) ()
    hremovedWords rfl load_storeless).2 hmissing
  refine ⟨hdisabled _ rfl rfl, hnameless _ rfl (.inl rfl), hexit, hremoved.trans ?_, hfailed⟩
  rw [Notification.send_of_skip?_eq_none _ rfl]
  rfl

theorem output_storeless {words : List String} {command : Command} {n : Notification}
    (hwords : Invocation.ofWords? words = some ⟨defaultConfig, command⟩)
    (hn : command.notification? = some n) :
    (runUnanswered storeless words).output =
      .error (.client (.truststore (.unreadable "missing.pem"))) := by
  have hclient : (setUp storeless storelessConfig.controlPlane).1 =
      .error (.truststore (.unreadable "missing.pem")) := rfl
  rw [runUnanswered, run, output_of_load .asPut _ _ () hwords load_storeless,
    runIn_of_notification _ () hn]
  exact notify_of_error _ () n hclient

/-- A command that would skip its notification fails for want of a truststore. -/
theorem storeless_writesNothing :
    (AdapterConfig.loadOrDefault storeless defaultConfig fun _ => none).1 = .ok storelessConfig ∧
    storelessConfig.controlPlane.enabled = false ∧
    Invocation.ofWords? deployedWords =
      some ⟨defaultConfig, .notifyDeployed (.under "a1" 7 [] "v")⟩ ∧
    (runUnanswered storeless deployedWords).exitCode = 1 ∧
    (runUnanswered storeless deployedWords).standardOutput = "" ∧
    Invocation.ofWords? namelessWords = some ⟨defaultConfig, .notifyRemoved ⟨"", "r", "e"⟩⟩ ∧
    (runUnanswered storeless namelessWords).exitCode = 1 ∧
    (runUnanswered storeless namelessWords).standardOutput = "" := by
  obtain ⟨hdeployedWords, hnamelessWords, -⟩ := ofWords?_notifying
  have hdeployed := output_storeless hdeployedWords rfl
  have hremoved := output_storeless hnamelessWords rfl
  refine ⟨load_storeless, rfl, hdeployedWords, ?_, ?_, hnamelessWords, ?_, ?_⟩
  · rw [Result.exitCode, hdeployed]
    rfl
  · rw [Result.standardOutput, hdeployed]
  · rw [Result.exitCode, hremoved]
    rfl
  · rw [Result.standardOutput, hremoved]

end CommandLine
end PlaneBridge
