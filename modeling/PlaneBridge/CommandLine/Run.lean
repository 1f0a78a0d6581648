import PlaneBridge.CommandLine.Command
import PlaneBridge.Config.Load
import PlaneBridge.Delivery.Client
import PlaneBridge.Delivery.Notifier

/-!
# Running a command

A command loads the configuration first, whatever it is, and then does its work.  It writes to
standard output only when it succeeds.  The notifying commands succeed whatever becomes of the
notification.
-/

namespace PlaneBridge.CommandLine

inductive Failure where
  | usage
  | config (error : Config.Error)
  | unreadableSnapshot (path : String)
  | snapshot (error : Catalog.Snapshot.Error)
  | client (error : Delivery.Client.Error)
  deriving DecidableEq, Repr

def Failure.exitCode : Failure → Nat
  | .usage => 2
  | _ => 1

def Failure.message : Failure → String
  | .usage => "usage: adapter-sync [--config PATH] COMMAND [OPTIONS]"
  | .config error => "Error: " ++ error.message
  | .unreadableSnapshot path => "Error: Failed to read snapshot " ++ path
  | .snapshot error => "Error: " ++ error.message
  | .client error => "Error: " ++ error.message

/-- What a run comes to: the text for standard output or a failure, and what there is to tell. -/
structure Result where
  output : Except Failure String
  notices : List Notice

def Result.exitCode (r : Result) : Nat :=
  match r.output with
  | .ok _ => 0
  | .error failure => failure.exitCode

/-- What a run writes to standard output, which is nothing if it fails. -/
def Result.standardOutput (r : Result) : String :=
  match r.output with
  | .ok text => text
  | .error _ => ""

/-- A text and the end of its line. -/
def line (text : String) : String := text ++ "\n"

/-- A notification sent by a client of its own. -/
def notify {σ : Type} (disk : Disk) (next : Delivery.Source σ) (s : σ) (c : Config.ControlPlane)
    (n : Delivery.Notification) : Result :=
  match Delivery.Client.setUp disk c with
  | (.error e, notices) => ⟨.error (.client e), notices⟩
  | (.ok (), notices) =>
    let sent := n.send next c s
    ⟨.ok (line sent.outcome.text), notices ++ sent.notices⟩

/-- A command run with a configuration.  Collections are gone through in the order of an
arrangement, and the enforcer's configuration is written in whichever way `write` has, since the
texts of a map come in no order of their own. -/
def Command.runIn {σ : Type} (arrangement : Catalog.Arrangement)
    (write : EnforcerConfig → Json.Value) (disk : Disk) (next : Delivery.Source σ) (s : σ)
    (config : Config.AdapterConfig) : Command → Result
  | .renderConfig => ⟨.ok (line (write config.enforcerConfig).toPrettyText), []⟩
  | .translate kind input =>
    match disk.readText input with
    | .error _ => ⟨.error (.unreadableSnapshot input), []⟩
    | .ok text =>
      match Catalog.Snapshot.translateIn arrangement kind text config.controlPlane.resolver with
      | .error e => ⟨.error (.snapshot e), []⟩
      | .ok (value, backfill) => ⟨.ok (line value.toPrettyText), backfill.notices⟩
  | .notifyDeployed revision => notify disk next s config.controlPlane (.deployed [revision])
  | .notifyRemoved revision => notify disk next s config.controlPlane (.removed revision)

/-- What the words ask for, done, with collections gone through in the order of an arrangement and
the enforcer's configuration written in one of the ways there are. -/
def runIn {σ : Type} (arrangement : Catalog.Arrangement) (write : EnforcerConfig → Json.Value)
    (disk : Disk) (e : Config.Environment) (next : Delivery.Source σ) (s : σ)
    (words : List String) : Result :=
  match Invocation.ofWords? words with
  | none => ⟨.error .usage, []⟩
  | some invocation =>
    match Config.AdapterConfig.loadOrDefault disk invocation.config e with
    | (.error error, notices) => ⟨.error (.config error), notices⟩
    | (.ok config, notices) =>
      let result := invocation.command.runIn arrangement write disk next s config
      { result with notices := notices ++ result.notices }

/-- What the words ask for, done.  Maps are written in the order of their names. -/
def run {σ : Type} (disk : Disk) (e : Config.Environment) (next : Delivery.Source σ) (s : σ)
    (words : List String) : Result :=
  runIn .asPut EnforcerConfig.shape.toJson disk e next s words

end PlaneBridge.CommandLine
