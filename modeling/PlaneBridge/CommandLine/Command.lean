import PlaneBridge.Catalog.Snapshot
import PlaneBridge.CommandLine.Options
import PlaneBridge.Delivery.Revision

/-!
# Commands

What the adapter can be told to do, and how it is told.
-/

namespace PlaneBridge.CommandLine

inductive Command where
  | renderConfig
  | translate (kind : Catalog.Snapshot.Kind) (input : String)
  | notifyDeployed (revision : Delivery.DeployedRevision)
  | notifyRemoved (revision : Delivery.RemovedRevision)
  deriving DecidableEq, Repr

structure Invocation where
  config : String
  command : Command
  deriving DecidableEq, Repr

def defaultConfig : String := "conf/adapter.yaml"

/-! ## Values -/

/-- A path is not empty. -/
def path? (value : String) : Option String := if value = "" then none else some value

def natural? (digits : List Char) : Option Nat :=
  if !digits.isEmpty && digits.all Char.isDigit then
    some (digits.foldl (fun n c => n * 10 + (c.toNat - '0'.toNat)) 0)
  else none

/-- A 64-bit integer in base ten, with or without a sign. -/
def int64? (value : String) : Option Int64 := do
  let n : Int ← match value.toList with
    | '-' :: digits => (natural? digits).map (-↑·)
    | '+' :: digits => (natural? digits).map (↑·)
    | digits => (natural? digits).map (↑·)
  if -0x8000000000000000 ≤ n ∧ n ≤ 0x7fffffffffffffff then return Int64.ofInt n else none

/-! ## Commands -/

def optionNames? : String → Option (List String)
  | "render-config" => some []
  | "translate" => some ["kind", "input"]
  | "notify-deployed" => some ["api-id", "revision-id", "vhost", "env"]
  | "notify-undeployed" => some ["api-uuid", "revision-uuid", "env"]
  | _ => none

def command? (name : String) (options : Options) : Option Command :=
  match name with
  | "render-config" => some .renderConfig
  | "translate" => do
    let kind ← Catalog.Snapshot.Kind.ofName? (← options.one "kind")
    return .translate kind (← path? (← options.one "input"))
  | "notify-deployed" => do
    let apiId ← options.one "api-id"
    let revisionId ← int64? (← options.one "revision-id")
    let vhost ← options.one "vhost"
    return .notifyDeployed (.under apiId revisionId (options.values "env") vhost)
  | "notify-undeployed" => do
    let apiUUID ← options.one "api-uuid"
    let revisionUUID ← options.one "revision-uuid"
    let environment ← options.one "env"
    return .notifyRemoved { apiUUID, revisionUUID, environment }
  | _ => none

def configOf? (options : Options) : Option (Option String) := do
  (← options.atMostOne "config").mapM path?

/-- What the words ask for; nothing where they cannot be understood.  The configuration may be given
before and behind the command, and what stands behind it counts. -/
def Invocation.ofWords? (words : List String) : Option Invocation := do
  let (before, rest) ← readOptions ["config"] words
  match rest with
  | [] => none
  | name :: rest =>
    let (options, rest) ← readOptions ("config" :: (← optionNames? name)) rest
    if !rest.isEmpty then none
    let outer ← configOf? before
    let inner ← configOf? options
    return ⟨(inner.or outer).getD defaultConfig, ← command? name options⟩

end PlaneBridge.CommandLine
