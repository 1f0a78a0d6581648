import PlaneBridge.Config.ControlPlane
import PlaneBridge.Delivery.Attempt
import PlaneBridge.Delivery.Authorization
import PlaneBridge.Delivery.Revision
import PlaneBridge.Json.Printer
import PlaneBridge.Shape.Json

/-!
# Notifications

The control plane is told which revisions have been deployed, all of them in one request, and which
revision has been taken away from an environment.  Deployed revisions are told only to a control
plane that is enabled; a revision taken away is told in any case, unless the message would lack a
part.
-/

namespace PlaneBridge.Delivery

def deployedPath : String := "internal/data/v1/apis/deployed-revisions"

def removedPath : String := "internal/data/v1/apis/un-deploy-revision"

/-- A path under an address, with a slash between them unless the address ends in one. -/
def endpoint (serviceUrl path : String) : String :=
  if serviceUrl.toList.getLast? = some '/' then serviceUrl ++ path else serviceUrl ++ "/" ++ path

/-- Which texts a transport takes for the value of a header. -/
abbrev HeaderRule := String → Bool

/-- The characters that may stand in the value of a header whatever the transport. -/
def isHeaderCharacter (c : Char) : Bool := ' ' ≤ c && c ≤ '~'

/-- The rule by which no other character is taken. -/
def HeaderRule.visible : HeaderRule := fun value => value.toList.all isHeaderCharacter

/-- A message to the control plane. -/
inductive Notification where
  | deployed (revisions : List DeployedRevision)
  | removed (revision : RemovedRevision)
  deriving DecidableEq, Repr

namespace Notification

def method : Notification → Method
  | .deployed _ => .patch
  | .removed _ => .post

def path : Notification → String
  | .deployed _ => deployedPath
  | .removed _ => removedPath

/-- The message as JSON. -/
def value : Notification → Json.Value
  | .deployed revisions => (Shape.list DeployedRevision.shape).toJson revisions
  | .removed revision => RemovedRevision.shape.toJson revision

/-- Why a message is not sent, if it is not. -/
def skip? (c : Config.ControlPlane) : Notification → Option SkipReason
  | .deployed revisions =>
    if revisions.isEmpty then some .nothingToSend
    else if !c.enabled then some .disabled
    else none
  | .removed r =>
    if r.apiUUID = "" ∨ r.revisionUUID = "" ∨ r.environment = "" then some .missingField else none

/-- The request that carries a message. -/
def request (c : Config.ControlPlane) (n : Notification) : Request where
  method := n.method
  url := endpoint c.serviceUrl n.path
  headers :=
    [("authorization", basicAuthorization c.username c.password),
      ("content-type", "application/json")]
  body := n.value.toText

/-- The request that carries a message, if the transport takes the user's credentials for the value
of a header. -/
def requestUnder? (rule : HeaderRule) (c : Config.ControlPlane) (n : Notification) :
    Option Request :=
  if rule (basicAuthorization c.username c.password) then some (n.request c) else none

/-- A message sent over a transport with a rule of its own, unless there is a reason not to. -/
def sendUnder {σ : Type} (rule : HeaderRule) (next : Source σ) (c : Config.ControlPlane)
    (n : Notification) (s : σ) : Sent σ :=
  match n.skip? c with
  | some reason => ⟨.skipped reason, [], [], s⟩
  | none =>
    match n.requestUnder? rule c with
    | some r => deliver next r s
    | none =>
      ⟨.skipped .encodingFailed, [], [.requestUnprepared "failed to parse header value"], s⟩

def request? : Config.ControlPlane → Notification → Option Request := requestUnder? .visible

def send {σ : Type} : Source σ → Config.ControlPlane → Notification → σ → Sent σ :=
  sendUnder .visible

end Notification

/-! ## Scripts -/

/-- Replies in their order, and the one that follows them for ever. -/
structure Script where
  queued : List Reply
  fallback : Reply
  deriving DecidableEq, Repr

def Script.next : Source Script
  | ⟨[], fallback⟩ => (fallback, ⟨[], fallback⟩)
  | ⟨reply :: queued, fallback⟩ => (reply, ⟨queued, fallback⟩)

end PlaneBridge.Delivery
