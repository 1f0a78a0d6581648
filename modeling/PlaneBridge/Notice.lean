import PlaneBridge.Number.Decimal
import PlaneBridge.Delivery.Request

/-!
# Notices

What the library has to tell its operator while it works.  A notice is kept as what happened; its
level and wording are functions of that.
-/

namespace PlaneBridge

inductive Notice where
  | configurationLoaded (path : String)
  | configurationAbsent (path : String)
  | domainFellBack (domain : String)
  | configurationUnencoded (keyManager reason : String)
  | keyManagerDropped (keyManager : String)
  | requestUnprepared (reason : String)
  | requestAccepted (method : Delivery.Method) (url : String) (attempt : Nat)
  | requestRefused (code : Nat) (url : String) (attempt : Nat)
  | requestFailed (url : String) (attempt : Nat) (reason : String)
  | requestGivenUp (method : Delivery.Method) (url : String) (attempts : Nat)
  | verificationDisabled
  | certificatesLoaded (count : Nat) (path : String)
  | clientReady
  deriving DecidableEq, Repr

namespace Notice

inductive Level where
  | info
  | warn
  | error
  deriving DecidableEq, Repr

def Level.name : Level → String
  | .info => "INFO"
  | .warn => "WARN"
  | .error => "ERROR"

def level : Notice → Level
  | .configurationLoaded _ | .configurationAbsent _ | .requestAccepted .. |
    .certificatesLoaded .. | .clientReady => .info
  | .domainFellBack _ | .configurationUnencoded .. | .keyManagerDropped _ |
    .requestUnprepared _ | .requestRefused .. | .requestFailed .. | .verificationDisabled => .warn
  | .requestGivenUp .. => .error

def message : Notice → String
  | .configurationLoaded path => "Adapter configuration loaded from " ++ path
  | .configurationAbsent path => "Configuration file " ++ path ++ " not found, using defaults"
  | .domainFellBack domain => "Connected tenant domain is empty, falling back to " ++ domain
  | .configurationUnencoded keyManager reason =>
    "Failed to encode configuration of key manager " ++ keyManager ++ ": " ++ reason
  | .keyManagerDropped keyManager => "Key manager " ++ keyManager ++ " was not translated"
  | .requestUnprepared reason => "Failed to prepare control plane notification: " ++ reason
  | .requestAccepted method url attempt =>
    method.name ++ " " ++ url ++ " accepted by control plane on attempt " ++ decimal attempt
  | .requestRefused code url attempt =>
    "Error response status code " ++ decimal code ++ " from " ++ url ++ " for attempt " ++
      decimal attempt
  | .requestFailed url attempt reason =>
    "Error response from " ++ url ++ " for attempt " ++ decimal attempt ++ ": " ++ reason
  | .requestGivenUp method url attempts =>
    "Giving up on " ++ method.name ++ " " ++ url ++ " after " ++ decimal attempts ++ " attempts"
  | .verificationDisabled => "Control plane certificate verification is disabled"
  | .certificatesLoaded count path =>
    "Loaded " ++ decimal count ++ " trusted certificate(s) from " ++ path
  | .clientReady => "Control plane HTTP client initialized"

/-- The level and the message. -/
def line (n : Notice) : String := n.level.name ++ " " ++ n.message

end Notice
end PlaneBridge
