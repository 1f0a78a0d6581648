import PlaneBridge.Shape.Basic
import PlaneBridge.Tenant

/-!
# The control plane

How the adapter reaches the control plane, which of these settings the environment may replace, and
which tenant domain it is connected to.
-/

namespace PlaneBridge.Config

structure ControlPlane where
  enabled : Bool := false
  serviceUrl : String := ""
  username : String := "admin"
  password : String := "admin"
  skipSslVerification : Bool := false
  /-- The certificates to trust besides those of the system. -/
  truststorePath : Option String := none
  tenantDomain : String := Tenant.defaultDomain
  deriving DecidableEq, Repr

def ControlPlane.shape : Shape ControlPlane :=
  .record
    (.cons "enabled" .flag <| .cons "serviceUrl" .text <| .cons "username" .text <|
      .cons "password" .text <| .cons "skipSslVerification" .flag <|
      .cons "truststorePath" .optional <| .cons "tenantDomain" .text .nil)
    {}
    (fun c => (c.enabled, c.serviceUrl, c.username, c.password, c.skipSslVerification,
      c.truststorePath, c.tenantDomain, ()))
    (fun (enabled, serviceUrl, username, password, skipSslVerification, truststorePath,
        tenantDomain, ()) =>
      { enabled, serviceUrl, username, password, skipSslVerification, truststorePath,
        tenantDomain })
    (fun _ => rfl) (fun _ => rfl)

/-- What the environment says, by the names of its variables. -/
abbrev Environment := String → Option String

namespace Environment

def serviceUrl : String := "ADAPTER_CP_SERVICE_URL"
def username : String := "ADAPTER_CP_USERNAME"
def password : String := "ADAPTER_CP_PASSWORD"
def enabled : String := "ADAPTER_CP_ENABLED"

/-- Whether a variable's text switches something on. -/
def switchesOn (text : String) : Bool := ["true", "1", "yes"].contains (text.map Char.toLower)

/-- The environment that says what the first says, and where that is silent what the second says. -/
def orElse (e f : Environment) : Environment := fun name => (e name).or (f name)

end Environment

namespace ControlPlane

/-- The settings with those replaced that the environment gives. -/
def override (c : ControlPlane) (e : Environment) : ControlPlane :=
  { c with
    serviceUrl := (e Environment.serviceUrl).getD c.serviceUrl
    username := (e Environment.username).getD c.username
    password := (e Environment.password).getD c.password
    enabled := ((e Environment.enabled).map Environment.switchesOn).getD c.enabled }

/-- The connected tenant domain, as a resolver. -/
def resolver (c : ControlPlane) : Tenant.Resolver := .always c.tenantDomain

end ControlPlane
end PlaneBridge.Config
