import PlaneBridge.Config.ControlPlane
import PlaneBridge.Trust.Certificate
import PlaneBridge.Trust.Store

/-!
# The client

Before anything is sent a client is set up with the certificates that it trusts.  Certificates that
cannot be trusted are found only then, after the truststore has been loaded.
-/

namespace PlaneBridge.Delivery.Client

inductive Error where
  | truststore (error : Trust.Store.Error)
  /-- A certificate of the truststore cannot be trusted. -/
  | badCertificate
  deriving DecidableEq, Repr

def Error.message : Error → String
  | .truststore error => error.message
  | .badCertificate => "builder error: invalid peer certificate: BadEncoding"

/-- The certificates besides those of the system, and what there is to tell. -/
def certificates (disk : Disk) :
    Option String → Except Error (List Trust.Certificate) × List Notice
  | none => (.ok [], [])
  | some path =>
    let (result, notices) := Trust.Store.load disk path
    (result.mapError .truststore, notices)

/-- Whether a client can be set up, and what there is to tell. -/
def setUp (disk : Disk) (c : Config.ControlPlane) : Except Error Unit × List Notice :=
  let warnings := if c.skipSslVerification then [Notice.verificationDisabled] else []
  match certificates disk c.truststorePath with
  | (.error e, notices) => (.error e, warnings ++ notices)
  | (.ok trusted, notices) =>
    if trusted.all Trust.Certificate.isTrustable then
      (.ok (), warnings ++ notices ++ [.clientReady])
    else (.error .badCertificate, warnings ++ notices)

end PlaneBridge.Delivery.Client
