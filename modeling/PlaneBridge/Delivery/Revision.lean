import PlaneBridge.Shape.Basic

/-!
# Revisions

What the control plane is told about revisions of APIs: where one has been deployed, and where one
has been taken away.
-/

namespace PlaneBridge.Delivery

/-- An environment and the host under which APIs are found there. -/
structure DeployedEnvironment where
  name : String := ""
  vhost : String := ""
  deriving DecidableEq, Repr

def DeployedEnvironment.shape : Shape DeployedEnvironment :=
  .record (.cons "name" .text <| .cons "vhost" .text .nil)
    {}
    (fun e => (e.name, e.vhost, ()))
    (fun (name, vhost, ()) => { name, vhost })
    (fun _ => rfl) (fun _ => rfl)

/-- A revision that has been deployed. -/
structure DeployedRevision where
  apiId : String := ""
  revisionId : Int64 := 0
  environments : List DeployedEnvironment := []
  deriving DecidableEq, Repr

def DeployedRevision.shape : Shape DeployedRevision :=
  .record
    (.cons "apiId" .text <| .cons "revisionId" .int64 <|
      .cons "envInfo" (.list DeployedEnvironment.shape) .nil)
    {}
    (fun r => (r.apiId, r.revisionId, r.environments, ()))
    (fun (apiId, revisionId, environments, ()) => { apiId, revisionId, environments })
    (fun _ => rfl) (fun _ => rfl)

/-- A revision deployed to environments that have the same host. -/
def DeployedRevision.under (apiId : String) (revisionId : Int64) (environments : List String)
    (vhost : String) : DeployedRevision where
  apiId := apiId
  revisionId := revisionId
  environments := environments.map fun name => { name, vhost }

/-- A revision that has been taken away from an environment. -/
structure RemovedRevision where
  apiUUID : String := ""
  revisionUUID : String := ""
  environment : String := ""
  deriving DecidableEq, Repr

def RemovedRevision.shape : Shape RemovedRevision :=
  .record
    (.cons "apiUUID" .text <| .cons "revisionUUID" .text <| .cons "environment" .text .nil)
    {}
    (fun r => (r.apiUUID, r.revisionUUID, r.environment, ()))
    (fun (apiUUID, revisionUUID, environment, ()) => { apiUUID, revisionUUID, environment })
    (fun _ => rfl) (fun _ => rfl)

end PlaneBridge.Delivery
