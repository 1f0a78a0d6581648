import PlaneBridge.Shape.Basic
import PlaneBridge.Number.Decimal

/-!
# APIs

Published APIs, as the control plane lists them and as the enforcer receives them.
-/

namespace PlaneBridge.Catalog

/-- An API as the control plane lists it. -/
structure Api where
  apiId : Int32 := 0
  uuid : String := ""
  name : String := ""
  provider : String := ""
  version : String := ""
  context : String := ""
  policy : String := ""
  apiType : String := ""
  isDefaultVersion : Bool := false
  status : String := ""
  deriving DecidableEq, Repr

def Api.shape : Shape Api :=
  .record
    (.cons "apiId" .int32 <| .cons "uuid" .text <| .cons "name" .text <|
      .cons "provider" .text <| .cons "version" .text <| .cons "context" .text <|
      .cons "policy" .text <| .cons "apiType" .text <| .cons "isDefaultVersion" .flag <|
      .cons "status" .text .nil)
    {}
    (fun a => (a.apiId, a.uuid, a.name, a.provider, a.version, a.context, a.policy, a.apiType,
      a.isDefaultVersion, a.status, ()))
    (fun (apiId, uuid, name, provider, version, context, policy, apiType, isDefaultVersion,
        status, ()) =>
      { apiId, uuid, name, provider, version, context, policy, apiType, isDefaultVersion, status })
    (fun _ => rfl) (fun _ => rfl)

/-- An API as the enforcer receives it. -/
structure ApiEntry where
  /-- In base ten. -/
  apiId : String := ""
  name : String := ""
  provider : String := ""
  version : String := ""
  context : String := ""
  policy : String := ""
  apiType : String := ""
  uuid : String := ""
  isDefaultVersion : Bool := false
  lcState : String := ""
  deriving DecidableEq, Repr

def ApiEntry.shape : Shape ApiEntry :=
  .record
    (.cons "apiId" .text <| .cons "name" .text <| .cons "provider" .text <|
      .cons "version" .text <| .cons "context" .text <| .cons "policy" .text <|
      .cons "apiType" .text <| .cons "uuid" .text <| .cons "isDefaultVersion" .flag <|
      .cons "lcState" .text .nil)
    {}
    (fun a => (a.apiId, a.name, a.provider, a.version, a.context, a.policy, a.apiType, a.uuid,
      a.isDefaultVersion, a.lcState, ()))
    (fun (apiId, name, provider, version, context, policy, apiType, uuid, isDefaultVersion,
        lcState, ()) =>
      { apiId, name, provider, version, context, policy, apiType, uuid, isDefaultVersion, lcState })
    (fun _ => rfl) (fun _ => rfl)

def Api.entry (a : Api) : ApiEntry where
  apiId := decimal a.apiId.toInt
  name := a.name
  provider := a.provider
  version := a.version
  context := a.context
  policy := a.policy
  apiType := a.apiType
  uuid := a.uuid
  isDefaultVersion := a.isDefaultVersion
  lcState := a.status

end PlaneBridge.Catalog
