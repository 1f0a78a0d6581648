import PlaneBridge.Shape.Basic
import PlaneBridge.Number.Decimal

/-!
# Subscriptions

The subscriptions of applications to APIs, as the control plane lists them and as the enforcer
receives them.
-/

namespace PlaneBridge.Catalog

/-- A subscription as the control plane lists it. -/
structure Subscription where
  subscriptionId : Int32 := 0
  policyId : String := ""
  apiId : Int32 := 0
  appId : Int32 := 0
  subscriptionState : String := ""
  timeStamp : Int64 := 0
  tenantId : Int32 := 0
  tenantDomain : String := ""
  subscriptionUUID : String := ""
  apiUUID : String := ""
  applicationUUID : String := ""
  deriving DecidableEq, Repr

def Subscription.shape : Shape Subscription :=
  .record
    (.cons "subscriptionId" .int32 <| .cons "policyId" .text <| .cons "apiId" .int32 <|
      .cons "appId" .int32 <| .cons "subscriptionState" .text <| .cons "timeStamp" .int64 <|
      .cons "tenantId" .int32 <| .cons "tenantDomain" .text <| .cons "subscriptionUUID" .text <|
      .cons "apiUUID" .text <| .cons "applicationUUID" .text .nil)
    {}
    (fun s => (s.subscriptionId, s.policyId, s.apiId, s.appId, s.subscriptionState, s.timeStamp,
      s.tenantId, s.tenantDomain, s.subscriptionUUID, s.apiUUID, s.applicationUUID, ()))
    (fun (subscriptionId, policyId, apiId, appId, subscriptionState, timeStamp, tenantId,
        tenantDomain, subscriptionUUID, apiUUID, applicationUUID, ()) =>
      { subscriptionId, policyId, apiId, appId, subscriptionState, timeStamp, tenantId,
        tenantDomain, subscriptionUUID, apiUUID, applicationUUID })
    (fun _ => rfl) (fun _ => rfl)

/-- A subscription as the enforcer receives it. -/
structure SubscriptionEntry where
  /-- In base ten. -/
  subscriptionId : String := ""
  policyId : String := ""
  apiId : Int32 := 0
  appId : Int32 := 0
  subscriptionState : String := ""
  timeStamp : Int64 := 0
  tenantId : Int32 := 0
  tenantDomain : String := ""
  subscriptionUUID : String := ""
  apiUUID : String := ""
  appUUID : String := ""
  deriving DecidableEq, Repr

def SubscriptionEntry.shape : Shape SubscriptionEntry :=
  .record
    (.cons "subscriptionId" .text <| .cons "policyId" .text <| .cons "apiId" .int32 <|
      .cons "appId" .int32 <| .cons "subscriptionState" .text <| .cons "timeStamp" .int64 <|
      .cons "tenantId" .int32 <| .cons "tenantDomain" .text <| .cons "subscriptionUUID" .text <|
      .cons "apiUUID" .text <| .cons "appUUID" .text .nil)
    {}
    (fun s => (s.subscriptionId, s.policyId, s.apiId, s.appId, s.subscriptionState, s.timeStamp,
      s.tenantId, s.tenantDomain, s.subscriptionUUID, s.apiUUID, s.appUUID, ()))
    (fun (subscriptionId, policyId, apiId, appId, subscriptionState, timeStamp, tenantId,
        tenantDomain, subscriptionUUID, apiUUID, appUUID, ()) =>
      { subscriptionId, policyId, apiId, appId, subscriptionState, timeStamp, tenantId,
        tenantDomain, subscriptionUUID, apiUUID, appUUID })
    (fun _ => rfl) (fun _ => rfl)

/-- The entry of a subscription in a tenant domain. -/
def Subscription.entry (s : Subscription) (domain : String) : SubscriptionEntry where
  subscriptionId := decimal s.subscriptionId.toInt
  policyId := s.policyId
  apiId := s.apiId
  appId := s.appId
  subscriptionState := s.subscriptionState
  timeStamp := s.timeStamp
  tenantId := s.tenantId
  tenantDomain := domain
  subscriptionUUID := s.subscriptionUUID
  apiUUID := s.apiUUID
  appUUID := s.applicationUUID

end PlaneBridge.Catalog
