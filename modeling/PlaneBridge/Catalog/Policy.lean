import PlaneBridge.Shape.Basic

/-!
# Throttling policies

The policies that limit applications and subscriptions, as the control plane lists them and as the
enforcer receives them.
-/

namespace PlaneBridge.Catalog

/-- A policy for applications as the control plane lists it. -/
structure ApplicationPolicy where
  id : Int32 := 0
  tenantId : Int32 := 0
  name : String := ""
  quotaType : String := ""
  deriving DecidableEq, Repr

def ApplicationPolicy.shape : Shape ApplicationPolicy :=
  .record
    (.cons "id" .int32 <| .cons "tenantId" .int32 <| .cons "name" .text <|
      .cons "quotaType" .text .nil)
    {}
    (fun p => (p.id, p.tenantId, p.name, p.quotaType, ()))
    (fun (id, tenantId, name, quotaType, ()) => { id, tenantId, name, quotaType })
    (fun _ => rfl) (fun _ => rfl)

/-- A policy for applications as the enforcer receives it. -/
structure ApplicationPolicyEntry where
  id : Int32 := 0
  tenantId : Int32 := 0
  name : String := ""
  quotaType : String := ""
  deriving DecidableEq, Repr

def ApplicationPolicyEntry.shape : Shape ApplicationPolicyEntry :=
  .record
    (.cons "id" .int32 <| .cons "tenantId" .int32 <| .cons "name" .text <|
      .cons "quotaType" .text .nil)
    {}
    (fun p => (p.id, p.tenantId, p.name, p.quotaType, ()))
    (fun (id, tenantId, name, quotaType, ()) => { id, tenantId, name, quotaType })
    (fun _ => rfl) (fun _ => rfl)

def ApplicationPolicy.entry (p : ApplicationPolicy) : ApplicationPolicyEntry where
  id := p.id
  tenantId := p.tenantId
  name := p.name
  quotaType := p.quotaType

/-- A policy for subscriptions as the control plane lists it. -/
structure SubscriptionPolicy where
  id : Int32 := 0
  tenantId : Int32 := 0
  name : String := ""
  quotaType : String := ""
  graphQLMaxComplexity : Int32 := 0
  graphQLMaxDepth : Int32 := 0
  rateLimitCount : Int32 := 0
  rateLimitTimeUnit : String := ""
  stopOnQuotaReach : Bool := false
  tenantDomain : String := ""
  timeStamp : Int64 := 0
  deriving DecidableEq, Repr

def SubscriptionPolicy.shape : Shape SubscriptionPolicy :=
  .record
    (.cons "id" .int32 <| .cons "tenantId" .int32 <| .cons "name" .text <|
      .cons "quotaType" .text <| .cons "graphQLMaxComplexity" .int32 <|
      .cons "graphQLMaxDepth" .int32 <| .cons "rateLimitCount" .int32 <|
      .cons "rateLimitTimeUnit" .text <| .cons "stopOnQuotaReach" .flag <|
      .cons "tenantDomain" .text <| .cons "timeStamp" .int64 .nil)
    {}
    (fun p => (p.id, p.tenantId, p.name, p.quotaType, p.graphQLMaxComplexity, p.graphQLMaxDepth,
      p.rateLimitCount, p.rateLimitTimeUnit, p.stopOnQuotaReach, p.tenantDomain, p.timeStamp, ()))
    (fun (id, tenantId, name, quotaType, graphQLMaxComplexity, graphQLMaxDepth, rateLimitCount,
        rateLimitTimeUnit, stopOnQuotaReach, tenantDomain, timeStamp, ()) =>
      { id, tenantId, name, quotaType, graphQLMaxComplexity, graphQLMaxDepth, rateLimitCount,
        rateLimitTimeUnit, stopOnQuotaReach, tenantDomain, timeStamp })
    (fun _ => rfl) (fun _ => rfl)

/-- A policy for subscriptions as the enforcer receives it. -/
structure SubscriptionPolicyEntry where
  id : Int32 := 0
  tenantId : Int32 := 0
  name : String := ""
  quotaType : String := ""
  graphQLMaxComplexity : Int32 := 0
  graphQLMaxDepth : Int32 := 0
  rateLimitCount : Int32 := 0
  rateLimitTimeUnit : String := ""
  stopOnQuotaReach : Bool := false
  tenantDomain : String := ""
  timestamp : Int64 := 0
  deriving DecidableEq, Repr

def SubscriptionPolicyEntry.shape : Shape SubscriptionPolicyEntry :=
  .record
    (.cons "id" .int32 <| .cons "tenantId" .int32 <| .cons "name" .text <|
      .cons "quotaType" .text <| .cons "graphQLMaxComplexity" .int32 <|
      .cons "graphQLMaxDepth" .int32 <| .cons "rateLimitCount" .int32 <|
      .cons "rateLimitTimeUnit" .text <| .cons "stopOnQuotaReach" .flag <|
      .cons "tenantDomain" .text <| .cons "timestamp" .int64 .nil)
    {}
    (fun p => (p.id, p.tenantId, p.name, p.quotaType, p.graphQLMaxComplexity, p.graphQLMaxDepth,
      p.rateLimitCount, p.rateLimitTimeUnit, p.stopOnQuotaReach, p.tenantDomain, p.timestamp, ()))
    (fun (id, tenantId, name, quotaType, graphQLMaxComplexity, graphQLMaxDepth, rateLimitCount,
        rateLimitTimeUnit, stopOnQuotaReach, tenantDomain, timestamp, ()) =>
      { id, tenantId, name, quotaType, graphQLMaxComplexity, graphQLMaxDepth, rateLimitCount,
        rateLimitTimeUnit, stopOnQuotaReach, tenantDomain, timestamp })
    (fun _ => rfl) (fun _ => rfl)

/-- The entry of a policy in a tenant domain. -/
def SubscriptionPolicy.entry (p : SubscriptionPolicy) (domain : String) :
    SubscriptionPolicyEntry where
  id := p.id
  tenantId := p.tenantId
  name := p.name
  quotaType := p.quotaType
  graphQLMaxComplexity := p.graphQLMaxComplexity
  graphQLMaxDepth := p.graphQLMaxDepth
  rateLimitCount := p.rateLimitCount
  rateLimitTimeUnit := p.rateLimitTimeUnit
  stopOnQuotaReach := p.stopOnQuotaReach
  tenantDomain := domain
  timestamp := p.timeStamp

end PlaneBridge.Catalog
