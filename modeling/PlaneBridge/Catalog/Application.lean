import PlaneBridge.Shape.Basic

/-!
# Applications

Applications and the keys that belong to them, as the control plane lists them and as the enforcer
receives them.
-/

namespace PlaneBridge.Catalog

/-- An application as the control plane lists it. -/
structure Application where
  id : Int32 := 0
  uuid : String := ""
  name : String := ""
  subName : String := ""
  policy : String := ""
  tokenType : String := ""
  groupIds : List String := []
  attributes : TextMap := .empty
  tenantId : Int32 := 0
  tenantDomain : String := ""
  timeStamp : Int64 := 0
  deriving DecidableEq, Repr

def Application.shape : Shape Application :=
  .record
    (.cons "id" .int32 <| .cons "uuid" .text <| .cons "name" .text <| .cons "subName" .text <|
      .cons "policy" .text <| .cons "tokenType" .text <| .cons "groupIds" (.list .text) <|
      .cons "attributes" .textMap <| .cons "tenantId" .int32 <| .cons "tenantDomain" .text <|
      .cons "timeStamp" .int64 .nil)
    {}
    (fun a => (a.id, a.uuid, a.name, a.subName, a.policy, a.tokenType, a.groupIds, a.attributes,
      a.tenantId, a.tenantDomain, a.timeStamp, ()))
    (fun (id, uuid, name, subName, policy, tokenType, groupIds, attributes, tenantId,
        tenantDomain, timeStamp, ()) =>
      { id, uuid, name, subName, policy, tokenType, groupIds, attributes, tenantId, tenantDomain,
        timeStamp })
    (fun _ => rfl) (fun _ => rfl)

/-- An application as the enforcer receives it. -/
structure ApplicationEntry where
  uuid : String := ""
  id : Int32 := 0
  name : String := ""
  subId : Int32 := 0
  subName : String := ""
  policy : String := ""
  tokenType : String := ""
  groupIds : List String := []
  attributes : TextMap := .empty
  tenantId : Int32 := 0
  tenantDomain : String := ""
  timestamp : Int64 := 0
  deriving DecidableEq, Repr

def ApplicationEntry.shape : Shape ApplicationEntry :=
  .record
    (.cons "uuid" .text <| .cons "id" .int32 <| .cons "name" .text <| .cons "subId" .int32 <|
      .cons "subName" .text <| .cons "policy" .text <| .cons "tokenType" .text <|
      .cons "groupIds" (.list .text) <| .cons "attributes" .textMap <| .cons "tenantId" .int32 <|
      .cons "tenantDomain" .text <| .cons "timestamp" .int64 .nil)
    {}
    (fun a => (a.uuid, a.id, a.name, a.subId, a.subName, a.policy, a.tokenType, a.groupIds,
      a.attributes, a.tenantId, a.tenantDomain, a.timestamp, ()))
    (fun (uuid, id, name, subId, subName, policy, tokenType, groupIds, attributes, tenantId,
        tenantDomain, timestamp, ()) =>
      { uuid, id, name, subId, subName, policy, tokenType, groupIds, attributes, tenantId,
        tenantDomain, timestamp })
    (fun _ => rfl) (fun _ => rfl)

/-- The entry of an application in a tenant domain.  The enforcer takes the subscriber's number from
the application's. -/
def Application.entry (a : Application) (domain : String) : ApplicationEntry where
  uuid := a.uuid
  id := a.id
  name := a.name
  subId := a.id
  subName := a.subName
  policy := a.policy
  tokenType := a.tokenType
  groupIds := a.groupIds
  attributes := a.attributes
  tenantId := a.tenantId
  tenantDomain := domain
  timestamp := a.timeStamp

/-- A consumer key of an application as the control plane lists it. -/
structure KeyMapping where
  applicationId : Int32 := 0
  applicationUUID : String := ""
  consumerKey : String := ""
  keyType : String := ""
  /-- The key manager that gave out the key. -/
  keyManager : String := ""
  tenantId : Int32 := 0
  tenantDomain : String := ""
  timeStamp : Int64 := 0
  deriving DecidableEq, Repr

def KeyMapping.shape : Shape KeyMapping :=
  .record
    (.cons "applicationId" .int32 <| .cons "applicationUUID" .text <|
      .cons "consumerKey" .text <| .cons "keyType" .text <| .cons "keyManager" .text <|
      .cons "tenantId" .int32 <| .cons "tenantDomain" .text <| .cons "timeStamp" .int64 .nil)
    {}
    (fun m => (m.applicationId, m.applicationUUID, m.consumerKey, m.keyType, m.keyManager,
      m.tenantId, m.tenantDomain, m.timeStamp, ()))
    (fun (applicationId, applicationUUID, consumerKey, keyType, keyManager, tenantId,
        tenantDomain, timeStamp, ()) =>
      { applicationId, applicationUUID, consumerKey, keyType, keyManager, tenantId, tenantDomain,
        timeStamp })
    (fun _ => rfl) (fun _ => rfl)

/-- A consumer key as the enforcer receives it. -/
structure KeyMappingEntry where
  consumerKey : String := ""
  keyType : String := ""
  keyManager : String := ""
  applicationId : Int32 := 0
  applicationUUID : String := ""
  tenantId : Int32 := 0
  tenantDomain : String := ""
  timestamp : Int64 := 0
  deriving DecidableEq, Repr

def KeyMappingEntry.shape : Shape KeyMappingEntry :=
  .record
    (.cons "consumerKey" .text <| .cons "keyType" .text <| .cons "keyManager" .text <|
      .cons "applicationId" .int32 <| .cons "applicationUUID" .text <|
      .cons "tenantId" .int32 <| .cons "tenantDomain" .text <| .cons "timestamp" .int64 .nil)
    {}
    (fun m => (m.consumerKey, m.keyType, m.keyManager, m.applicationId, m.applicationUUID,
      m.tenantId, m.tenantDomain, m.timestamp, ()))
    (fun (consumerKey, keyType, keyManager, applicationId, applicationUUID, tenantId,
        tenantDomain, timestamp, ()) =>
      { consumerKey, keyType, keyManager, applicationId, applicationUUID, tenantId, tenantDomain,
        timestamp })
    (fun _ => rfl) (fun _ => rfl)

/-- The entry of a consumer key in a tenant domain. -/
def KeyMapping.entry (m : KeyMapping) (domain : String) : KeyMappingEntry where
  consumerKey := m.consumerKey
  keyType := m.keyType
  keyManager := m.keyManager
  applicationId := m.applicationId
  applicationUUID := m.applicationUUID
  tenantId := m.tenantId
  tenantDomain := domain
  timestamp := m.timeStamp

end PlaneBridge.Catalog
