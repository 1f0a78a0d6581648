import PlaneBridge.Json.Key
import PlaneBridge.Proofs.Catalog.Snapshot
import PlaneBridge.Proofs.Json.Number
import PlaneBridge.Proofs.Shape.Order

/-!
# Where entries come from

Every field of a record has its place in the entry, so the record can be told from the entry, but
for the domain that has been filled in.  `origin?` does that for each kind, and `originOf` does it
for a value in a message.  The number of a subscription or an API stands in its entry in base ten
and is read from there.
-/

namespace PlaneBridge

open Json (Value)

/-- The decimal spelling of a number is its key. -/
theorem Json.int32Key_decimal (n : Int32) : Json.int32Key (decimal n.toInt) = .ok n := by
  have hlow := n.le_toInt
  have hhigh := n.toInt_lt
  let i : Json.Integer := ⟨n.toInt, by omega, by omega⟩
  have htext : (decimal n.toInt).toList = Json.Number.text (.int i) := by
    rw [decimal, String.toList_ofList]
    rfl
  obtain ⟨numeral, hscan, hvalue⟩ := Json.Number.readsBack_int i
  obtain ⟨c, rest, hcons, hhead⟩ := Json.Numeral.head_of_scan hscan
  have hbounds : -0x80000000 ≤ i.val ∧ i.val ≤ 0x7fffffff := by
    constructor
    · simpa [i] using hlow
    · have hlt : i.val < 2147483648 := by simpa [i] using hhigh
      omega
  rw [int32Key, htext, hcons]
  simp only [hhead, if_true, ← hcons, hscan, hvalue]
  show (do
    let m ← Node.toInteger (-0x80000000) 0x7fffffff (.num (some (.int i)))
    if ([] : List Char).isEmpty then return Int32.ofInt m else .error .malformed) = _
  rw [Node.toInteger, if_pos hbounds]
  exact congrArg Except.ok n.ofInt_toInt

namespace Catalog

/-! ## Records without their domains -/

/-- The field in which records of a type name their tenant domain. -/
structure DomainField (α : Type) where
  get : α → String
  set : α → String → α
  get_set : ∀ a domain, get (set a domain) = domain
  set_get : ∀ a, set a (get a) = a
  set_set : ∀ a domain domain', set (set a domain) domain' = set a domain'

def Subscription.domainField : DomainField Subscription :=
  ⟨(·.tenantDomain), fun s domain => { s with tenantDomain := domain }, fun _ _ => rfl,
    fun _ => rfl, fun _ _ _ => rfl⟩

def Application.domainField : DomainField Application :=
  ⟨(·.tenantDomain), fun a domain => { a with tenantDomain := domain }, fun _ _ => rfl,
    fun _ => rfl, fun _ _ _ => rfl⟩

def SubscriptionPolicy.domainField : DomainField SubscriptionPolicy :=
  ⟨(·.tenantDomain), fun p domain => { p with tenantDomain := domain }, fun _ _ => rfl,
    fun _ => rfl, fun _ _ _ => rfl⟩

def KeyMapping.domainField : DomainField KeyMapping :=
  ⟨(·.tenantDomain), fun m domain => { m with tenantDomain := domain }, fun _ _ => rfl,
    fun _ => rfl, fun _ _ _ => rfl⟩

namespace DomainField

variable {α : Type} (f : DomainField α)

/-- The record with the domain that it has in a message. -/
def filled (resolver : Tenant.Resolver) (a : α) : α := f.set a (resolver.domainFor 0 (f.get a))

/-- The same in every field, but that where one of them leaves the domain empty, the other may name
the one supplied. -/
def Same (supplied : String) (a b : α) : Prop :=
  f.set a "" = f.set b "" ∧
    (f.get a = f.get b ∨ f.get a = "" ∧ f.get b = supplied ∨ f.get b = "" ∧ f.get a = supplied)

variable {f} {resolver : Tenant.Resolver} {a b : α}

theorem filled_of_ne (h : f.get a ≠ "") : f.filled resolver a = a := by
  rw [filled, Tenant.Resolver.domainFor, if_pos h, f.set_get]

/-- Records that come to the same with their domains filled in differ in no more than that. -/
theorem same_of_filled_eq (h : f.filled resolver a = f.filled resolver b) :
    f.Same (resolver.connected 0) a b := by
  have hrest : f.set a "" = f.set b "" := by
    have hcleared := congrArg (f.set · "") h
    simpa only [filled, f.set_set] using hcleared
  have hdomain : resolver.domainFor 0 (f.get a) = resolver.domainFor 0 (f.get b) := by
    have hget := congrArg f.get h
    simpa only [filled, f.get_set] using hget
  refine ⟨hrest, ?_⟩
  by_cases ha : f.get a = "" <;> by_cases hb : f.get b = ""
  · exact .inl (ha.trans hb.symm)
  · rw [Tenant.Resolver.domainFor, if_neg (not_not_intro ha), Tenant.Resolver.domainFor,
      if_pos hb] at hdomain
    exact .inr (.inl ⟨ha, hdomain.symm⟩)
  · rw [Tenant.Resolver.domainFor, if_pos ha, Tenant.Resolver.domainFor,
      if_neg (not_not_intro hb)] at hdomain
    exact .inr (.inr ⟨hb, hdomain⟩)
  · rw [Tenant.Resolver.domainFor, if_pos ha, Tenant.Resolver.domainFor, if_pos hb] at hdomain
    exact .inl hdomain

end DomainField

/-! ## From entries to records -/

def SubscriptionEntry.origin? (e : SubscriptionEntry) : Option Subscription := do
  let subscriptionId ← (Json.int32Key e.subscriptionId).toOption
  return {
    subscriptionId
    policyId := e.policyId
    apiId := e.apiId
    appId := e.appId
    subscriptionState := e.subscriptionState
    timeStamp := e.timeStamp
    tenantId := e.tenantId
    tenantDomain := e.tenantDomain
    subscriptionUUID := e.subscriptionUUID
    apiUUID := e.apiUUID
    applicationUUID := e.appUUID }

def ApplicationEntry.origin? (e : ApplicationEntry) : Option Application :=
  some {
    id := e.id
    uuid := e.uuid
    name := e.name
    subName := e.subName
    policy := e.policy
    tokenType := e.tokenType
    groupIds := e.groupIds
    attributes := e.attributes
    tenantId := e.tenantId
    tenantDomain := e.tenantDomain
    timeStamp := e.timestamp }

def ApiEntry.origin? (e : ApiEntry) : Option Api := do
  let apiId ← (Json.int32Key e.apiId).toOption
  return {
    apiId
    uuid := e.uuid
    name := e.name
    provider := e.provider
    version := e.version
    context := e.context
    policy := e.policy
    apiType := e.apiType
    isDefaultVersion := e.isDefaultVersion
    status := e.lcState }

def ApplicationPolicyEntry.origin? (e : ApplicationPolicyEntry) : Option ApplicationPolicy :=
  some { id := e.id, tenantId := e.tenantId, name := e.name, quotaType := e.quotaType }

def SubscriptionPolicyEntry.origin? (e : SubscriptionPolicyEntry) : Option SubscriptionPolicy :=
  some {
    id := e.id
    tenantId := e.tenantId
    name := e.name
    quotaType := e.quotaType
    graphQLMaxComplexity := e.graphQLMaxComplexity
    graphQLMaxDepth := e.graphQLMaxDepth
    rateLimitCount := e.rateLimitCount
    rateLimitTimeUnit := e.rateLimitTimeUnit
    stopOnQuotaReach := e.stopOnQuotaReach
    tenantDomain := e.tenantDomain
    timeStamp := e.timestamp }

def KeyMappingEntry.origin? (e : KeyMappingEntry) : Option KeyMapping :=
  some {
    applicationId := e.applicationId
    applicationUUID := e.applicationUUID
    consumerKey := e.consumerKey
    keyType := e.keyType
    keyManager := e.keyManager
    tenantId := e.tenantId
    tenantDomain := e.tenantDomain
    timeStamp := e.timestamp }

theorem Subscription.origin?_entry (s : Subscription) (domain : String) :
    (s.entry domain).origin? = some (domainField.set s domain) := by
  rw [SubscriptionEntry.origin?, entry, Json.int32Key_decimal]
  rfl

theorem Api.origin?_entry (a : Api) : a.entry.origin? = some a := by
  rw [ApiEntry.origin?, entry, Json.int32Key_decimal]
  rfl

/-- The record that a value of a message comes from. -/
def originOf {α β : Type} (shape : Shape β) (origin? : β → Option α) (v : Value) : Option α :=
  (shape.ofValue true v).toOption.bind origin?

theorem originOf_sorted {α β : Type} {shape : Shape β} (hregular : shape.regular = true)
    (origin? : β → Option α) (e : β) :
    originOf shape origin? (shape.toJson e).sorted = origin? e := by
  rw [originOf, Shape.ofValue, shape.ofJson_sorted _ hregular (shape.encodes_toJson e)]
  rfl

/-- The values that a message lists. -/
def listedValues : Value → List Value
  | .obj members =>
    match members.lookup "list" with
    | some (.arr vs) => vs
    | _ => []
  | _ => []

theorem listedValues_wireList {β : Type} (shape : Shape β) (es : List β) :
    listedValues (wireList shape es) = es.map fun e => (shape.toJson e).sorted :=
  rfl

end Catalog
end PlaneBridge
