import PlaneBridge.Notice

/-!
# Tenant domains

Every record of the enforcer belongs to a tenant domain, but the control plane leaves some of them
empty.  Those get the domain that the adapter is connected to, for which a resolver is asked.

Records are filled in generations: within one, the resolver is asked at the first empty domain and
not again.
-/

namespace PlaneBridge.Tenant

def defaultDomain : String := "carbon.super"

/-- What a resolver answers, by how often it has been asked before. -/
abbrev Resolver := Nat → String

def Resolver.always (domain : String) : Resolver := fun _ => domain

/-- A resolver as far as it has been asked, within one generation. -/
structure Backfill where
  asked : Nat
  /-- The domain that this generation fills in, once the resolver has been asked for it. -/
  settled : Option String
  notices : List Notice
  deriving DecidableEq, Repr

namespace Backfill

def start : Backfill := ⟨0, none, []⟩

def renew (b : Backfill) : Backfill := { b with settled := none }

/-- The domain itself or, where it is empty, the one that this generation fills in. -/
def fill (resolver : Resolver) (domain : String) : StateM Backfill String := fun b =>
  if domain ≠ "" then (domain, b)
  else
    match b.settled with
    | some settled => (settled, b)
    | none =>
      let answer := resolver b.asked
      if answer ≠ "" then (answer, { b with asked := b.asked + 1, settled := some answer })
      else
        (defaultDomain,
          { asked := b.asked + 1
            settled := some defaultDomain
            notices := b.notices ++ [.domainFellBack defaultDomain] })

/-- Each element with its domain filled in, in a generation of their own. -/
def fillAll {α β : Type} (resolver : Resolver) (domain : α → String) (entry : α → String → β)
    (xs : List α) : StateM Backfill (List β) := do
  modify renew
  xs.mapM fun a => do return entry a (← fill resolver (domain a))

end Backfill
end PlaneBridge.Tenant
