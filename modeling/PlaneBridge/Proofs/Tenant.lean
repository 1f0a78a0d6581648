import PlaneBridge.Tenant

/-!
# Filling domains in

Within a generation every empty domain is filled in with the same one, `Backfill.supply`, and it
does not matter which of them is met first: meeting one settles the generation, and settling what
is settled does nothing.  `fill_eq` says what one domain comes to, `fillAll_eq` what a list of
records comes to.
-/

namespace PlaneBridge.Tenant

/-- The domain that an answer of the resolver stands for. -/
def Resolver.connected (resolver : Resolver) (asked : Nat) : String :=
  if resolver asked ≠ "" then resolver asked else defaultDomain

theorem Resolver.connected_of_ne {resolver : Resolver} {asked : Nat} (h : resolver asked ≠ "") :
    resolver.connected asked = resolver asked :=
  if_pos h

theorem Resolver.connected_of_empty {resolver : Resolver} {asked : Nat} (h : resolver asked = "") :
    resolver.connected asked = defaultDomain :=
  if_neg fun hne => hne h

theorem Resolver.connected_ne_empty (resolver : Resolver) (asked : Nat) :
    resolver.connected asked ≠ "" := by
  by_cases h : resolver asked = ""
  · rw [Resolver.connected_of_empty h]
    decide
  · rw [Resolver.connected_of_ne h]
    exact h

/-- What a domain comes to in a generation that begins after so many questions. -/
def Resolver.domainFor (resolver : Resolver) (asked : Nat) (domain : String) : String :=
  if domain ≠ "" then domain else resolver.connected asked

theorem Resolver.domainFor_ne_empty (resolver : Resolver) (asked : Nat) (domain : String) :
    resolver.domainFor asked domain ≠ "" := by
  by_cases h : domain = ""
  · rw [Resolver.domainFor, if_neg fun hne => hne h]
    exact resolver.connected_ne_empty asked
  · rw [Resolver.domainFor, if_pos h]
    exact h

def Resolver.notices (resolver : Resolver) (asked : Nat) : List Notice :=
  if resolver asked = "" then [.domainFellBack defaultDomain] else []

theorem Resolver.lines_notices (resolver : Resolver) (asked : Nat) :
    (resolver.notices asked).map Notice.line =
      if resolver asked = "" then
        ["WARN Connected tenant domain is empty, falling back to carbon.super"]
      else [] := by
  by_cases h : resolver asked = ""
  · rw [Resolver.notices, if_pos h, if_pos h]
    decide +kernel
  · rw [Resolver.notices, if_neg h, if_neg h]
    rfl

namespace Backfill

/-- The domain that this generation fills in, has filled in or would. -/
def supply (resolver : Resolver) (b : Backfill) : String :=
  b.settled.getD (resolver.connected b.asked)

/-- The generation once an empty domain has been met. -/
def settle (resolver : Resolver) (b : Backfill) : Backfill :=
  match b.settled with
  | some _ => b
  | none =>
    { asked := b.asked + 1
      settled := some (resolver.connected b.asked)
      notices := b.notices ++ resolver.notices b.asked }

/-- What a domain comes to in this generation. -/
def filled (resolver : Resolver) (b : Backfill) (domain : String) : String :=
  if domain ≠ "" then domain else b.supply resolver

/-- The generation once these domains have been met. -/
def after (resolver : Resolver) (b : Backfill) (domains : List String) : Backfill :=
  if "" ∈ domains then b.settle resolver else b

section

variable {resolver : Resolver} {b : Backfill}

theorem settle_of_settled {settled : String} (h : b.settled = some settled) :
    b.settle resolver = b := by
  simp only [settle, h]

theorem settle_of_none (h : b.settled = none) :
    b.settle resolver =
      { asked := b.asked + 1
        settled := some (resolver.connected b.asked)
        notices := b.notices ++ resolver.notices b.asked } := by
  simp only [settle, h]

theorem settled_settle (resolver : Resolver) (b : Backfill) :
    (b.settle resolver).settled = some (b.supply resolver) := by
  cases h : b.settled with
  | none => rw [settle_of_none h, supply, h, Option.getD_none]
  | some settled => rw [settle_of_settled h, supply, h, Option.getD_some]

theorem settle_settle (resolver : Resolver) (b : Backfill) :
    (b.settle resolver).settle resolver = b.settle resolver :=
  settle_of_settled (settled_settle resolver b)

theorem supply_settle (resolver : Resolver) (b : Backfill) :
    (b.settle resolver).supply resolver = b.supply resolver := by
  rw [supply, settled_settle, Option.getD_some]

theorem filled_of_ne {domain : String} (h : domain ≠ "") : b.filled resolver domain = domain :=
  if_pos h

theorem filled_empty : b.filled resolver "" = b.supply resolver := rfl

theorem after_of_mem {domains : List String} (h : "" ∈ domains) :
    b.after resolver domains = b.settle resolver :=
  if_pos h

theorem after_of_notMem {domains : List String} (h : "" ∉ domains) :
    b.after resolver domains = b :=
  if_neg h

/-- Domains that have been met change nothing for those to come. -/
theorem filled_after (resolver : Resolver) (b : Backfill) (domains : List String)
    (domain : String) :
    (b.after resolver domains).filled resolver domain = b.filled resolver domain := by
  by_cases hmem : "" ∈ domains
  · by_cases hdomain : domain = ""
    · rw [hdomain, after_of_mem hmem, filled_empty, filled_empty, supply_settle]
    · rw [filled_of_ne hdomain, filled_of_ne hdomain]
  · rw [after_of_notMem hmem]

theorem after_append (resolver : Resolver) (b : Backfill) (first second : List String) :
    (b.after resolver first).after resolver second = b.after resolver (first ++ second) := by
  -- Settling a second time does nothing, so it only matters whether anybody settles.
  by_cases hsecond : "" ∈ second
  · have hboth : "" ∈ first ++ second := List.mem_append_right first hsecond
    rw [after_of_mem hsecond, after_of_mem hboth]
    by_cases hfirst : "" ∈ first
    · rw [after_of_mem hfirst, settle_settle]
    · rw [after_of_notMem hfirst]
  · rw [after_of_notMem hsecond]
    by_cases hfirst : "" ∈ first
    · rw [after_of_mem hfirst, after_of_mem (List.mem_append_left second hfirst)]
    · have hneither : "" ∉ first ++ second := by
        rw [List.mem_append]
        exact not_or.mpr ⟨hfirst, hsecond⟩
      rw [after_of_notMem hfirst, after_of_notMem hneither]

theorem fill_eq (resolver : Resolver) (domain : String) (b : Backfill) :
    fill resolver domain b = (b.filled resolver domain, b.after resolver [domain]) := by
  by_cases hdomain : domain = ""
  · subst hdomain
    rw [filled_empty, after_of_mem List.mem_cons_self]
    cases hsettled : b.settled with
    | some settled =>
      rw [settle_of_settled hsettled, supply, hsettled]
      simp only [fill, hsettled]
      rfl
    | none =>
      rw [settle_of_none hsettled, supply, hsettled, Option.getD_none]
      by_cases hanswer : resolver b.asked = ""
      · rw [Resolver.connected_of_empty hanswer, Resolver.notices, if_pos hanswer]
        simp only [fill, hsettled, hanswer, ne_eq, not_true_eq_false, if_false]
      · rw [Resolver.connected_of_ne hanswer, Resolver.notices, if_neg hanswer, List.append_nil]
        simp only [fill, hsettled, hanswer, ne_eq, not_true_eq_false, if_false, not_false_eq_true,
          if_true]
  · have hnotMem : "" ∉ [domain] := fun hmem => hdomain (List.mem_singleton.mp hmem).symm
    rw [filled_of_ne hdomain, after_of_notMem hnotMem]
    exact if_pos hdomain

theorem bind_eq {α β : Type} (m : StateM Backfill α) (f : α → StateM Backfill β) (b : Backfill) :
    (m >>= f) b = f (m b).1 (m b).2 :=
  rfl

theorem fillEntry_eq {β : Type} (resolver : Resolver) (entry : String → β) (domain : String)
    (b : Backfill) :
    (do return entry (← fill resolver domain) : StateM Backfill β) b =
      (entry (b.filled resolver domain), b.after resolver [domain]) := by
  rw [bind_eq, fill_eq]
  rfl

theorem mapM_fill {α β : Type} (resolver : Resolver) (domain : α → String)
    (entry : α → String → β) (xs : List α) (b : Backfill) :
    xs.mapM (m := StateM Backfill) (fun a => do return entry a (← fill resolver (domain a))) b =
      (xs.map fun a => entry a (b.filled resolver (domain a)),
        b.after resolver (xs.map domain)) := by
  -- The generation is generalized: behind the first record it is one that has met a domain.
  induction xs generalizing b with
  | nil => rfl
  | cons a xs ih =>
    have hfirst := fillEntry_eq resolver (entry a) (domain a) b
    have hrest := ih (b.after resolver [domain a])
    simp only [filled_after, after_append] at hrest
    rw [List.mapM_cons, bind_eq, hfirst, bind_eq, hrest]
    rfl

/-- What filling a list of records in comes to, in a generation of their own. -/
theorem fillAll_eq {α β : Type} (resolver : Resolver) (domain : α → String)
    (entry : α → String → β) (xs : List α) (b : Backfill) :
    fillAll resolver domain entry xs b =
      (xs.map fun a => entry a (resolver.domainFor b.asked (domain a)),
        b.renew.after resolver (xs.map domain)) :=
  mapM_fill resolver domain entry xs b.renew

end

end Backfill
end PlaneBridge.Tenant
