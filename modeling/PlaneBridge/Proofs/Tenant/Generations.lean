import Mathlib.Data.List.Induction
import PlaneBridge.Proofs.Tenant

/-!
# Generations

Over one resolver domains are filled in and new generations begin, in any order.  `Generations` is
that history as the operator sees it, the domains handed in generation by generation, and knows
nothing of a backfill.  `Backfill.Follows` ties the two together: how often the resolver has been
asked, what has been told, and what the generation under way fills in.  Every step keeps it,
`Follows.step`, so it holds after every run, and `generations_askOnce` says what that comes to.
-/

namespace PlaneBridge.Tenant

/-- A domain is filled in, or a new generation begins. -/
inductive Step where
  | fill (domain : String)
  | renew
  deriving DecidableEq, Repr

/-- The domains that have been handed in, generation by generation. -/
structure Generations where
  past : List (List String)
  current : List String
  deriving DecidableEq, Repr

namespace Generations

def next (g : Generations) : Step → Generations
  | .fill domain => { g with current := g.current ++ [domain] }
  | .renew => ⟨g.past ++ [g.current], []⟩

/-- The generations that steps go through, from the first one. -/
def ofSteps (steps : List Step) : Generations := steps.foldl next ⟨[], []⟩

/-- In how many generations an empty domain has been handed in. -/
def unscoped (g : Generations) : Nat :=
  (g.past ++ [g.current]).countP fun domains => "" ∈ domains

theorem ofSteps_append (steps rest : List Step) :
    ofSteps (steps ++ rest) = rest.foldl next (ofSteps steps) :=
  List.foldl_append

section

variable (g : Generations)

theorem unscoped_eq :
    g.unscoped = g.past.countP (fun domains => "" ∈ domains) +
      if "" ∈ g.current then 1 else 0 := by
  rw [unscoped, List.countP_append, List.countP_singleton]
  simp only [decide_eq_true_eq]

theorem unscoped_renew : (g.next .renew).unscoped = g.unscoped := by
  rw [unscoped, next, List.countP_append]
  rfl

theorem unscoped_fill_of_ne {domain : String} (h : domain ≠ "") :
    (g.next (.fill domain)).unscoped = g.unscoped := by
  have hmem : "" ∈ g.current ++ [domain] ↔ "" ∈ g.current := by
    simp [h.symm]
  simp only [unscoped_eq, next, hmem]

theorem unscoped_fill_empty :
    (g.next (.fill "")).unscoped = g.unscoped + if "" ∈ g.current then 0 else 1 := by
  have hmem : "" ∈ g.current ++ [""] := List.mem_append_right _ List.mem_cons_self
  simp only [unscoped_eq, next, if_pos hmem]
  split <;> omega

end

end Generations

namespace Backfill

/-- A step, with the domain that it gives back if it fills one in. -/
def step (resolver : Resolver) : Step → StateM Backfill (Option String)
  | .fill domain => do return some (← fill resolver domain)
  | .renew => do
    modify renew
    return none

/-- Steps over a resolver that has not been asked, with what each of them gives back. -/
def run (resolver : Resolver) (steps : List Step) : List (Option String) × Backfill :=
  steps.mapM (step resolver) start

section

variable (resolver : Resolver)

theorem run_append (steps rest : List Step) :
    run resolver (steps ++ rest) =
      ((run resolver steps).1 ++ (rest.mapM (step resolver) (run resolver steps).2).1,
        (rest.mapM (step resolver) (run resolver steps).2).2) := by
  rw [run, List.mapM_append]
  rfl

theorem run_append_singleton (steps : List Step) (s : Step) :
    (run resolver (steps ++ [s])).2 = (step resolver s (run resolver steps).2).2 := by
  rw [run_append, List.mapM_cons]
  rfl

theorem step_fill (domain : String) (b : Backfill) :
    step resolver (.fill domain) b =
      (some (b.filled resolver domain), b.after resolver [domain]) := by
  show (do return some (← fill resolver domain) : StateM Backfill (Option String)) b = _
  rw [bind_eq, fill_eq]
  rfl

/-- Within a generation the steps give back what it fills in. -/
theorem mapM_step_fill (domains : List String) (b : Backfill) :
    ((domains.map Step.fill).mapM (step resolver) b).1 =
      domains.map fun domain => some (b.filled resolver domain) := by
  induction domains generalizing b with
  | nil => rfl
  | cons domain domains ih =>
    have hrest := ih (b.after resolver [domain])
    simp only [filled_after] at hrest
    rw [List.map_cons, List.map_cons, List.mapM_cons, bind_eq, step_fill, bind_eq, ← hrest]
    rfl

/-! ## What a backfill knows of its history -/

/-- A backfill over a resolver that has been through these generations. -/
structure Follows (g : Generations) (b : Backfill) : Prop where
  asked : b.asked = g.unscoped
  notices : b.notices = (List.range b.asked).flatMap resolver.notices
  /-- The answer to the last question is what a generation fills in that has asked one. -/
  settled : b.settled =
    if "" ∈ g.current then some (resolver.connected (b.asked - 1)) else none

variable {resolver} {g : Generations} {b : Backfill}

theorem Follows.start : Follows resolver ⟨[], []⟩ Backfill.start := ⟨rfl, rfl, rfl⟩

theorem Follows.supply_of_notMem (h : Follows resolver g b) (hmem : "" ∉ g.current) :
    b.supply resolver = resolver.connected b.asked := by
  rw [supply, h.settled, if_neg hmem, Option.getD_none]

theorem Follows.settle_of_notMem (h : Follows resolver g b) (hmem : "" ∉ g.current) :
    b.settle resolver =
      { asked := b.asked + 1
        settled := some (resolver.connected b.asked)
        notices := b.notices ++ resolver.notices b.asked } := by
  have hsettled := h.settled
  rw [if_neg hmem] at hsettled
  exact settle_of_none hsettled

theorem Follows.settle_of_mem (h : Follows resolver g b) (hmem : "" ∈ g.current) :
    b.settle resolver = b := by
  have hsettled := h.settled
  rw [if_pos hmem] at hsettled
  exact settle_of_settled hsettled

/-- What a single domain does to a backfill, by whether it is empty. -/
theorem after_singleton (resolver : Resolver) (b : Backfill) (domain : String) :
    b.after resolver [domain] = if domain = "" then b.settle resolver else b := by
  have hmem : "" ∈ [domain] ↔ domain = "" := by
    rw [List.mem_singleton]
    exact eq_comm
  simp only [after, hmem]

theorem Follows.fill_empty (h : Follows resolver g b) :
    Follows resolver (g.next (.fill "")) (b.settle resolver) := by
  have hcurrent : "" ∈ (g.next (.fill "")).current :=
    List.mem_append_right _ List.mem_cons_self
  have hcount := g.unscoped_fill_empty
  by_cases hmem : "" ∈ g.current
  · -- the generation has been settled already
    rw [if_pos hmem, Nat.add_zero] at hcount
    rw [h.settle_of_mem hmem]
    refine ⟨h.asked.trans hcount.symm, h.notices, ?_⟩
    rw [h.settled, if_pos hmem, if_pos hcurrent]
  · rw [if_neg hmem] at hcount
    rw [h.settle_of_notMem hmem]
    refine ⟨?_, ?_, ?_⟩
    · rw [hcount, h.asked]
    · rw [List.range_succ, List.flatMap_append, ← h.notices, List.flatMap_singleton]
    · rw [if_pos hcurrent, Nat.add_sub_cancel]

theorem Follows.fill_of_ne (h : Follows resolver g b) {domain : String} (hdomain : domain ≠ "") :
    Follows resolver (g.next (.fill domain)) b := by
  have hmem : "" ∈ (g.next (.fill domain)).current ↔ "" ∈ g.current := by
    simp [Generations.next, hdomain.symm]
  refine ⟨?_, h.notices, ?_⟩
  · rw [g.unscoped_fill_of_ne hdomain, h.asked]
  · simp only [hmem, h.settled]

/-- Every step is followed. -/
theorem Follows.step (h : Follows resolver g b) (s : Step) :
    Follows resolver (g.next s) (Backfill.step resolver s b).2 := by
  cases s with
  | fill domain =>
    rw [step_fill, after_singleton]
    by_cases hdomain : domain = ""
    · rw [if_pos hdomain, hdomain]
      exact h.fill_empty
    · rw [if_neg hdomain]
      exact h.fill_of_ne hdomain
  | renew => exact ⟨h.asked.trans g.unscoped_renew.symm, h.notices, rfl⟩

variable (resolver)

theorem follows_run (steps : List Step) :
    Follows resolver (.ofSteps steps) (run resolver steps).2 := by
  induction steps using List.reverseRecOn with
  | nil => exact Follows.start
  | append_singleton steps s ih =>
    rw [Generations.ofSteps_append, run_append_singleton]
    exact ih.step s

/-! ## Answers to come -/

variable {resolver}

theorem asked_le_step (s : Step) (b : Backfill) : b.asked ≤ (step resolver s b).2.asked := by
  cases s with
  | renew => exact Nat.le_refl b.asked
  | fill domain =>
    rw [step_fill, after_singleton, settle]
    split
    · cases b.settled with
      | none => exact Nat.le_succ b.asked
      | some settled => exact Nat.le_refl b.asked
    · exact Nat.le_refl b.asked

/-- A step asks a resolver only the question that is due. -/
theorem step_congr {later : Resolver} {b : Backfill} (h : later b.asked = resolver b.asked)
    (s : Step) : step later s b = step resolver s b := by
  have hconnected : later.connected b.asked = resolver.connected b.asked := by
    simp only [Resolver.connected, h]
  have hnotices : later.notices b.asked = resolver.notices b.asked := by
    simp only [Resolver.notices, h]
  cases s with
  | renew => rfl
  | fill domain =>
    simp only [step_fill, filled, supply, after, settle, hconnected, hnotices]

theorem run_congr {later : Resolver} {steps : List Step}
    (h : ∀ n ≤ (run resolver steps).2.asked, later n = resolver n) :
    run later steps = run resolver steps := by
  induction steps using List.reverseRecOn with
  | nil => rfl
  | append_singleton steps s ih =>
    have hle : (run resolver steps).2.asked ≤ (run resolver (steps ++ [s])).2.asked := by
      rw [run_append_singleton]
      exact asked_le_step s _
    have hsteps := ih fun n hn => h n (Nat.le_trans hn hle)
    have hlast := step_congr (h _ hle) s
    rw [run_append, run_append, hsteps, List.mapM_cons, List.mapM_cons, bind_eq, bind_eq, hlast]
    rfl

end

/-- Whatever domains have been filled in before, and whatever generations there have been, the
resolver has been asked once for each generation in which an empty domain has been handed in, and
what has been told is that an answer was empty.  A domain that is not empty comes back and changes
nothing.  An empty one asks the resolver if it is the first of its generation, and otherwise changes
nothing either.  All empty domains of a generation come to the same domain, which is not empty and
is settled by that one answer, whatever the resolver answers later. -/
theorem generations_askOnce (resolver : Resolver) (steps : List Step) :
    let g := Generations.ofSteps steps
    let b := (run resolver steps).2
    (b.asked = g.unscoped ∧ b.notices = (List.range b.asked).flatMap resolver.notices ∧
      ∀ n, (resolver.notices n).map Notice.line =
        if resolver n = "" then
          ["WARN Connected tenant domain is empty, falling back to carbon.super"]
        else []) ∧
    (∀ domain, domain ≠ "" → fill resolver domain b = (domain, b)) ∧
    ("" ∉ g.current → fill resolver "" b =
      (resolver.connected b.asked,
        { asked := b.asked + 1
          settled := some (resolver.connected b.asked)
          notices := b.notices ++ resolver.notices b.asked })) ∧
    ("" ∈ g.current → (fill resolver "" b).2 = b) ∧
    (g.current = [] → resolver.connected b.asked ≠ "" ∧
      ∀ (later : Resolver), (∀ n ≤ b.asked, later n = resolver n) →
        ∀ domains : List String, (run later (steps ++ domains.map .fill)).1 =
          (run resolver steps).1 ++ domains.map fun domain =>
            some (if domain = "" then resolver.connected b.asked else domain)) := by
  intro g b
  have hfollows : Follows resolver g b := follows_run resolver steps
  refine ⟨⟨hfollows.asked, hfollows.notices, resolver.lines_notices⟩, ?given, ?first, ?again,
    ?generation⟩
  case given =>
    intro domain hdomain
    rw [fill_eq, filled_of_ne hdomain, after_singleton, if_neg hdomain]
  case first =>
    intro hmem
    rw [fill_eq, filled_empty, after_singleton, if_pos rfl, hfollows.supply_of_notMem hmem,
      hfollows.settle_of_notMem hmem]
  case again =>
    intro hmem
    rw [fill_eq, after_singleton, if_pos rfl, hfollows.settle_of_mem hmem]
  case generation =>
    intro hcurrent
    refine ⟨resolver.connected_ne_empty b.asked, fun later hlater domains => ?_⟩
    have hmem : "" ∉ g.current := by
      rw [hcurrent]
      exact List.not_mem_nil
    have hsteps : run later steps = run resolver steps := run_congr hlater
    have hsupply : b.supply later = resolver.connected b.asked := by
      have hlast : Follows later g (run later steps).2 := follows_run later steps
      rw [hsteps] at hlast
      rw [hlast.supply_of_notMem hmem, Resolver.connected, Resolver.connected,
        hlater b.asked (Nat.le_refl _)]
    rw [run_append, hsteps, mapM_step_fill]
    refine congrArg _ (List.map_congr_left fun domain _ => ?_)
    by_cases hdomain : domain = ""
    · rw [hdomain, filled_empty, hsupply, if_pos rfl]
    · rw [filled_of_ne hdomain, if_neg hdomain]

/-- Its first answer is empty, and none of the later ones is. -/
def slowResolver : Resolver := fun asked => if asked = 0 then "" else "late.com"

/-- The first generation keeps what it has fallen back to.  The second asks nothing, and the third
has a domain of its own. -/
theorem generations_askOnce_fallenBack :
    (run slowResolver [.fill "", .fill "a", .fill ""]).1 =
      [some "carbon.super", some "a", some "carbon.super"] ∧
    (run slowResolver [.fill "", .renew, .fill "a", .renew]).2.asked = 1 ∧
    fill slowResolver "" (run slowResolver [.fill "", .renew, .fill "a", .renew]).2 =
      ("late.com", ⟨2, some "late.com", [.domainFellBack "carbon.super"]⟩) := by
  obtain ⟨-, -, -, -, hgeneration⟩ := generations_askOnce slowResolver []
  obtain ⟨⟨hasked, -⟩, -, hfirst, -⟩ :=
    generations_askOnce slowResolver [.fill "", .renew, .fill "a", .renew]
  refine ⟨?_, hasked, ?_⟩
  · exact (hgeneration rfl).2 slowResolver (fun _ _ => rfl) ["", "a", ""]
  · exact hfirst List.not_mem_nil

end Backfill
end PlaneBridge.Tenant
