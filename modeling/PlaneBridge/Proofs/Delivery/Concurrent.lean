import Mathlib.Algebra.BigOperators.Group.Finset.Piecewise
import Mathlib.Data.Fintype.Defs
import PlaneBridge.Proofs.Delivery.Attempt
import PlaneBridge.Proofs.Delivery.Request

/-!
# Notifications in flight together

Any number of notifications, of one notifier or of several, share a transport and are in flight at
the same time.  Each of them hands over a request, waits for the reply and goes on from there; which
of them acts next, and what the reply is, is not up to them.  `Run` is the relation of all these
interleavings.  Handing over and receiving are acts of their own, so that other notifications may
act while one waits.

Nothing is shared but the transport, so a run is the same as one path for each notification, put
together in any order: `run_iff_path`.  What holds of a notification on its own then holds of it in
flight, and `concurrent_deliveries` collects what that comes to.
-/

namespace PlaneBridge.Delivery

/-! ## One notification, act by act -/

/-- A notification with the settings of the notifier that sends it. -/
structure Call where
  config : Config.ControlPlane
  notification : Notification

/-- Where a notification stands. -/
inductive Phase where
  /-- The next request is about to be handed over, after so many attempts. -/
  | ready (r : Request) (attempts : Nat)
  /-- A request has been handed over and its reply is still to come. -/
  | waiting (r : Request) (attempts : Nat)
  | ended (outcome : Outcome)

inductive Act where
  | sends (r : Request)
  | receives (reply : Reply)

def Act.request? : Act → Option Request
  | .sends r => some r
  | .receives _ => none

def Act.reply? : Act → Option Reply
  | .sends _ => none
  | .receives reply => some reply

def Call.phase (call : Call) : Phase :=
  match call.notification.skip? call.config with
  | some reason => .ended (.skipped reason)
  | none =>
    match call.notification.request? call.config with
    | some r => .ready r 0
    | none => .ended (.skipped .encodingFailed)

def Phase.ofProgress (r : Request) : Progress → Phase
  | .underWay attempts => .ready r attempts
  | .ended outcome => .ended outcome

namespace Phase

/-- What a notification can do next.  The reply is whatever comes. -/
inductive Step : Phase → Act → Phase → Prop
  | send (r : Request) (attempts : Nat) :
    Step (.ready r attempts) (.sends r) (.waiting r attempts)
  | receive (r : Request) (attempts : Nat) (reply : Reply) :
    Step (.waiting r attempts) (.receives reply) (.ofProgress r (step r attempts reply).1)

inductive Path : Phase → List Act → Phase → Prop
  | nil (p : Phase) : Path p [] p
  | cons {p q p' : Phase} {act : Act} {acts : List Act} :
    Step p act q → Path q acts p' → Path p (act :: acts) p'

theorem Path.eq_of_nil {p p' : Phase} (h : Path p [] p') : p = p' := by
  cases h with
  | nil => rfl

theorem Path.of_cons {p p' : Phase} {act : Act} {acts : List Act} (h : Path p (act :: acts) p') :
    ∃ q, Step p act q ∧ Path q acts p' := by
  cases h with
  | cons hstep hrest => exact ⟨_, hstep, hrest⟩

theorem Path.split {p p' : Phase} {before after : List Act} (h : Path p (before ++ after) p') :
    ∃ q, Path p before q ∧ Path q after p' := by
  induction before generalizing p with
  | nil => exact ⟨p, .nil p, h⟩
  | cons act before ih =>
    obtain ⟨m, hstep, hrest⟩ := h.of_cons
    obtain ⟨q, hbefore, hafter⟩ := ih hrest
    exact ⟨q, .cons hstep hbefore, hafter⟩

theorem Path.of_ended {outcome : Outcome} {acts : List Act} {p : Phase}
    (h : Path (.ended outcome) acts p) : acts = [] ∧ p = .ended outcome := by
  cases h with
  | nil => exact ⟨rfl, rfl⟩
  | cons hstep _ => cases hstep

/-- An acceptance is the last thing that a notification meets. -/
theorem Path.accepted_last {p p' : Phase} {before after : List Act}
    (h : Path p (before ++ .receives (.status 200) :: after) p') : after = [] := by
  obtain ⟨q, _, hafter⟩ := h.split
  obtain ⟨m, hstep, hrest⟩ := hafter.of_cons
  cases hstep with
  | receive r attempts =>
    rw [step_accepted] at hrest
    exact hrest.of_ended.1

/-! ## The trail of a notification -/

def exchanges (r : Request) (replies : List Reply) : List Act :=
  replies.flatMap fun reply => [.sends r, .receives reply]

theorem exchanges_append (r : Request) (first second : List Reply) :
    exchanges r (first ++ second) = exchanges r first ++ exchanges r second :=
  List.flatMap_append

theorem requests_exchanges (r : Request) (replies : List Reply) :
    (exchanges r replies).filterMap Act.request? = List.replicate replies.length r := by
  induction replies with
  | nil => rfl
  | cons reply replies ih =>
    show r :: (exchanges r replies).filterMap Act.request? = _
    rw [ih, List.length_cons, List.replicate_succ]

theorem replies_exchanges (r : Request) (replies : List Reply) :
    (exchanges r replies).filterMap Act.reply? = replies := by
  induction replies with
  | nil => rfl
  | cons reply replies ih =>
    show reply :: (exchanges r replies).filterMap Act.reply? = _
    rw [ih]

/-- What a notification has done by the time it stands where it does.  This is the invariant of a
notification under way: the number of attempts is the number of failures met, and below three. -/
def Trail (r : Request) (acts : List Act) : Phase → Prop
  | .ready r' attempts =>
    r' = r ∧ attempts < maxAttempts ∧ ∃ failed : List Reply, failed.length = attempts ∧
      (∀ reply ∈ failed, reply ≠ .status 200) ∧ acts = exchanges r failed
  | .waiting r' attempts =>
    r' = r ∧ attempts < maxAttempts ∧ ∃ failed : List Reply, failed.length = attempts ∧
      (∀ reply ∈ failed, reply ≠ .status 200) ∧ acts = exchanges r failed ++ [.sends r]
  | .ended outcome =>
    ∃ failed : List Reply, (∀ reply ∈ failed, reply ≠ .status 200) ∧
      ((failed.length < maxAttempts ∧ outcome = .delivered (failed.length + 1) ∧
          acts = exchanges r (failed ++ [.status 200])) ∨
        (failed.length = maxAttempts ∧ outcome = .exhausted maxAttempts ∧
          acts = exchanges r failed))

theorem Trail.send {r : Request} {acts : List Act} {attempts : Nat}
    (h : Trail r acts (.ready r attempts)) :
    Trail r (acts ++ [.sends r]) (.waiting r attempts) := by
  obtain ⟨_, hlt, failed, hlen, hfail, rfl⟩ := h
  exact ⟨rfl, hlt, failed, hlen, hfail, rfl⟩

theorem Trail.receive {r : Request} {acts : List Act} {attempts : Nat}
    (h : Trail r acts (.waiting r attempts)) (reply : Reply) :
    Trail r (acts ++ [.receives reply]) (.ofProgress r (step r attempts reply).1) := by
  obtain ⟨_, hlt, failed, rfl, hfail, rfl⟩ := h
  have hacts : exchanges r failed ++ [.sends r] ++ [.receives reply] =
      exchanges r (failed ++ [reply]) := by
    rw [exchanges_append, List.append_assoc]
    rfl
  rw [hacts]
  by_cases haccepted : reply = .status 200
  · subst haccepted
    rw [step_accepted]
    exact ⟨failed, hfail, Or.inl ⟨hlt, rfl, rfl⟩⟩
  · have hmore : ∀ q ∈ failed ++ [reply], q ≠ .status 200 := by
      intro q hq
      rcases List.mem_append.mp hq with hq | hq
      · exact hfail q hq
      · rw [List.mem_singleton.mp hq]
        exact haccepted
    -- The attempt number is the count of failures, so the third failure is the last attempt.
    by_cases hlast : failed.length + 1 = maxAttempts
    · rw [step_failed_last _ haccepted hlast]
      exact ⟨failed ++ [reply], hmore, Or.inr ⟨by rw [List.length_append]; exact hlast, rfl, rfl⟩⟩
    · have hnext : failed.length + 1 < maxAttempts := by omega
      rw [step_failed _ haccepted hnext]
      exact ⟨rfl, hnext, failed ++ [reply], List.length_append, hmore, rfl⟩

theorem Trail.step {r : Request} {acts : List Act} {p q : Phase} {act : Act}
    (h : Trail r acts p) (hstep : Step p act q) : Trail r (acts ++ [act]) q := by
  cases hstep with
  | send r' attempts =>
    obtain ⟨rfl, _⟩ := id h
    exact h.send
  | receive r' attempts reply =>
    obtain ⟨rfl, _⟩ := id h
    exact h.receive reply

theorem Path.trail {r : Request} {acts more : List Act} {p q : Phase} (h : Path p more q)
    (htrail : Trail r acts p) : Trail r (acts ++ more) q := by
  induction h generalizing acts with
  | nil => rwa [List.append_nil]
  | cons hstep _ ih =>
    rw [← List.singleton_append, ← List.append_assoc]
    exact ih (htrail.step hstep)

theorem Trail.start (r : Request) : Trail r [] (.ready r 0) :=
  ⟨rfl, by decide, [], rfl, by simp, rfl⟩

/-- A notification sends one request and no other, three times at most. -/
theorem Trail.requests {r : Request} {acts : List Act} {p : Phase} (h : Trail r acts p) :
    ∃ count, count ≤ maxAttempts ∧ acts.filterMap Act.request? = List.replicate count r := by
  cases p with
  | ready r' attempts =>
    obtain ⟨_, hlt, failed, rfl, _, rfl⟩ := h
    exact ⟨failed.length, Nat.le_of_lt hlt, requests_exchanges r failed⟩
  | waiting r' attempts =>
    obtain ⟨_, hlt, failed, rfl, _, rfl⟩ := h
    refine ⟨failed.length + 1, hlt, ?_⟩
    rw [List.filterMap_append, requests_exchanges, List.replicate_succ']
    rfl
  | ended outcome =>
    obtain ⟨failed, _, ⟨hlt, _, rfl⟩ | ⟨hlen, _, rfl⟩⟩ := h
    · refine ⟨failed.length + 1, hlt, ?_⟩
      rw [requests_exchanges, List.length_append]
      rfl
    · exact ⟨failed.length, Nat.le_of_eq hlen, requests_exchanges r failed⟩

/-- At its end a notification has done what a delivery does that has these replies and no others to
take. -/
theorem Trail.deliver {r : Request} {acts : List Act} {outcome : Outcome}
    (h : Trail r acts (.ended outcome)) (fallback : Reply) :
    ∃ notices, deliver Script.next r ⟨acts.filterMap Act.reply?, fallback⟩ =
      ⟨outcome, acts.filterMap Act.request?, notices, ⟨[], fallback⟩⟩ := by
  obtain ⟨failed, hfail, ⟨hlt, rfl, rfl⟩ | ⟨hlen, rfl, rfl⟩⟩ := h
  · rw [replies_exchanges, requests_exchanges]
    have htake := Script.take_next (failed ++ [.status 200]) [] fallback
    rw [List.append_nil, List.length_append] at htake
    rw [deliver_of_accepted hfail hlt htake, List.length_append]
    exact ⟨_, rfl⟩
  · rw [replies_exchanges, requests_exchanges]
    have htake := Script.take_next failed [] fallback
    rw [List.append_nil, hlen] at htake
    rw [deliver_of_failed hfail hlen htake, hlen]
    exact ⟨_, rfl⟩

end Phase

namespace Call

theorem phase_of_skip {call : Call} {reason : SkipReason}
    (h : call.notification.skip? call.config = some reason) :
    call.phase = .ended (.skipped reason) := by
  simp only [phase, h]

theorem phase_of_request {call : Call} (h : call.notification.skip? call.config = none) :
    call.phase = .ready (call.notification.request call.config) 0 := by
  simp only [phase, h, Notification.request?_eq_some]

end Call

/-! ## All notifications together -/

section

variable {ι : Type} [DecidableEq ι]

/-- Acts of notifications in flight together, one after the other, each by one of them. -/
inductive Run : (ι → Phase) → List (ι × Act) → (ι → Phase) → Prop
  | nil (state : ι → Phase) : Run state [] state
  | cons {state state' : ι → Phase} {i : ι} {act : Act} {q : Phase} {history : List (ι × Act)} :
    Phase.Step (state i) act q → Run (Function.update state i q) history state' →
      Run state ((i, act) :: history) state'

def actsOf (i : ι) (history : List (ι × Act)) : List Act :=
  history.filterMap fun event => if event.1 = i then some event.2 else none

def requestsOf (i : ι) (history : List (ι × Act)) : List Request :=
  (actsOf i history).filterMap Act.request?

def repliesOf (i : ι) (history : List (ι × Act)) : List Reply :=
  (actsOf i history).filterMap Act.reply?

/-- The requests that the shared transport has met, each with the notification it was sent for. -/
def trace (history : List (ι × Act)) : List (ι × Request) :=
  history.filterMap fun event => event.2.request?.map (event.1, ·)

theorem actsOf_cons (i j : ι) (act : Act) (history : List (ι × Act)) :
    actsOf i ((j, act) :: history) =
      if j = i then act :: actsOf i history else actsOf i history := by
  by_cases hji : j = i
  · simp [actsOf, hji]
  · simp [actsOf, hji]

theorem actsOf_append (i : ι) (before after : List (ι × Act)) :
    actsOf i (before ++ after) = actsOf i before ++ actsOf i after :=
  List.filterMap_append

theorem mem_requestsOf {i : ι} {r : Request} {history : List (ι × Act)}
    (h : (i, r) ∈ trace history) : r ∈ requestsOf i history := by
  obtain ⟨⟨j, act⟩, hevent, hact⟩ := List.mem_filterMap.mp h
  obtain ⟨q, hq, hpair⟩ := Option.map_eq_some_iff.mp hact
  obtain ⟨rfl, rfl⟩ := Prod.mk.inj hpair
  exact List.mem_filterMap.mpr
    ⟨act, List.mem_filterMap.mpr ⟨(j, act), hevent, if_pos rfl⟩, hq⟩

/-- A run is one path for each notification, put together in any order. -/
theorem run_iff_path {state state' : ι → Phase} {history : List (ι × Act)} :
    Run state history state' ↔ ∀ i, Phase.Path (state i) (actsOf i history) (state' i) := by
  constructor
  · intro h i
    induction h with
    | nil state => exact .nil (state i)
    | @cons state state' j act q history hstep _ ih =>
      rw [actsOf_cons]
      by_cases hji : j = i
      · subst hji
        rw [Function.update_self] at ih
        rw [if_pos rfl]
        exact .cons hstep ih
      · rw [Function.update_of_ne (Ne.symm hji)] at ih
        rwa [if_neg hji]
  · intro h
    -- The history says who acts first.  Only that path has a step to give, the others wait.
    induction history generalizing state with
    | nil =>
      have hsame : state = state' := funext fun i => (h i).eq_of_nil
      rw [hsame]
      exact .nil state'
    | cons event history ih =>
      obtain ⟨i, act⟩ := event
      have hi := h i
      rw [actsOf_cons, if_pos rfl] at hi
      obtain ⟨q, hstep, hrest⟩ := hi.of_cons
      refine .cons hstep (ih fun j => ?_)
      by_cases hji : j = i
      · subst hji
        rwa [Function.update_self]
      · have hj := h j
        rw [actsOf_cons, if_neg (Ne.symm hji)] at hj
        rwa [Function.update_of_ne hji]

theorem length_trace [Fintype ι] (history : List (ι × Act)) :
    (trace history).length = ∑ i, (requestsOf i history).length := by
  induction history with
  | nil => simp [trace, requestsOf, actsOf]
  | cons event history ih =>
    obtain ⟨i, act⟩ := event
    cases act with
    | sends r =>
      have hcount : ∀ j, (requestsOf j ((i, .sends r) :: history)).length =
          (requestsOf j history).length + if i = j then 1 else 0 := by
        intro j
        rw [requestsOf, actsOf_cons]
        by_cases hij : i = j
        · rw [if_pos hij, if_pos hij]
          rfl
        · rw [if_neg hij, if_neg hij]
          rfl
      show (trace history).length + 1 = _
      rw [Finset.sum_congr rfl fun j _ => hcount j, Finset.sum_add_distrib, ← ih,
        Finset.sum_ite_eq Finset.univ i, if_pos (Finset.mem_univ i)]
    | receives reply =>
      have hcount : ∀ j, requestsOf j ((i, .receives reply) :: history) =
          requestsOf j history := by
        intro j
        rw [requestsOf, actsOf_cons]
        by_cases hij : i = j
        · rw [if_pos hij]
          rfl
        · rw [if_neg hij]
          rfl
      show (trace history).length = _
      rw [ih, Finset.sum_congr rfl fun j _ => congrArg List.length (hcount j)]

/-- In a run a notification that is not sent does nothing, and any other one follows its trail. -/
theorem Run.call {calls : ι → Call} {history : List (ι × Act)} {state : ι → Phase}
    (h : Run (fun i => (calls i).phase) history state) (i : ι) :
    (∃ reason, (calls i).notification.skip? (calls i).config = some reason ∧
        actsOf i history = [] ∧ state i = .ended (.skipped reason)) ∨
      ((calls i).notification.skip? (calls i).config = none ∧
        Phase.Trail ((calls i).notification.request (calls i).config) (actsOf i history)
          (state i)) := by
  have hpath := run_iff_path.mp h i
  cases hskip : (calls i).notification.skip? (calls i).config with
  | some reason =>
    rw [Call.phase_of_skip hskip] at hpath
    exact Or.inl ⟨reason, rfl, hpath.of_ended⟩
  | none =>
    rw [Call.phase_of_request hskip] at hpath
    exact Or.inr ⟨rfl, hpath.trail (Phase.Trail.start _)⟩

theorem Run.requestsOf_eq_replicate {calls : ι → Call} {history : List (ι × Act)}
    {state : ι → Phase} (h : Run (fun i => (calls i).phase) history state) (i : ι) :
    ∃ count, count ≤ maxAttempts ∧ requestsOf i history =
      List.replicate count ((calls i).notification.request (calls i).config) := by
  rcases h.call i with ⟨reason, _, hacts, _⟩ | ⟨_, htrail⟩
  · exact ⟨0, Nat.zero_le _, by rw [requestsOf, hacts]; rfl⟩
  · exact htrail.requests

/-- A notification in flight ends as it does when it is sent alone and has the replies to itself
that it has received. -/
theorem Run.send_alone {calls : ι → Call} {history : List (ι × Act)} {state : ι → Phase}
    (h : Run (fun i => (calls i).phase) history state) {i : ι} {outcome : Outcome}
    (hended : state i = .ended outcome) (fallback : Reply) :
    ∃ notices, (calls i).notification.send Script.next (calls i).config
        ⟨repliesOf i history, fallback⟩ =
      ⟨outcome, requestsOf i history, notices, ⟨[], fallback⟩⟩ := by
  rcases h.call i with ⟨reason, hskip, hacts, hstate⟩ | ⟨hskip, htrail⟩
  · obtain rfl : Outcome.skipped reason = outcome := Phase.ended.inj (hstate.symm.trans hended)
    rw [Notification.send_of_skip?_eq_some _ hskip, repliesOf, requestsOf, hacts]
    exact ⟨[], rfl⟩
  · rw [hended] at htrail
    rw [Notification.send_of_skip?_eq_none _ hskip]
    exact htrail.deliver fallback

theorem Run.attempts {calls : ι → Call} {history : List (ι × Act)} {state : ι → Phase}
    (h : Run (fun i => (calls i).phase) history state) {i : ι} {outcome : Outcome}
    (hended : state i = .ended outcome) :
    (requestsOf i history).length = outcome.attempts := by
  rcases h.call i with ⟨reason, _, hacts, hstate⟩ | ⟨_, htrail⟩
  · obtain rfl : Outcome.skipped reason = outcome := Phase.ended.inj (hstate.symm.trans hended)
    rw [requestsOf, hacts]
    rfl
  · rw [hended] at htrail
    obtain ⟨failed, _, ⟨_, rfl, hacts⟩ | ⟨hlen, rfl, hacts⟩⟩ := htrail
    · rw [requestsOf, hacts, Phase.requests_exchanges, List.length_replicate, List.length_append]
      rfl
    · rw [requestsOf, hacts, Phase.requests_exchanges, List.length_replicate, hlen]
      rfl

/-- Whatever else is in flight and in whatever order they act, each notification keeps to the rules
of a delivery, and at the end it is as if it had been sent alone. -/
theorem concurrent_deliveries [Fintype ι] (calls : ι → Call) {history : List (ι × Act)}
    {state : ι → Phase} (h : Run (fun i => (calls i).phase) history state) :
    (∀ i, (requestsOf i history).length ≤ 3) ∧
      (∀ i before after, history = before ++ (i, .receives (.status 200)) :: after →
        requestsOf i after = []) ∧
      (∀ i reason, (calls i).notification.skip? (calls i).config = some reason →
        state i = .ended (.skipped reason)) ∧
      (∀ i reason, state i = .ended (.skipped reason) → requestsOf i history = []) ∧
      (∀ i r, (i, r) ∈ trace history →
        (calls i).notification.request? (calls i).config = some r) ∧
      ∀ outcomes : ι → Outcome, (∀ i, state i = .ended (outcomes i)) →
        (trace history).length = ∑ i, (outcomes i).attempts ∧
          ∀ i fallback, ∃ notices, (calls i).notification.send Script.next (calls i).config
              ⟨repliesOf i history, fallback⟩ =
            ⟨outcomes i, requestsOf i history, notices, ⟨[], fallback⟩⟩ := by
  refine ⟨fun i => ?_, fun i before after hsplit => ?_, fun i reason hskip => ?_,
    fun i reason hstate => ?_, fun i r hr => ?_, fun outcomes hended => ⟨?_, fun i fallback => ?_⟩⟩
  · obtain ⟨count, hcount, hrequests⟩ := h.requestsOf_eq_replicate i
    rw [hrequests, List.length_replicate]
    exact hcount
  · have hpath := run_iff_path.mp h i
    rw [hsplit, actsOf_append, actsOf_cons, if_pos rfl] at hpath
    rw [requestsOf, hpath.accepted_last]
    rfl
  · rcases h.call i with ⟨reason', hskip', _, hstate⟩ | ⟨hnone, _⟩
    · rw [hstate, Option.some.inj (hskip'.symm.trans hskip)]
    · rw [hnone] at hskip
      cases hskip
  · exact List.length_eq_zero_iff.mp (h.attempts hstate)
  · obtain ⟨count, _, hrequests⟩ := h.requestsOf_eq_replicate i
    have hmem := mem_requestsOf hr
    rw [hrequests] at hmem
    rw [List.eq_of_mem_replicate hmem]
    exact Notification.request?_eq_some _ _
  · rw [length_trace, Finset.sum_congr rfl fun i _ => h.attempts (hended i)]
  · exact h.send_alone (hended i) fallback

end

/-! ## Two notifications that take turns -/

/-- A deployed revision and one that has been taken away, told by different notifiers. -/
def turnsCall : Bool → Call
  | false =>
    { config := { enabled := true, serviceUrl := "https://cp:9443" }
      notification := .deployed [{ apiId := "a1", revisionId := 7 }] }
  | true =>
    { config := { serviceUrl := "https://other/", username := "svc" }
      notification := .removed { apiUUID := "a2", revisionUUID := "r2", environment := "prod" } }

def turnsRequest (b : Bool) : Request := (turnsCall b).notification.request (turnsCall b).config

/-- The first one fails once, while the second one is taken at once. -/
def turns : List (Bool × Act) :=
  [(false, .sends (turnsRequest false)), (true, .sends (turnsRequest true)),
    (false, .receives (.failure "connection refused")), (true, .receives (.status 200)),
    (false, .sends (turnsRequest false)), (false, .receives (.status 200))]

def turnsOutcome : Bool → Outcome
  | false => .delivered 2
  | true => .delivered 1

theorem run_turns :
    Run (fun b => (turnsCall b).phase) turns fun b => .ended (turnsOutcome b) := by
  refine run_iff_path.mpr fun b => ?_
  cases b with
  | false =>
    show Phase.Path (turnsCall false).phase _ _
    rw [Call.phase_of_request rfl]
    exact .cons (.send _ 0) (.cons (.receive _ 0 _) (.cons (.send _ 1)
      (.cons (.receive _ 1 _) (.nil _))))
  | true =>
    show Phase.Path (turnsCall true).phase _ _
    rw [Call.phase_of_request rfl]
    exact .cons (.send _ 0) (.cons (.receive _ 0 _) (.nil _))

theorem concurrent_deliveries_turns :
    Run (fun b => (turnsCall b).phase) turns (fun b => .ended (turnsOutcome b)) ∧
      (∀ b, (requestsOf b turns).length ≤ 3) ∧
      (∀ b before after, turns = before ++ (b, .receives (.status 200)) :: after →
        requestsOf b after = []) ∧
      (trace turns).length = ∑ b, (turnsOutcome b).attempts := by
  have h := concurrent_deliveries turnsCall run_turns
  exact ⟨run_turns, h.1, h.2.1, (h.2.2.2.2.2 turnsOutcome fun _ => rfl).1⟩

end PlaneBridge.Delivery
