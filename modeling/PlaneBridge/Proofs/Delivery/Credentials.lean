import PlaneBridge.Proofs.Delivery.Session

/-!
# Where credentials go

Two notifiers with different credentials, and with all other settings the same, send the same
messages over the same replies.  Nobody who does not look at the authorization of a request can tell
them apart: `run_credentials`.

That needs more than a look at what a request is made of.  Were there credentials that no header
could hold, a message would be skipped under these and sent under others, and all messages behind it
would meet other replies.
-/

namespace PlaneBridge.Delivery

/-- Whether two requests are the same but for their authorization. -/
structure Request.Alike (q q' : Request) : Prop where
  method : q.method = q'.method
  url : q.url = q'.url
  body : q.body = q'.body
  headers : q.headers.filter (·.1 ≠ "authorization") = q'.headers.filter (·.1 ≠ "authorization")

/-- Whether two deliveries have gone the same way with requests that are alike. -/
structure Sent.Alike {σ : Type} (sent sent' : Sent σ) : Prop where
  outcome : sent.outcome = sent'.outcome
  requests : List.Forall₂ Request.Alike sent.requests sent'.requests
  notices : sent.notices = sent'.notices
  rest : sent.rest = sent'.rest

/-- Whether two sessions have gone the same way, request by request. -/
structure Session.Alike {σ : Type} (session session' : Session σ) : Prop where
  outcomes : session.outcomes = session'.outcomes
  requests : List.Forall₂ Request.Alike session.requests session'.requests
  notices : session.notices = session'.notices
  rest : session.rest = session'.rest

section

variable {σ : Type} {next : Source σ} {r r' : Request}

/-- What an attempt comes to is decided by the reply, and what is told of it names nothing but the
method and the address. -/
theorem step_congr (h : r.Alike r') (attempts : Nat) (reply : Reply) :
    step r attempts reply = step r' attempts reply := by
  have hnotice : failureNotice r (attempts + 1) reply = failureNotice r' (attempts + 1) reply := by
    cases reply <;> simp only [failureNotice, h.url]
  simp only [step, hnotice, h.method, h.url]

theorem deliverFrom_alike (h : r.Alike r') (attempts left : Nat) (s : σ) :
    (deliverFrom next r attempts left s).Alike (deliverFrom next r' attempts left s) := by
  induction left generalizing attempts s with
  | zero => exact ⟨rfl, .nil, rfl, rfl⟩
  | succ left ih =>
    simp only [deliverFrom, step_congr h]
    -- Both deliveries take the same step, so they end together or go on together.
    rcases step r' attempts (next s).1 with ⟨attempts | outcome, notices⟩
    · have hrest := ih attempts (next s).2
      exact ⟨hrest.outcome, .cons h hrest.requests, congrArg (notices ++ ·) hrest.notices,
        hrest.rest⟩
    · exact ⟨rfl, .cons h .nil, rfl, rfl⟩

variable (next) (c : Config.ControlPlane) (username password : String)

theorem Notification.request_alike (n : Notification) :
    (n.request c).Alike (n.request { c with username, password }) :=
  ⟨rfl, rfl, rfl, rfl⟩

theorem Notification.skip?_credentials (n : Notification) :
    n.skip? { c with username, password } = n.skip? c := by
  cases n <;> rfl

theorem Notification.send_alike (n : Notification) (s : σ) :
    (n.send next c s).Alike (n.send next { c with username, password } s) := by
  have hsame := n.skip?_credentials c username password
  cases hskip : n.skip? c with
  | some reason =>
    rw [send_of_skip?_eq_some next hskip, send_of_skip?_eq_some next (hsame.trans hskip)]
    exact ⟨rfl, .nil, rfl, rfl⟩
  | none =>
    rw [send_of_skip?_eq_none next hskip, send_of_skip?_eq_none next (hsame.trans hskip)]
    exact deliverFrom_alike (n.request_alike c username password) 0 maxAttempts s

namespace Session

/-- One message more keeps sessions alike. -/
theorem Alike.send {session session' : Session σ} (h : session.Alike session') (n : Notification) :
    (session.send next c n).Alike (session'.send next { c with username, password } n) := by
  have hsent := n.send_alike next c username password session.rest
  rw [Session.send, Session.send, ← h.rest]
  constructor
  · rw [h.outcomes, hsent.outcome]
  · exact List.rel_append h.requests hsent.requests
  · rw [h.notices, hsent.notices]
  · exact hsent.rest

theorem Alike.foldl {session session' : Session σ} (h : session.Alike session')
    (calls : List Notification) :
    (calls.foldl (Session.send next c) session).Alike
      (calls.foldl (Session.send next { c with username, password }) session') := by
  induction calls generalizing session session' with
  | nil => exact h
  | cons n calls ih => exact ih (h.send next c username password n)

/-- With other credentials a session has the same outcomes, tells the same and takes the same
replies, and its requests are as many and differ in their authorization at most. -/
theorem run_credentials (s : σ) (calls : List Notification) :
    (run next c s calls).Alike (run next { c with username, password } s calls) :=
  Alike.foldl next c username password ⟨rfl, .nil, rfl, rfl⟩ calls

end Session

end

end PlaneBridge.Delivery
