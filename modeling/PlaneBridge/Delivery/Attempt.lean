import PlaneBridge.Notice

/-!
# Delivering a request

A request is sent until the control plane takes it, three times at most, and then given up.  `step`
is what one reply does to a delivery; `deliver` takes replies one by one from a source, for as long
as the delivery goes on.
-/

namespace PlaneBridge.Delivery

def maxAttempts : Nat := 3

inductive SkipReason where
  | disabled
  | nothingToSend
  | missingField
  | encodingFailed
  deriving DecidableEq, Repr

def SkipReason.name : SkipReason → String
  | .disabled => "Disabled"
  | .nothingToSend => "NothingToSend"
  | .missingField => "MissingField"
  | .encodingFailed => "EncodingFailed"

inductive Outcome where
  | skipped (reason : SkipReason)
  /-- The control plane took the last of the attempts. -/
  | delivered (attempts : Nat)
  | exhausted (attempts : Nat)
  deriving DecidableEq, Repr

namespace Outcome

def attempts : Outcome → Nat
  | .skipped _ => 0
  | .delivered n | .exhausted n => n

def isDelivered : Outcome → Bool
  | .delivered _ => true
  | _ => false

def text : Outcome → String
  | .skipped reason => "skipped (" ++ reason.name ++ ")"
  | .delivered n => "delivered after " ++ decimal n ++ " attempt(s)"
  | .exhausted n => "dropped after " ++ decimal n ++ " failed attempt(s)"

end Outcome

/-! ## One delivery -/

/-- A delivery: under way after so many attempts, or at its end. -/
inductive Progress where
  | underWay (attempts : Nat)
  | ended (outcome : Outcome)
  deriving DecidableEq, Repr

def failureNotice (r : Request) (attempt : Nat) : Reply → Notice
  | .status code => .requestRefused code r.url attempt
  | .failure reason => .requestFailed r.url attempt reason

/-- A delivery under way after the reply to one attempt more, and what there is to tell. -/
def step (r : Request) (attempts : Nat) (reply : Reply) : Progress × List Notice :=
  let attempt := attempts + 1
  if reply.isAccepted then
    (.ended (.delivered attempt), [.requestAccepted r.method r.url attempt])
  else if attempt < maxAttempts then (.underWay attempt, [failureNotice r attempt reply])
  else
    (.ended (.exhausted attempt),
      [failureNotice r attempt reply, .requestGivenUp r.method r.url attempt])

abbrev Source (σ : Type) := σ → Reply × σ

/-- What sending a notification comes to. -/
structure Sent (σ : Type) where
  outcome : Outcome
  /-- What has been handed to the transport, in order. -/
  requests : List Request
  notices : List Notice
  /-- The source after the replies that have been taken. -/
  rest : σ

/-- A delivery under way, to its end.  It takes a reply for each attempt that is left. -/
def deliverFrom {σ : Type} (next : Source σ) (r : Request) (attempts : Nat) : (left : Nat) → σ →
    Sent σ
  | 0, s => ⟨.exhausted attempts, [], [], s⟩
  | left + 1, s =>
    let (reply, s) := next s
    match step r attempts reply with
    | (.ended outcome, notices) => ⟨outcome, [r], notices, s⟩
    | (.underWay attempts, notices) =>
      let sent := deliverFrom next r attempts left s
      { sent with requests := r :: sent.requests, notices := notices ++ sent.notices }

def deliver {σ : Type} (next : Source σ) (r : Request) (s : σ) : Sent σ :=
  deliverFrom next r 0 maxAttempts s

end PlaneBridge.Delivery
