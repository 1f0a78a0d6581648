/-!
# Requests to the control plane

A request as it is handed to the transport, and what comes back: the status of a response, or the
text of the failure where there was none.
-/

namespace PlaneBridge.Delivery

inductive Method where
  | patch
  | post
  deriving DecidableEq, Repr

def Method.name : Method → String
  | .patch => "PATCH"
  | .post => "POST"

structure Request where
  method : Method
  url : String
  /-- Names in lower case and values. -/
  headers : List (String × String)
  body : String
  deriving DecidableEq, Repr

inductive Reply where
  | status (code : Nat)
  | failure (reason : String)
  deriving DecidableEq, Repr

/-- Only this status says that the control plane has taken a request. -/
def accepted : Nat := 200

def Reply.isAccepted (r : Reply) : Bool := r = .status accepted

end PlaneBridge.Delivery
