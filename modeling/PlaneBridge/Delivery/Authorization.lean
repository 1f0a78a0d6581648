import PlaneBridge.Text.Base64

/-!
# Basic authorization

The value of the header that names the user: the word `Basic` and, in Base64, the user's name, a
colon and the password.
-/

namespace PlaneBridge.Delivery

/-- What the header says, before it is put into Base64. -/
def credentials (username password : String) : List UInt8 :=
  (username ++ ":" ++ password).toUTF8.toList

def basicAuthorization (username password : String) : String :=
  "Basic " ++ String.ofList (Text.Base64.encode (credentials username password))

end PlaneBridge.Delivery
