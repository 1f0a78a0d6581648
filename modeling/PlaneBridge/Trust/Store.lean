import PlaneBridge.Disk
import PlaneBridge.Notice
import PlaneBridge.Trust.Pem

/-!
# Truststores

A truststore is a PEM text with certificates.  One that cannot be read to its end is refused as a
whole, and so is one without certificates.
-/

namespace PlaneBridge.Trust

abbrev Certificate := List UInt8

namespace Store

inductive Error where
  | unreadable (path : String)
  | pem (error : Pem.Error)
  | empty
  deriving DecidableEq, Repr

def Error.message : Error → String
  | .unreadable path => "Failed to read truststore " ++ path
  | .pem error => "Failed to parse certificates: " ++ error.message
  | .empty => "No certificates found in PEM data"

/-- The certificates of a PEM text in their order. -/
def parse (text : List UInt8) : Except Error (List Certificate) := do
  let sections ← (Pem.sections text).mapError .pem
  match (sections.filter (·.label = Pem.certificate)).map (·.content) with
  | [] => throw .empty
  | certificates => return certificates

/-- The certificates of a file, and what there is to tell. -/
def load (disk : Disk) (path : String) : Except Error (List Certificate) × List Notice :=
  match disk.read path with
  | .error _ => (.error (.unreadable path), [])
  | .ok content =>
    match parse content.toList with
    | .error e => (.error e, [])
    | .ok certificates => (.ok certificates, [.certificatesLoaded certificates.length path])

end Store
end PlaneBridge.Trust
