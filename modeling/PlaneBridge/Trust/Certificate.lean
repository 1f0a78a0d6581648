import PlaneBridge.Trust.Der

/-!
# Certificates

Whether bytes are an X.509 certificate that can be trusted as a root.  Only what trusting needs is
looked at: the frame, the version, and the extensions that say how far the trust goes.

Certificates of the third version may have extensions.  Those of the first version have neither a
version number nor extensions.
-/

namespace PlaneBridge.Trust.Certificate

open Der

/-! ## Extensions -/

structure Extension where
  identifier : List UInt8
  critical : Bool
  value : List UInt8
  deriving DecidableEq, Repr

/-- Whether an extension is critical, and what is behind that.  One that does not say so is not. -/
def critical? (bytes : List UInt8) : Option (Bool × List UInt8) :=
  if bytes.head? = some Tag.boolean.byte then do
    let (content, rest) ← element? .boolean bytes
    match content with
    | [0xFF] => return (true, rest)
    | [0x00] => return (false, rest)
    | _ => none
  else some (false, bytes)

def extension? (bytes : List UInt8) : Option Extension := do
  let (identifier, rest) ← element? .objectIdentifier bytes
  let (critical, rest) ← critical? rest
  let value ← whole? .octetString rest
  return { identifier, critical, value }

/-- Under the arc of certificate extensions: key usage, alternative names of the subject, basic
constraints, name constraints and extended key usage. -/
def understood : List UInt8 := [15, 17, 19, 30, 37]

def number? (identifier : List UInt8) : Option UInt8 :=
  match identifier with
  | [0x55, 0x1D, n] => if understood.contains n then some n else none
  | _ => none

/-- Whether the value of an extension is what its number asks for: a sequence at its beginning and
nothing else, but for the bits of the key usage, which are taken as they are. -/
def holds (n : UInt8) (value : List UInt8) : Bool :=
  n = 15 || (whole? .sequence value).isSome

/-- Whether extensions can be accepted, of which some numbers have been seen.  No number comes
twice, and an extension that is not understood must not be critical. -/
def acceptable (seen : List UInt8) : List Extension → Bool
  | [] => true
  | e :: rest =>
    match number? e.identifier with
    | some n => !seen.contains n && holds n e.value && acceptable (n :: seen) rest
    | none => !e.critical && acceptable seen rest

/-- Whether the end of a certificate's body is nothing or extensions that can be accepted. -/
def extensionsHold (bytes : List UInt8) : Bool :=
  bytes.isEmpty ||
    ((do
      let list ← whole? .sequence (← whole? (.context 3) bytes)
      let extensions ← (← elements? .sequence (list.length + 1) list).mapM extension?
      return acceptable [] extensions).getD false)

/-! ## The frame -/

/-- The contents of elements of these tags, one after the other, and what is behind them. -/
def fields? : List Tag → List UInt8 → Option (List (List UInt8) × List UInt8)
  | [], bytes => some ([], bytes)
  | tag :: tags, bytes => do
    let (content, rest) ← element? tag bytes
    let (contents, rest) ← fields? tags rest
    return (content :: contents, rest)

/-- Serial number, algorithm of the signature, issuer, validity, subject and public key. -/
def bodyTags : List Tag := [.integer, .sequence, .sequence, .sequence, .sequence, .sequence]

structure Frame where
  body : List UInt8
  algorithm : List UInt8
  signature : List UInt8
  deriving Repr

def frame? (bytes : List UInt8) : Option Frame := do
  match ← fields? [.sequence, .sequence, .bitString] (← whole? .sequence bytes) with
  | ([body, algorithm, signature], []) => return { body, algorithm, signature }
  | _ => none

/-- Whether a certificate without version number can be trusted. -/
def isFirstVersion (f : Frame) : Bool :=
  match fields? bodyTags f.body with
  | some (_, rest) => rest.isEmpty
  | none => false

/-- Whether the rest of a body, behind the version number, is that of the third version. -/
def isThirdVersion (f : Frame) (rest : List UInt8) : Bool :=
  match fields? bodyTags rest with
  | some (_ :: algorithm :: _, extensions) =>
    algorithm = f.algorithm && extensionsHold extensions
  | _ => false

/-- Whether the bytes are a certificate that can be trusted as a root.  Its signature has no unused
bits. -/
def isTrustable (bytes : List UInt8) : Bool :=
  match frame? bytes with
  | none => false
  | some f =>
    f.signature.head? = some 0 &&
      match element? (.context 0) f.body with
      | some (version, rest) => version = [Tag.integer.byte, 1, 2] && isThirdVersion f rest
      | none => isFirstVersion f

end PlaneBridge.Trust.Certificate
