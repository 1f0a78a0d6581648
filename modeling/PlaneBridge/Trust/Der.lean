/-!
# DER

The elements of a DER text: a tag, a length and that many bytes of content.  Tags have one byte, and
a length is written in as few bytes as it takes and stays below 65535.
-/

namespace PlaneBridge.Trust.Der

inductive Tag where
  | boolean
  | integer
  | bitString
  | octetString
  | objectIdentifier
  | sequence
  /-- A tag that has its meaning from where it stands. -/
  | context (n : Fin 31)
  deriving DecidableEq, Repr

def Tag.byte : Tag → UInt8
  | .boolean => 0x01
  | .integer => 0x02
  | .bitString => 0x03
  | .octetString => 0x04
  | .objectIdentifier => 0x06
  | .sequence => 0x30
  | .context n => 0xA0 + .ofNat n.val

/-- Bytes as a number, the first of them the highest. -/
def number (bytes : List UInt8) : Nat := bytes.foldl (fun n b => n * 256 + b.toNat) 0

/-- The length that a number of bytes gives, if fewer could not give it. -/
def longLength? (count : Nat) (bytes : List UInt8) : Option (Nat × List UInt8) :=
  let n := number (bytes.take count)
  let least := if count = 1 then 128 else Nat.pow 256 (count - 1)
  if count ≤ bytes.length ∧ least ≤ n then some (n, bytes.drop count) else none

def length? : List UInt8 → Option (Nat × List UInt8)
  | [] => none
  | b :: rest =>
    if b < 0x80 then some (b.toNat, rest)
    else if 0x81 ≤ b ∧ b ≤ 0x84 then longLength? (b.toNat - 0x80) rest
    else none

/-- No content is as long as this. -/
def limit : Nat := 65535

/-- The content of the element at the beginning of the bytes and what is behind it, if the element
has this tag. -/
def element? (tag : Tag) : List UInt8 → Option (List UInt8 × List UInt8)
  | [] => none
  | b :: rest =>
    if b = tag.byte then do
      let (n, rest) ← length? rest
      if n < limit ∧ n ≤ rest.length then return (rest.take n, rest.drop n) else none
    else none

def whole? (tag : Tag) (bytes : List UInt8) : Option (List UInt8) := do
  let (content, rest) ← element? tag bytes
  if rest.isEmpty then return content else none

/-- The contents of elements of the same tag, one at least, that the bytes are. -/
def elements? (tag : Tag) : (steps : Nat) → List UInt8 → Option (List (List UInt8))
  | 0, _ => none
  | steps + 1, bytes => do
    let (content, rest) ← element? tag bytes
    if rest.isEmpty then return [content]
    else return content :: (← elements? tag steps rest)

end PlaneBridge.Trust.Der
