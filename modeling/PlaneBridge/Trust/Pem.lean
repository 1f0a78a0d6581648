import PlaneBridge.Number.Decimal
import PlaneBridge.Text.Base64
import PlaneBridge.Text.Quoted
import PlaneBridge.Text.Utf8

/-!
# PEM

A text of sections, each of them bytes in Base64 between a line that begins the section and one that
ends it.  Lines outside sections are commentary.

A section whose label is not known is skipped without being decoded.  A line that begins a section
inside another one changes the label, and what has been collected stays.
-/

namespace PlaneBridge.Trust.Pem

/-! ## Lines -/

def isLineEnd (b : UInt8) : Bool := b = 10 || b = 13

/-- The lines of a text, each with its end, behind the beginning of a line.  A line feed and a
carriage return end one each. -/
def linesFrom (line : List UInt8) : List UInt8 → List (List UInt8)
  | [] => if line.isEmpty then [] else [line]
  | b :: rest =>
    if isLineEnd b then (line ++ [b]) :: linesFrom [] rest else linesFrom (line ++ [b]) rest

def lines (text : List UInt8) : List (List UInt8) := linesFrom [] text

/-! ## Marks -/

def bytes (s : String) : List UInt8 := s.toUTF8.toList

def isDash (b : UInt8) : Bool := b = 45

/-- The dashes at the end of a line, counted from behind, and what is left before the first of them.
Spaces and line ends between and after them do not count. -/
def trailingDashes (count : Nat) (before : List UInt8) : List UInt8 → Nat × List UInt8
  | [] => (count, before)
  | b :: rest =>
    if isDash b then trailingDashes (count + 1) rest rest
    else if isLineEnd b ∨ b = 32 then trailingDashes count before rest
    else (count, before)

/-- The label in a line that begins a section, if the line ends as it should. -/
def label? (line : List UInt8) : Option (List UInt8) :=
  let (count, before) := trailingDashes 0 [] line.reverse
  if count = 5 then some (before.reverse.drop 11) else none

def ends (label line : List UInt8) : Bool :=
  (bytes "-----END " ++ label ++ bytes "-----").isPrefixOf line

def certificate : List UInt8 := bytes "CERTIFICATE"

/-- The labels of the sections that are decoded. -/
def knownLabels : List (List UInt8) :=
  certificate ::
    ["PUBLIC KEY", "PRIVATE KEY", "RSA PRIVATE KEY", "EC PRIVATE KEY", "X509 CRL",
      "CERTIFICATE REQUEST"].map bytes

/-! ## Sections -/

inductive Error where
  /-- A line begins a section and does not end in five dashes. -/
  | illegalStart (line : List UInt8)
  /-- The text ends inside a section. -/
  | missingEnd (label : List UInt8)
  | base64 (error : Text.Base64.Error)
  deriving DecidableEq, Repr

def Error.message : Error → String
  | .illegalStart line => "illegal section start: " ++ Text.quoted (Text.Utf8.characters line)
  | .missingEnd label => "section end " ++ Text.quoted (Text.Utf8.characters label) ++ " missing"
  | .base64 (.invalidCharacter b) => "InvalidCharacter(" ++ decimal b.toNat ++ ")"
  | .base64 .prematurePadding => "PrematurePadding"
  | .base64 .invalidTrailingPadding => "InvalidTrailingPadding"

structure Section where
  label : List UInt8
  content : List UInt8
  deriving DecidableEq, Repr

/-- The sections of known labels, behind lines that have opened a section and collected text. -/
def sectionsFrom (opened : Option (List UInt8)) (text : List UInt8) :
    List (List UInt8) → Except Error (List Section)
  | [] =>
    match opened with
    | some label => .error (.missingEnd label)
    | none => .ok []
  | line :: rest =>
    if (bytes "-----BEGIN ").isPrefixOf line then
      match label? line with
      | some label => sectionsFrom (some label) text rest
      | none => .error (.illegalStart line)
    else
      match opened with
      | none => sectionsFrom none text rest
      | some label =>
        if !ends label line then sectionsFrom (some label) (text ++ line) rest
        else if knownLabels.contains label then do
          let content ← (Text.Base64.decode text).mapError .base64
          return ⟨label, content⟩ :: (← sectionsFrom none [] rest)
        else sectionsFrom none [] rest

/-- The sections of known labels. -/
def sections (text : List UInt8) : Except Error (List Section) := sectionsFrom none [] (lines text)

end PlaneBridge.Trust.Pem
