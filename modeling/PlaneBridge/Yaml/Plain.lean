/-!
# What plain scalars say

A scalar without quotes may say more than its text: true or false, an integer, or that there is
nothing.
-/

namespace PlaneBridge.Yaml.Plain

/-- True or false, in lower case, in upper case or capitalised. -/
def flag? (text : String) : Option Bool :=
  if ["true", "True", "TRUE"].contains text then some true
  else if ["false", "False", "FALSE"].contains text then some false
  else none

def saysNothing (text : String) : Bool := ["~", "null", "Null", "NULL"].contains text

/-- The value of a digit, letters in either case standing for ten and more. -/
def digit? (base : Nat) (c : Char) : Option Nat :=
  let value :=
    if c.isDigit then some (c.toNat - '0'.toNat)
    else if 'a' ≤ c ∧ c ≤ 'z' then some (c.toNat - 'a'.toNat + 10)
    else if 'A' ≤ c ∧ c ≤ 'Z' then some (c.toNat - 'A'.toNat + 10)
    else none
  value.filter (· < base)

def natural? (base : Nat) (digits : List Char) : Option Nat :=
  if digits.isEmpty then none
  else digits.foldlM (fun value c => do return value * base + (← digit? base c)) 0

/-- The value of digits behind the mark of their base.  In base ten the first of several digits is
not zero. -/
def magnitude? : List Char → Option Nat
  | '0' :: 'x' :: digits => natural? 16 digits
  | '0' :: 'o' :: digits => natural? 8 digits
  | '0' :: 'b' :: digits => natural? 2 digits
  | '0' :: _ :: _ => none
  | digits => natural? 10 digits

/-- An integer with at most one sign. -/
def integer? (text : String) : Option Int :=
  match text.toList with
  | '+' :: digits => (magnitude? digits).map (↑·)
  | '-' :: digits => (magnitude? digits).map (-↑·)
  | digits => (magnitude? digits).map (↑·)

end PlaneBridge.Yaml.Plain
