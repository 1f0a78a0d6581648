import PlaneBridge.Text.Printable

/-!
# Quoted texts

A text of unknown origin is shown in quotation marks, with everything escaped that could not be told
apart in a line of output.
-/

namespace PlaneBridge.Text

/-- A character between quotation marks. -/
def showChar (c : Char) : List Char :=
  if c = '\x00' then ['\\', '0']
  else if c = '\t' then ['\\', 't']
  else if c = '\r' then ['\\', 'r']
  else if c = '\n' then ['\\', 'n']
  else if c = '\\' then ['\\', '\\']
  else if c = '"' then ['\\', '"']
  else if isPrintable c then [c]
  else '\\' :: 'u' :: '\x7b' :: Nat.toDigits 16 c.toNat ++ ['\x7d']

/-- The text in quotation marks. -/
def quoted (s : List Char) : String := String.ofList ('"' :: s.flatMap showChar ++ ['"'])

end PlaneBridge.Text
