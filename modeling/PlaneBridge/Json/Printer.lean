import PlaneBridge.Json.Text
import PlaneBridge.Entries

/-!
# Writing JSON texts

A value is written compactly, without a blank outside its strings, or laid out over lines: each
element and each member on a line of its own, two spaces deeper than the brackets around it, and
nothing between the brackets of an empty array or object.
-/

namespace PlaneBridge.Json

mutual

/-- The value without blanks. -/
def Value.compact : Value → List Char
  | .null => ['n', 'u', 'l', 'l']
  | .bool true => ['t', 'r', 'u', 'e']
  | .bool false => ['f', 'a', 'l', 's', 'e']
  | .num n => n.text
  | .str s => Text.quote s.toList
  | .arr items => '[' :: compactItems items
  | .obj members => '{' :: compactMembers members

def compactItems : List Value → List Char
  | [] => [']']
  | [v] => v.compact ++ [']']
  | v :: rest => v.compact ++ ',' :: compactItems rest

def compactMembers : List (String × Value) → List Char
  | [] => ['}']
  | [(name, v)] => Text.quote name.toList ++ ':' :: v.compact ++ ['}']
  | (name, v) :: rest => Text.quote name.toList ++ ':' :: v.compact ++ ',' :: compactMembers rest

end

/-- A new line, indented for a nesting of `depth`. -/
def newLine (depth : Nat) : List Char := '\n' :: List.replicate (2 * depth) ' '

mutual

/-- The value over lines, its first line already indented for `depth`. -/
def Value.pretty (depth : Nat) : Value → List Char
  | .arr [] => ['[', ']']
  | .arr (v :: rest) =>
    '[' :: newLine (depth + 1) ++ v.pretty (depth + 1) ++ prettyItems (depth + 1) rest ++
      newLine depth ++ [']']
  | .obj [] => ['{', '}']
  | .obj ((name, v) :: rest) =>
    '{' :: newLine (depth + 1) ++ Text.quote name.toList ++ ':' :: ' ' :: v.pretty (depth + 1) ++
      prettyMembers (depth + 1) rest ++ newLine depth ++ ['}']
  | .null => Value.null.compact
  | .bool b => (Value.bool b).compact
  | .num n => n.text
  | .str s => Text.quote s.toList

def prettyItems (depth : Nat) : List Value → List Char
  | [] => []
  | v :: rest => ',' :: newLine depth ++ v.pretty depth ++ prettyItems depth rest

def prettyMembers (depth : Nat) : List (String × Value) → List Char
  | [] => []
  | (name, v) :: rest =>
    ',' :: newLine depth ++ Text.quote name.toList ++ ':' :: ' ' :: v.pretty depth ++
      prettyMembers depth rest

end

/-- The text of a value on one line. -/
def Value.toText (v : Value) : String := String.ofList v.compact

/-- The text of a value over lines. -/
def Value.toPrettyText (v : Value) : String := String.ofList (v.pretty 0)

mutual

/-- The value with the members of every object in the order of their names. -/
def Value.sorted : Value → Value
  | .arr items => .arr (sortedItems items)
  | .obj members => .obj (Entries.sort (sortedMembers members))
  | v => v

def sortedItems : List Value → List Value
  | [] => []
  | v :: rest => v.sorted :: sortedItems rest

def sortedMembers : List (String × Value) → List (String × Value)
  | [] => []
  | (name, v) :: rest => (name, v.sorted) :: sortedMembers rest

end

end PlaneBridge.Json
