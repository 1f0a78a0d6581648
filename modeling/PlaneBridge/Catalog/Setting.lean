import PlaneBridge.Json.Value

/-!
# Settings of key managers

Key managers come with settings that have no common shape.  Most are JSON values, but there are
typed settings too, which can say more than JSON can: numbers that are not finite, and maps whose
keys are not texts.  `Setting.value` says which JSON value stands for a setting, if one does.
-/

namespace PlaneBridge.Catalog

namespace Setting

inductive Key where
  | text (s : String)
  | integer (n : Int64)
  | flag (b : Bool)
  /-- A pair, a list, or nothing at all. -/
  | composite
  /-- A key that refuses to be encoded, such as a number that is not finite. -/
  | failing (reason : String)
  deriving DecidableEq, Repr

inductive Error where
  | keyNotText
  | refused (reason : String)
  deriving DecidableEq, Repr

def Error.message : Error → String
  | .keyNotText => "key must be a string"
  | .refused reason => reason

def Key.name : Key → Except Error String
  | .text s => .ok s
  | .integer n => .ok (decimal n.toInt)
  | .flag b => .ok (if b then "true" else "false")
  | .composite => .error .keyNotText
  | .failing reason => .error (.refused reason)

end Setting

/-- A setting of whatever type, down to what is a JSON value already. -/
inductive Setting where
  | plain (v : Json.Value)
  | list (items : List Setting)
  /-- A map, or a record under the names of its fields. -/
  | map (entries : List (Setting.Key × Setting))
  | failing (reason : String)
  deriving Repr

namespace Setting

def keyed (entries : List (Key × Json.Value)) : Setting :=
  .map (entries.map fun (key, v) => (key, .plain v))

def nested (inner : Setting) : Setting := .map [(.text "inner", inner)]

mutual

/-- The JSON value that stands for a setting.  A map keeps the order of its keys. -/
def value : Setting → Except Error Json.Value
  | .plain v => .ok v
  | .list items => do return .arr (← values items)
  | .map entries => do return .obj (← members entries)
  | .failing reason => .error (.refused reason)

def values : List Setting → Except Error (List Json.Value)
  | [] => .ok []
  | s :: rest => do
    let v ← s.value
    return v :: (← values rest)

def members : List (Key × Setting) → Except Error (List (String × Json.Value))
  | [] => .ok []
  | (key, s) :: rest => do
    let name ← key.name
    let v ← s.value
    return (name, v) :: (← members rest)

end

end Setting
end PlaneBridge.Catalog
