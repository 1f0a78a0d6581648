/-!
# Options

A command line is a list of words.  Options are words that begin with two dashes; each has a value,
which stands behind an equals sign or is the next word.  A next word that looks like an option is no
value; a single dash is one.
-/

namespace PlaneBridge.CommandLine

abbrev Options := List (String × String)

/-- A word that begins with a dash and is not only that. -/
def looksLikeOption (word : List Char) : Bool := word.head? = some '-' && 1 < word.length

/-- The name of an option without its dashes, and its value where it stands in the same word. -/
def splitOption (word : List Char) : String × Option String :=
  let name := word.takeWhile (· ≠ '=')
  (String.ofList name,
    if name.length < word.length then some (String.ofList (word.drop (name.length + 1))) else none)

/-- The options at the beginning of the words, and the words from the first that is no option.  Two
dashes alone end the options, and nothing may follow them. -/
def readOptions (names : List String) : List String → Option (Options × List String)
  | [] => some ([], [])
  | word :: rest =>
    match word.toList with
    | '-' :: '-' :: [] => if rest.isEmpty then some ([], []) else none
    | '-' :: '-' :: option =>
      let (name, value) := splitOption option
      if names.contains name then
        match value, rest with
        | some value, rest => do
          let (options, rest) ← readOptions names rest
          return ((name, value) :: options, rest)
        | none, value :: rest =>
          if looksLikeOption value.toList then none
          else do
            let (options, rest) ← readOptions names rest
            return ((name, value) :: options, rest)
        | none, [] => none
      else none
    | '-' :: _ :: _ => none
    | _ => some ([], word :: rest)

namespace Options

def values (options : Options) (name : String) : List String :=
  (options.filter (·.1 = name)).map (·.2)

/-- The value of an option that may be given once; nothing where it is given more often. -/
def atMostOne (options : Options) (name : String) : Option (Option String) :=
  match options.values name with
  | [] => some none
  | [value] => some (some value)
  | _ => none

def one (options : Options) (name : String) : Option String := do (← options.atMostOne name)

end Options
end PlaneBridge.CommandLine
