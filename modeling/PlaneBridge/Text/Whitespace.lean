/-!
# Whitespace

The characters with the Unicode property White_Space.
-/

namespace PlaneBridge.Text

/-- The ranges of the property, each by its first and last character. -/
def whitespaceRanges : List (Char × Char) :=
  [('\t', '\r'), (' ', ' '), ('\x85', '\x85'), ('\u00a0', '\u00a0'), ('\u1680', '\u1680'),
    ('\u2000', '\u200a'), ('\u2028', '\u2029'), ('\u202f', '\u202f'), ('\u205f', '\u205f'),
    ('\u3000', '\u3000')]

def isWhitespace (c : Char) : Bool :=
  whitespaceRanges.any fun (first, last) => first ≤ c && c ≤ last

/-- Whether a text holds nothing but whitespace. -/
def isBlank (s : String) : Bool := s.toList.all isWhitespace

end PlaneBridge.Text
