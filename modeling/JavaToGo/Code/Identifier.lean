import JavaToGo.Text.LetterCase

/-!
# Go identifiers

Go decides by the first letter of a name whether it is exported.
-/

namespace JavaToGo.Code

def exportedChars : List Char → List Char
  | [] => []
  | c :: cs => Text.upper c ++ cs

def unexportedChars : List Char → List Char
  | [] => []
  | c :: cs => Text.lower c ++ cs

/-- The name with a capital letter in front. -/
def exported (name : String) : String :=
  String.ofList (exportedChars name.toList)

/-- The name with a small letter in front. -/
def unexported (name : String) : String :=
  String.ofList (unexportedChars name.toList)

/-- The name, exported when it is public. -/
def withVisibility (name : String) (isPublic : Bool) : String :=
  if isPublic then exported name else unexported name

def reservedWords : List String :=
  ["break", "case", "chan", "const", "continue", "default", "defer", "else", "fallthrough",
    "for", "func", "go", "goto", "if", "import", "interface", "map", "package", "range",
    "return", "select", "struct", "switch", "type", "var"]

/-- A name that may stand in Go text: a reserved word gets an underscore behind it. -/
def avoidReserved (name : String) : String :=
  if name ∈ reservedWords then name ++ "_" else name

end JavaToGo.Code
