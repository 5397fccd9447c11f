import JavaToGo.Table

/-!
# Settings
-/

namespace JavaToGo

/-- What a user can set about a conversion. -/
structure Settings where
  packageName : String := "converted"
  /-- The text in front of the generated file. -/
  licenseHeader : String := ""
  /-- Java type names with the Go types that they are mapped to before any other rule. -/
  typeMappings : Table String String := ⟨[]⟩
  /-- What is taken away from the front of type names. -/
  strippedPrefixes : List String := ["Abstract", "LexerTerminals"]
  /-- Beginnings of type names with the Go packages that such types live in. -/
  packagePrefixes : Table String String := ⟨[("ST", "internal")]⟩
deriving Repr, Inhabited

inductive Mode where
  /-- The first failure ends the conversion. -/
  | strict
  /-- A failure becomes a diagnostic and a comment in the output. -/
  | tolerant
deriving DecidableEq, Repr, Inhabited

def Mode.word : Mode → String
  | .strict => "strict"
  | .tolerant => "tolerant"

end JavaToGo
