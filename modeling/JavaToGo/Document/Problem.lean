import JavaToGo.Text.Quoted

/-!
# Problems with a document
-/

namespace JavaToGo.Document

/-- A position in a text, counted from zero. -/
structure Mark where
  line : Nat := 0
  column : Nat := 0
deriving DecidableEq, Repr, Inhabited

/-- What breaks the rules of the format, or asks for a value that does not exist. -/
inductive Complaint where
  | badCharacter (found : Char)
  | noToken (found : Option Char)
  | missingColon
  | misplacedItem
  | misplacedKey
  | misplacedValue
  | expected (what : String) (found : Option Char)
  | unknownEscape (found : Option Char)
  | unexpectedEnd
  | unexpectedSeparator
  | badTagText
  | unexpectedToken (found : String)
  | secondVersion
  | otherVersion
  | secondHandle (handle : String)
  | unknownHandle (handle : String)
  | secondDocument
  | unknownAnchor (name : String)
  | secondAnchor (name : String)
  | unknownTag (tag : String)
  | badKey
  | badMerge
  | badShape
  | badBytes
deriving DecidableEq, Repr

/-- A character between quotes; the end counts as the character with the code zero. -/
def charText (c : Option Char) : String :=
  Text.quoted (String.singleton (c.getD '\x00'))

def Complaint.words : Complaint → String
  | .badCharacter found => "unacceptable character " ++ charText (some found)
  | .noToken found => "found character " ++ charText found ++ " that cannot start any token"
  | .missingColon => "could not find expected ':'"
  | .misplacedItem => "sequence entries are not allowed here"
  | .misplacedKey => "mapping keys are not allowed here"
  | .misplacedValue => "mapping values are not allowed here"
  | .expected what found => "expected " ++ what ++ ", but found " ++ charText found
  | .unknownEscape found => "found unknown escape character " ++ charText found
  | .unexpectedEnd => "found unexpected end of stream"
  | .unexpectedSeparator => "found unexpected document separator"
  | .badTagText => "the escapes of a tag are no text"
  | .unexpectedToken found => "did not expect " ++ Text.quoted found
  | .secondVersion => "found duplicate version directive"
  | .otherVersion => "found incompatible document version"
  | .secondHandle handle => "duplicate tag handle " ++ Text.quoted handle
  | .unknownHandle handle => "found undefined tag handle " ++ Text.quoted handle
  | .secondDocument => "expected a single document"
  | .unknownAnchor name => "found undefined alias " ++ Text.quoted name
  | .secondAnchor name => "found duplicate anchor " ++ Text.quoted name
  | .unknownTag tag => "could not determine a constructor for the tag " ++ Text.quoted tag
  | .badKey => "found unhashable key"
  | .badMerge => "expected a mapping or list of mappings for merging"
  | .badShape => "the tag does not fit the value"
  | .badBytes => "failed to decode bytes"

/-- A complaint and its place. -/
structure Problem where
  complaint : Complaint
  mark : Mark
deriving DecidableEq, Repr

def Problem.message (p : Problem) (path : String) : String :=
  p.complaint.words ++ "\n  in \"" ++ path ++ "\", line " ++ toString (p.mark.line + 1)
    ++ ", column " ++ toString (p.mark.column + 1)

/-- Why a text is no document. -/
inductive ReadFault where
  | malformed (problem : Problem)
  /-- A number, a date or an escaped character does not exist. -/
  | noSuchValue
  | emptyNumber
  | noTruth (word : String)
  | noMoment
deriving DecidableEq, Repr

end JavaToGo.Document
