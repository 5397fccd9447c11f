import JavaToGo.Document.Basic
import JavaToGo.Text.Lines
import JavaToGo.Text.Utf8

/-!
# Written documents

Every item of a list and every entry of a mapping has a line of its own, two blanks
further in.
-/

namespace JavaToGo.Document

/-- The quote, the backslash and the control characters are escaped. -/
def writtenChar (c : Char) : List Char :=
  if c == '"' || c == '\\' then ['\\', c]
  else if c == '\x08' then ['\\', 'b']
  else if c == '\x0c' then ['\\', 'f']
  else if c == '\n' then ['\\', 'n']
  else if c == '\r' then ['\\', 'r']
  else if c == '\t' then ['\\', 't']
  else if c.toNat < 0x20 then '\\' :: 'u' :: Text.Quoted.hex 4 c.toNat
  else [c]

def writtenText (s : String) : String :=
  "\"" ++ String.ofList (s.toList.flatMap writtenChar) ++ "\""

def margin (depth : Nat) : String :=
  String.ofList (List.replicate (2 * depth) ' ')

def bracketed (opening closing : String) (depth : Nat) (items : List String) : String :=
  if items.isEmpty then opening ++ closing
  else
    opening ++ "\n" ++ ",\n".intercalate (items.map fun item => margin (depth + 1) ++ item)
      ++ "\n" ++ margin depth ++ closing

mutual
/-- The text of a document that is indented by `depth` steps. -/
def written (depth : Nat) : Document → String
  | .null => "null"
  | .bool value => if value then "true" else "false"
  | .integer value => toString value
  | .fraction digits => digits
  | .moment written => writtenText written
  | .bytes content => writtenText (Text.Utf8.decode ⟨content.toArray⟩)
  | .text value => writtenText value
  | .list items => bracketed "[" "]" depth (writtenItems (depth + 1) items)
  | .mapping entries => bracketed "\x7b" "\x7d" depth (writtenEntries (depth + 1) entries)

def writtenItems (depth : Nat) : List Document → List String
  | [] => []
  | item :: items => written depth item :: writtenItems depth items

def writtenEntries (depth : Nat) : List (Document × Document) → List String
  | [] => []
  | (key, value) :: entries =>
    (written depth key ++ ": " ++ written depth value) :: writtenEntries depth entries
end

end JavaToGo.Document
