import JavaToGo.Document.Cursor
import JavaToGo.Text.Basic
import JavaToGo.Text.Utf8

/-!
# Tags, anchors and directives
-/

namespace JavaToGo.Document

/-- How the value behind is to be read. -/
inductive Tag where
  | null | bool | integer | fraction | moment | bytes | text | list | mapping | set
  | orderedPairs | pairs
  | merge
  | value
  | other (name : String)
deriving DecidableEq, Repr, Inhabited

/-- What the names of the known tags begin with. -/
def tagStem : String := "tag:yaml.org,2002:"

def knownTags : List (String × Tag) :=
  [("null", .null), ("bool", .bool), ("int", .integer), ("float", .fraction),
    ("timestamp", .moment), ("binary", .bytes), ("str", .text), ("seq", .list), ("map", .mapping),
    ("set", .set), ("omap", .orderedPairs), ("pairs", .pairs), ("merge", .merge),
    ("value", .value)]

def Tag.ofName (name : String) : Tag :=
  match knownTags.find? fun t => tagStem ++ t.1 == name with
  | some t => t.2
  | none => .other name

def Tag.name : Tag → String
  | .other name => name
  | tag => tagStem ++ ((knownTags.find? fun t => t.2 = tag).map Prod.fst).getD ""

/-- Sets the version of a document or a handle of its tags. -/
inductive Directive where
  | version (major : Nat)
  | handle (handle stem : String)
  | other
deriving DecidableEq, Repr

def isTagChar (c : Char) : Bool :=
  c.isAlphanum || "-;/?:@&=+$,_.!~*'()[]%".toList.contains c

def textOfBytes? (bytes : List UInt8) : Option (List Char) :=
  (String.fromUTF8? ⟨bytes.toArray⟩).map String.toList

/-- A text with the bytes that its escapes stand for; `pending` are those read just before. -/
def unescaped? (pending : List UInt8) : List Char → Option (List Char)
  | [] => textOfBytes? pending
  | '%' :: a :: b :: cs => do
    unescaped? (pending ++ [UInt8.ofNat (← Text.hexNumber? [a, b])]) cs
  | c :: cs => do
    if c == '%' then none
    return (← textOfBytes? pending) ++ c :: (← unescaped? [] cs)

namespace Reading

/-- The name of an anchor; the sign in front of it is read too. -/
def anchorName : Reading String := do
  skip 1
  let name ← span isNameChar
  let stop ← next?
  if name.isEmpty || !(endsWord stop || stop.any fun c => "?:,]\x7d%@\x60".toList.contains c) then
    expected "alphabetic or numeric character"
  return String.ofList name

def tagText : Reading String := do
  let raw ← span isTagChar
  if raw.isEmpty then expected "URI"
  match unescaped? [] raw with
  | some cs => return String.ofList cs
  | none => complain .badTagText

def tagHandle : Reading String := do
  if (← next?) ≠ some '!' then expected "'!'"
  skip 1
  if (← next?) = some ' ' then return "!"
  let name ← span isNameChar
  if (← next?) ≠ some '!' then expected "'!'"
  skip 1
  return "!" ++ String.ofList name ++ "!"

/-- The handle and the text of a tag; a tag that is written out has no handle. -/
def tag : Reading (Option String × String) := do
  let second ← second?
  let found ←
    if second = some '<' then do
      skip 2
      let text ← tagText
      if (← next?) ≠ some '>' then expected "'>'"
      skip 1
      pure (none, text)
    else if endsWord second then do
      skip 1
      pure (none, "!")
    else do
      let word := ((← get).rest.drop 1).takeWhile fun c => !endsPart (some c)
      let handle ← if word.contains '!' then tagHandle else do skip 1; pure "!"
      pure (some handle, ← tagText)
  if !endsPart (← next?) then expected "' '"
  return found

def versionNumber : Reading Nat := do
  let digits ← span Char.isDigit
  match (String.ofList digits).toNat? with
  | some n => return n
  | none => expected "a digit"

def directive : Reading Directive := do
  skip 1
  let name ← span isNameChar
  if name.isEmpty || !endsPart (← next?) then expected "alphabetic or numeric character"
  let found ←
    match String.ofList name with
    | "YAML" => do
      let _ ← span (· == ' ')
      let major ← versionNumber
      if (← next?) ≠ some '.' then expected "a digit or '.'"
      skip 1
      let _ ← versionNumber
      if !endsPart (← next?) then expected "a digit or ' '"
      pure (.version major)
    | "TAG" => do
      let _ ← span (· == ' ')
      let handle ← tagHandle
      if (← next?) ≠ some ' ' then expected "' '"
      let _ ← span (· == ' ')
      let stem ← tagText
      if !endsPart (← next?) then expected "' '"
      pure (.handle handle stem)
    | _ => do
      let _ ← span fun c => !isBreak c
      pure .other
  restOfLine
  return found

end Reading

end JavaToGo.Document
