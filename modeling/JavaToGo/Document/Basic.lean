import JavaToGo.Text.Quoted

/-!
# Documents
-/

namespace JavaToGo

/-- The values that a configuration can hold; fractions and dates are kept as they are written. -/
inductive Document where
  | null
  | bool (value : Bool)
  | integer (value : Int)
  | fraction (digits : String)
  /-- A date, or a date with a time. -/
  | moment (written : String)
  | bytes (content : List UInt8)
  | text (value : String)
  | list (items : List Document)
  /-- Keys with their values, in order; a key may be any value. -/
  | mapping (entries : List (Document × Document))
deriving Repr, BEq, Inhabited

namespace Document

/-- Sets a key: in its place when it is there, else behind the others. -/
def addEntry (key value : Document) : List (Document × Document) → List (Document × Document)
  | [] => [(key, value)]
  | e :: es => if e.1 == key then (e.1, value) :: es else e :: addEntry key value es

def fieldOf? (name : String) : List (Document × Document) → Option Document
  | [] => none
  | (.text key, value) :: es => if key = name then some value else fieldOf? name es
  | _ :: es => fieldOf? name es

def asText? : Document → Option String
  | .text value => some value
  | _ => none

mutual
/-- How a value is shown in a message. -/
def shown : Document → String
  | .null => "null"
  | .bool value => if value then "true" else "false"
  | .integer value => toString value
  | .fraction digits => digits
  | .moment written => written
  | .bytes content => "b" ++ Text.quoted (String.ofList (content.map fun b => Char.ofNat b.toNat))
  | .text value => Text.quoted value
  | .list items => "[" ++ ", ".intercalate (shownItems items) ++ "]"
  | .mapping entries => "\x7b" ++ ", ".intercalate (shownEntries entries) ++ "\x7d"

def shownItems : List Document → List String
  | [] => []
  | item :: items => item.shown :: shownItems items

def shownEntries : List (Document × Document) → List String
  | [] => []
  | (key, value) :: entries => (key.shown ++ ": " ++ value.shown) :: shownEntries entries
end

end Document

end JavaToGo
