import JavaToGo.Console.Style

/-!
# Markup

Messages for the console are written with tags: a style in brackets begins a
stretch, and a slash ends it.
-/

namespace JavaToGo.Console

/-- A tag: a name, and parameters behind an equals sign. -/
structure Tag where
  name : String
  parameters : Option String := none
deriving DecidableEq, Repr, Inhabited

inductive MarkupFault where
  | badTag
  | badColor
deriving DecidableEq, Repr

/-- A character or a tag. -/
inductive Piece where
  | char (c : Char)
  | tag (tag : Tag)
deriving DecidableEq, Repr

section Pieces

/-- What may stand behind the opening bracket. -/
def isTagStart (c : Char) : Bool :=
  ('a' ≤ c && c ≤ 'z') || c == '#' || c == '/' || c == '@'

def upToBracket? : List Char → Option (List Char)
  | [] => none
  | ']' :: _ => some []
  | '[' :: _ => none
  | c :: cs => (upToBracket? cs).map (c :: ·)

def contentAt? : List Char → Option (List Char)
  | [] => none
  | c :: cs => if isTagStart c then upToBracket? (c :: cs) else none

def Tag.ofContent (content : List Char) : Tag where
  name := String.ofList (content.takeWhile (· != '='))
  parameters :=
    match content.dropWhile (· != '=') with
    | [] => none
    | _ :: value => some (String.ofList value)

/-- The pieces of a message behind the first `skip` characters.  `escaped` says whether a
backslash makes the next bracket a text. -/
def piecesFrom (escaped : Bool) : Nat → List Char → List Piece
  | _, [] => []
  | skip + 1, _ :: cs => piecesFrom false skip cs
  | 0, c :: cs =>
    if c == '\\' then .char c :: piecesFrom (!escaped) 0 cs
    else
      match if c == '[' && !escaped then contentAt? cs else none with
      | some content => .tag (Tag.ofContent content) :: piecesFrom false (content.length + 1) cs
      | none => .char c :: piecesFrom false 0 cs

/-- An odd number of backslashes makes a tag ordinary text. -/
def pieces (message : String) : List Piece :=
  piecesFrom false 0 message.toList

end Pieces

section Nesting

def isHandler (parameters : String) : Bool :=
  let rest := (Text.trim parameters.toList).dropWhile fun c => c.isAlphanum || c == '_' || c == '.'
  rest == [] || rest == ['(', ')']

/-- Whether a tag can be closed: one for an event has to name its handler. -/
def Tag.closable (tag : Tag) : Bool :=
  tag.name.toList.head? != some '@'
    || tag.parameters.all fun parameters => parameters.isEmpty || isHandler parameters

/-- Closes the last open tag that fits; what is left open. -/
def closeTag (fits : Tag → Bool) (opened : List Tag) : Except MarkupFault (List Tag) :=
  match opened.find? fits with
  | some tag => if tag.closable then .ok (opened.eraseP fits) else .error .badTag
  | none => .error .badTag

def normalName (name : String) : Except MarkupFault String :=
  (normalStyle name).mapError fun _ => .badColor

/-- What is open behind a tag; the last opened tag comes first. -/
def afterTag (opened : List Tag) (tag : Tag) : Except MarkupFault (List Tag) :=
  match tag.name.toList with
  | '/' :: cs =>
    match Text.trim cs with
    | [] => closeTag (fun _ => true) opened
    | name => do
      let normal ← normalName (String.ofList name)
      closeTag (fun open_ => open_.name == normal) opened
  | _ => do return { tag with name := ← normalName tag.name } :: opened

/-- A closing tag names an open one by the same style, or closes the last one. -/
def afterPiece (state : List Tag × List Char) : Piece → Except MarkupFault (List Tag × List Char)
  | .char c => .ok (state.1, c :: state.2)
  | .tag tag => do return (← afterTag state.1 tag, state.2)

/-- A message whose closing tag has no open tag cannot be shown. -/
def render (message : String) : Except MarkupFault String := do
  let state ← (pieces message).foldlM afterPiece ([], [])
  return String.ofList state.2.reverse

end Nesting

end JavaToGo.Console
