import JavaToGo.Console.Color
import JavaToGo.Text.Basic

/-!
# Styles

Descriptions of the same style have the same normal form.
-/

namespace JavaToGo.Console

inductive Attribute where
  | bold | dim | italic | underline | blink | blink2 | reverse | conceal | strike | underline2
  | frame | encircle | overline
deriving DecidableEq, Repr

namespace Attribute

def all : List Attribute :=
  [.bold, .dim, .italic, .underline, .blink, .blink2, .reverse, .conceal, .strike, .underline2,
    .frame, .encircle, .overline]

def word : Attribute → String
  | .bold => "bold"
  | .dim => "dim"
  | .italic => "italic"
  | .underline => "underline"
  | .blink => "blink"
  | .blink2 => "blink2"
  | .reverse => "reverse"
  | .conceal => "conceal"
  | .strike => "strike"
  | .underline2 => "underline2"
  | .frame => "frame"
  | .encircle => "encircle"
  | .overline => "overline"

def shortWord? : Attribute → Option String
  | .bold => some "b"
  | .dim => some "d"
  | .italic => some "i"
  | .underline => some "u"
  | .reverse => some "r"
  | .conceal => some "c"
  | .strike => some "s"
  | .underline2 => some "uu"
  | .overline => some "o"
  | _ => none

def ofWord? (word : String) : Option Attribute :=
  all.find? fun a => a.word == word || a.shortWord? == some word

end Attribute

/-- A style is described by attributes, colours and a link. -/
structure Style where
  attributes : List (Attribute × Bool) := []
  color : Option String := none
  background : Option String := none
  link : Option String := none
deriving Repr, Inhabited

namespace Style

def ofWords (s : Style) : List String → Except ColorFault Style
  | [] => .ok s
  | word :: words =>
    match Text.lowerAll word, words with
    | "on", color :: more => do
      ofWords { s with background := some (← colorOf color) } more
    | "not", off :: more =>
      match Attribute.ofWord? off with
      | some a => ofWords { s with attributes := (a, false) :: s.attributes } more
      | none => .error .unknown
    | "link", target :: more => ofWords { s with link := some target } more
    | "on", [] => .error .unknown
    | "not", [] => .error .unknown
    | "link", [] => .error .unknown
    | lower, more =>
      match Attribute.ofWord? lower with
      | some a => ofWords { s with attributes := (a, true) :: s.attributes } more
      | none => do ofWords { s with color := some (← colorOf word) } more

def attributeText? (s : Style) (a : Attribute) : Option String :=
  (s.attributes.lookup a).map fun on => if on then a.word else "not " ++ a.word

/-- The attributes in a fixed order, each on or off, then the colours and the link. -/
def normalForm (s : Style) : String :=
  let parts := Attribute.all.filterMap s.attributeText? ++ s.color.toList
    ++ (s.background.map fun color => "on " ++ color).toList
    ++ (s.link.map fun target => "link " ++ target).toList
  if parts.isEmpty then "none" else " ".intercalate parts

end Style

/-- The words between blanks; `word` is what was read of the current one. -/
def wordsFrom (word : List Char) : List Char → List String
  | [] => if word.isEmpty then [] else [String.ofList word.reverse]
  | c :: cs =>
    if Text.isBlank c then
      if word.isEmpty then wordsFrom [] cs else String.ofList word.reverse :: wordsFrom [] cs
    else wordsFrom (c :: word) cs

/-- A description that is no style is its own normal form, in lower case. -/
def normalStyle (description : String) : Except ColorFault String :=
  if Text.trimmed description == "none" then .ok "none"
  else
    match Style.ofWords {} (wordsFrom [] description.toList) with
    | .ok style => .ok style.normalForm
    | .error .unknown => .ok (Text.lowerAll (Text.trimmed description))
    | .error fault => .error fault

end JavaToGo.Console
