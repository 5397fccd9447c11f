import JavaToGo.Document.Problem

/-!
# Cursors

A position in the text of a document, and the steps that move it.
-/

namespace JavaToGo.Document

section Classes

/-- The characters that end a line. -/
def isBreak (c : Char) : Bool :=
  c == '\n' || c == '\x85' || c == '\u2028' || c == '\u2029'

def isGap (c : Char) : Bool :=
  c == ' ' || c == '\t'

def endsLine (c : Option Char) : Bool :=
  c.all isBreak

def endsPart (c : Option Char) : Bool :=
  c.all fun c => isBreak c || c == ' '

def endsWord (c : Option Char) : Bool :=
  c.all fun c => isBreak c || isGap c

def isNameChar (c : Char) : Bool :=
  c.isAlphanum || c == '-' || c == '_'

end Classes

/-- A position in a text, with what follows. -/
structure Cursor where
  rest : List Char
  index : Nat := 0
  mark : Mark := {}
deriving Repr, Inhabited

namespace Cursor

def markAfter (mark : Mark) (c : Char) : Mark :=
  if isBreak c then { line := mark.line + 1 }
  else if c == '\ufeff' then mark
  else { mark with column := mark.column + 1 }

def step (c : Cursor) : Cursor :=
  match c.rest with
  | [] => c
  | char :: rest => { rest := rest, index := c.index + 1, mark := markAfter c.mark char }

def skip (c : Cursor) : Nat → Cursor
  | 0 => c
  | n + 1 => c.step.skip n

/-- Whether a mark that begins or ends a document stands here. -/
def atSeparator (c : Cursor) : Bool :=
  match c.rest with
  | a :: b :: d :: rest => a == b && b == d && (a == '-' || a == '.') && endsWord rest.head?
  | _ => false

end Cursor

/-- Reads on from a cursor, or complains. -/
abbrev Reading := StateT Cursor (Except ReadFault)

namespace Reading

def mark : Reading Mark :=
  return (← get).mark

def next? : Reading (Option Char) :=
  return (← get).rest.head?

def second? : Reading (Option Char) :=
  return ((← get).rest.drop 1).head?

def skip (n : Nat) : Reading Unit :=
  modify (·.skip n)

/-- Reads on while the characters fit. -/
def span (p : Char → Bool) : Reading (List Char) := do
  let found := (← get).rest.takeWhile p
  skip found.length
  return found

def complain {α : Type} (complaint : Complaint) : Reading α := do
  throw (.malformed ⟨complaint, ← mark⟩)

/-- Complains about what stands here instead. -/
def expected {α : Type} (what : String) : Reading α := do
  complain (.expected what (← next?))

/-- Steps over a line break; what it counts as in a text. -/
def lineBreak : Reading (List Char) := do
  match ← next? with
  | some c =>
    if isBreak c then
      skip 1
      return [if c == '\x85' then '\n' else c]
    else return []
  | none => return []

def restOfLine : Reading Unit := do
  let _ ← span (· == ' ')
  if (← next?) = some '#' then
    let _ ← span fun c => !isBreak c
  if !endsLine (← next?) then expected "a comment or a line break"
  let _ ← lineBreak

/-- How many steps a loop over what follows can take. -/
def bound : Reading Nat :=
  return (← get).rest.length + 1

end Reading

end JavaToGo.Document
