import JavaToGo.Document.Cursor

/-!
# Indented texts

Texts in indented lines behind a bar, which keeps the line breaks, or an angle,
which folds them.  The first line decides over the indentation, or a digit behind
the bar; a line further out ends the text.
-/

namespace JavaToGo.Document

/-- What happens to the line breaks at the end of a text. -/
inductive Chomping where
  | clip | strip | keep
deriving DecidableEq, Repr

/-- What was read of an indented text: its characters, its last line break and the breaks behind
that. -/
structure LiteralText where
  content : List Char := []
  lastBreak : List Char := []
  behind : List Char := []
deriving Repr, Inhabited

/-- Of the breaks at the end one is kept; with a minus sign none, with a plus sign all. -/
def LiteralText.chomped (t : LiteralText) : Chomping → List Char
  | .strip => t.content
  | .clip => t.content ++ t.lastBreak
  | .keep => t.content ++ t.lastBreak ++ t.behind

namespace Reading

def chomping? : Reading (Option Chomping) := do
  match ← next? with
  | some '+' => skip 1; return some .keep
  | some '-' => skip 1; return some .strip
  | _ => return none

def indentation? : Reading (Option Nat) := do
  match ← next? with
  | some c =>
    if !c.isDigit then return none
    if c == '0' then expected "indentation indicator in the range 1-9"
    skip 1
    return some (c.toNat - '0'.toNat)
  | none => return none

def literalSigns : Reading (Chomping × Option Nat) := do
  let first ← chomping?
  let increment ← indentation?
  let second ← if first.isNone && increment.isSome then chomping? else pure none
  if !endsPart (← next?) then expected "chomping or indentation indicators"
  return ((first.or second).getD .clip, increment)

def skipIndent (indent : Nat) : Reading Unit := do
  let c ← get
  skip (min (indent - c.mark.column) (c.rest.takeWhile (· == ' ')).length)

def literalBreaks (indent : Nat) : Nat → Reading (List Char)
  | 0 => return []
  | n + 1 => do
    skipIndent indent
    let found ← lineBreak
    if found.isEmpty then return [] else return found ++ (← literalBreaks indent n)

def leadingBreaks (deepest : Nat) : Nat → Reading (List Char × Nat)
  | 0 => return ([], deepest)
  | n + 1 => do
    let _ ← span (· == ' ')
    let deepest := max deepest (← mark).column
    let found ← lineBreak
    if found.isEmpty then return ([], deepest)
    let (more, deepest) ← leadingBreaks deepest n
    return (found ++ more, deepest)

def atLiteralLine (indent : Nat) : Reading Bool := do
  let c ← get
  return c.mark.column = indent && !c.rest.isEmpty

/-- The lines of the text, up to one further out. -/
def literalLines (folds : Bool) (indent : Nat) (breaks : List Char) : Nat → Reading LiteralText
  | 0 => return { behind := breaks }
  | n + 1 => do
    let isFlush := !(← next?).any isGap
    let line ← span fun c => !isBreak c
    let lastBreak ← lineBreak
    let behind ← literalBreaks indent (← bound)
    if ← atLiteralLine indent then
      let folded := folds && lastBreak == ['\n'] && isFlush && !(← next?).any isGap
      let joint := if !folded then lastBreak else if behind.isEmpty then [' '] else []
      let more ← literalLines folds indent behind n
      return { more with content := breaks ++ line ++ joint ++ more.content }
    else return { content := breaks ++ line, lastBreak := lastBreak, behind := behind }

/-- An indented text; `outer` is the least indentation that it may have. -/
def literal (folds : Bool) (outer : Nat) : Reading String := do
  skip 1
  let (chomping, increment) ← literalSigns
  restOfLine
  let least := max outer 1
  let (breaks, indent) ←
    match increment with
    | none => do
      let (breaks, deepest) ← leadingBreaks 0 (← bound)
      pure (breaks, max least deepest)
    | some n => do
      let indent := least + n - 1
      pure (← literalBreaks indent (← bound), indent)
  let text ←
    if ← atLiteralLine indent then literalLines folds indent breaks (← bound)
    else pure { behind := breaks }
  return String.ofList (text.chomped chomping)

end Reading

end JavaToGo.Document
