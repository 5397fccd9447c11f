import JavaToGo.Document.Quoted

/-!
# Texts without quotes

A text goes on until a comment, a colon before a blank, a line that is not indented
enough, or a mark between documents.  Inside brackets the brackets, the comma and
the question mark end it too.
-/

namespace JavaToGo.Document

def isFlowMark (c : Char) : Bool :=
  c == ',' || c == '[' || c == ']' || c == '{' || c == '}'

def plainRun (inFlow : Bool) : List Char → List Char
  | [] => []
  | c :: cs =>
    if isBreak c || isGap c || (inFlow && (isFlowMark c || c == '?'))
        || (c == ':' && (endsWord cs.head? || (inFlow && cs.head?.any isFlowMark))) then []
    else c :: plainRun inFlow cs

/-- What stands between two words. -/
inductive PlainGap where
  /-- Nothing that the text could go on behind. -/
  | stop
  | blanks (count : Nat)
  | broken (breaks : List Char)
deriving DecidableEq, Repr

namespace Reading

/-- The breaks of empty lines and the blanks in front of the next one; nothing at a mark between
documents. -/
def plainBreaks : Nat → Reading (Option (List Char))
  | 0 => return some []
  | n + 1 => do
    if (← get).atSeparator then return none
    let _ ← span (· == ' ')
    let found ← lineBreak
    if found.isEmpty then return some []
    return (← plainBreaks n).map (found ++ ·)

/-- What stands behind a word, and whether a line ended there. -/
def plainGap : Reading (PlainGap × Bool) := do
  let blanks ← span (· == ' ')
  let first ← lineBreak
  if first.isEmpty then
    return (if blanks.isEmpty then .stop else .blanks blanks.length, false)
  match ← plainBreaks (← bound) with
  | none => return (.stop, true)
  | some more => return (.broken (foldedBreak first more), true)

def gapChars : PlainGap → List Char
  | .stop => []
  | .blanks count => List.replicate count ' '
  | .broken breaks => breaks

/-- The words of a text; whether a line ended behind the last one. -/
def plainWords (inFlow : Bool) (indent : Nat) (gap : List Char) (broken : Bool) :
    Nat → Reading (List Char × Bool)
  | 0 => return ([], broken)
  | n + 1 => do
    let c ← get
    let word := plainRun inFlow c.rest
    if word.isEmpty || c.rest.head? = some '#' then return ([], broken)
    skip word.length
    let (behind, broken) ← plainGap
    let c ← get
    if behind = .stop || c.rest.head? = some '#' || (!inFlow && c.mark.column < indent) then
      return (gap ++ word, broken)
    let (more, broken) ← plainWords inFlow indent (gapChars behind) broken n
    return (gap ++ word ++ more, broken)

/-- A text without quotes; whether a line ended behind it. -/
def plain (inFlow : Bool) (indent : Nat) : Reading (String × Bool) := do
  let (words, broken) ← plainWords inFlow indent [] false (← bound)
  return (String.ofList words, broken)

end Reading

end JavaToGo.Document
