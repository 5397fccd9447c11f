/-!
# Terminal sequences

A text for an output that is not a terminal.
-/

namespace JavaToGo.Text

def escapeChar : Char := '\x1b'

def isSequenceParameter (c : Char) : Bool :=
  c.isDigit || c == ';' || c == '?'

/-- How far a sequence goes: a bracket, digits, semicolons and question marks, and one letter. -/
def sequenceLength? : List Char → Option Nat
  | '[' :: cs =>
    let parameters := cs.takeWhile isSequenceParameter
    match cs.drop parameters.length with
    | c :: _ => if c.isAlpha then some (parameters.length + 2) else none
    | [] => none
  | _ => none

/-- The text without sequences behind the first `skip` characters, which are left out too. -/
def withoutSequencesFrom : Nat → List Char → List Char
  | _, [] => []
  | skip + 1, _ :: cs => withoutSequencesFrom skip cs
  | 0, c :: cs =>
    match if c == escapeChar then sequenceLength? cs else none with
    | some n => withoutSequencesFrom n cs
    | none => c :: withoutSequencesFrom 0 cs

/-- The text without sequences; an escape character that begins none stays. -/
def withoutSequences (s : String) : String :=
  String.ofList (withoutSequencesFrom 0 s.toList)

/-- Reads a carriage return before a newline as nothing. -/
def newlineBreaks : List Char → List Char
  | [] => []
  | '\r' :: '\n' :: cs => '\n' :: newlineBreaks cs
  | c :: cs => c :: newlineBreaks cs

end JavaToGo.Text
