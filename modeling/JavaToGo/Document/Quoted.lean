import JavaToGo.Document.Cursor
import JavaToGo.Text.Basic

/-!
# Texts in quotes
-/

namespace JavaToGo.Document

/-- A line break counts as a blank; further breaks count instead of it. -/
def foldedBreak (first more : List Char) : List Char :=
  if first != ['\n'] then first ++ more else if more.isEmpty then [' '] else more

section Escapes

def escapeOf? : Char → Option Char
  | '0' => some '\x00'
  | 'a' => some '\x07'
  | 'b' => some '\x08'
  | 't' => some '\t'
  | '\t' => some '\t'
  | 'n' => some '\n'
  | 'v' => some '\x0b'
  | 'f' => some '\x0c'
  | 'r' => some '\r'
  | 'e' => some '\x1b'
  | ' ' => some ' '
  | '"' => some '"'
  | '\\' => some '\\'
  | '/' => some '/'
  | 'N' => some '\x85'
  | '_' => some '\xa0'
  | 'L' => some '\u2028'
  | 'P' => some '\u2029'
  | _ => none

def escapeWidth? : Char → Option Nat
  | 'x' => some 2
  | 'u' => some 4
  | 'U' => some 8
  | _ => none

def isHighHalf (n : Nat) : Bool := 0xd800 ≤ n && n < 0xdc00

def isLowHalf (n : Nat) : Bool := 0xdc00 ≤ n && n < 0xe000

/-- The character of a code; a half is none. -/
def charOfCode (n : Nat) : Char :=
  if isHighHalf n || isLowHalf n then '\ufffd' else Char.ofNat n

/-- Two halves of a pair are one character; a half alone is the replacement character. -/
def charsOfCodes : List Nat → List Char
  | [] => []
  | [n] => [charOfCode n]
  | high :: low :: codes =>
    if isHighHalf high && isLowHalf low then
      Char.ofNat (0x10000 + (high - 0xd800) * 0x400 + (low - 0xdc00)) :: charsOfCodes codes
    else charOfCode high :: charsOfCodes (low :: codes)

end Escapes

namespace Reading

def quotedBreaks : Nat → Reading (List Char)
  | 0 => return []
  | n + 1 => do
    if (← get).atSeparator then complain .unexpectedSeparator
    let _ ← span isGap
    let found ← lineBreak
    if found.isEmpty then return [] else return found ++ (← quotedBreaks n)

/-- Blanks, or a line break with the blanks around it. -/
def quotedGap : Reading (List Char) := do
  let gap ← span isGap
  match ← next? with
  | none => complain .unexpectedEnd
  | some c =>
    if isBreak c then
      let first ← lineBreak
      return foldedBreak first (← quotedBreaks (← bound))
    else return gap

/-- The codes that an escape stands for; its backslash was read. -/
def escape : Reading (List Nat) := do
  match ← next? with
  | none => complain (.unknownEscape none)
  | some c =>
    match escapeOf? c, escapeWidth? c with
    | some char, _ =>
      skip 1
      return [char.toNat]
    | none, some width =>
      skip 1
      let digits := (← get).rest.take width
      match if digits.length = width then Text.hexNumber? digits else none with
      | none => expected ("escape sequence of " ++ toString width ++ " hexadecimal numbers")
      | some code =>
        if 0x10ffff < code then throw .noSuchValue
        skip width
        return [code]
    | none, none =>
      if isBreak c then
        let _ ← lineBreak
        return (← quotedBreaks (← bound)).map Char.toNat
      else complain (.unknownEscape (some c))

/-- The codes of a stretch without blanks. -/
def quotedRun (double : Bool) : Nat → Reading (List Nat)
  | 0 => return []
  | n + 1 => do
    let found ← span fun c => !(isBreak c || isGap c || c == '\'' || c == '"' || c == '\\')
    let codes := found.map Char.toNat
    match ← next? with
    | some c =>
      if !double && c == '\'' && (← second?) = some '\'' then
        skip 2
        return codes ++ c.toNat :: (← quotedRun double n)
      else if (double && c == '\'') || (!double && (c == '"' || c == '\\')) then
        skip 1
        return codes ++ c.toNat :: (← quotedRun double n)
      else if double && c == '\\' then
        skip 1
        let escaped ← escape
        return codes ++ escaped ++ (← quotedRun double n)
      else return codes
    | none => return codes

/-- Two apostrophes are one; between double quotes a backslash escapes. -/
def quotedCodes (double : Bool) : Nat → Reading (List Nat)
  | 0 => complain .unexpectedEnd
  | n + 1 => do
    let run ← quotedRun double (← bound)
    if (← next?) = some (if double then '"' else '\'') then
      skip 1
      return run
    let gap ← quotedGap
    return run ++ gap.map Char.toNat ++ (← quotedCodes double n)

def quoted (double : Bool) : Reading String := do
  skip 1
  return String.ofList (charsOfCodes (← quotedCodes double (← bound)))

end Reading

end JavaToGo.Document
