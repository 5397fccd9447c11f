import JavaToGo.Document.Literal
import JavaToGo.Document.Plain
import JavaToGo.Document.Tag

/-!
# Tokens

A key is only known as one when its colon comes.  So the place of every token that
could be a key is remembered, and the tokens that open the mapping and announce the
key are put in front of it afterwards.
-/

namespace JavaToGo.Document

/-- The words and signs of a document; indentation opens and closes lists and mappings. -/
inductive TokenKind where
  | streamEnd | documentStart | documentEnd
  | listStart | mappingStart | blockEnd
  | openList | closeList | openMapping | closeMapping
  | item | comma | key | value
  | directive (directive : Directive)
  | aliasOf (name : String)
  | anchor (name : String)
  | tag (handle : Option String) (name : String)
  | scalar (text : String) (isPlain : Bool)
deriving DecidableEq, Repr, Inhabited

def TokenKind.word : TokenKind → String
  | .streamEnd => "<stream end>"
  | .documentStart => "<document start>"
  | .documentEnd => "<document end>"
  | .listStart => "<block sequence start>"
  | .mappingStart => "<block mapping start>"
  | .blockEnd => "<block end>"
  | .openList => "["
  | .closeList => "]"
  | .openMapping => "\x7b"
  | .closeMapping => "\x7d"
  | .item => "-"
  | .comma => ","
  | .key => "?"
  | .value => ":"
  | .directive _ => "<directive>"
  | .aliasOf _ => "<alias>"
  | .anchor _ => "<anchor>"
  | .tag .. => "<tag>"
  | .scalar .. => "<scalar>"

structure Token where
  kind : TokenKind
  mark : Mark
deriving DecidableEq, Repr, Inhabited

/-- A token that could be a key. -/
structure PossibleKey where
  position : Nat
  required : Bool
  index : Nat
  mark : Mark
deriving Repr, Inhabited

/-- A key stands on one line and has at most so many characters. -/
def longestKey : Nat := 1024

/-- How far the text has been cut into tokens. -/
structure Scan where
  cursor : Cursor
  tokens : Array Token := #[]
  flowLevel : Nat := 0
  indents : List Nat := []
  allowKey : Bool := true
  keys : List (Nat × PossibleKey) := []
  ended : Bool := false
deriving Inhabited

abbrev Scanning := StateT Scan (Except ReadFault)

namespace Scanning

section Basics

def reading {α : Type} (x : Reading α) : Scanning α := do
  let s ← get
  let (a, cursor) ← x.run s.cursor
  set { s with cursor := cursor }
  return a

def complain {α : Type} (complaint : Complaint) : Scanning α :=
  reading (Reading.complain complaint)

def inFlow : Scanning Bool :=
  return (← get).flowLevel != 0

def column : Scanning Nat :=
  return (← get).cursor.mark.column

def emit (kind : TokenKind) (mark : Mark) : Scanning Unit :=
  modify fun s => { s with tokens := s.tokens.push ⟨kind, mark⟩ }

def emitSign (kind : TokenKind) (width : Nat) : Scanning Unit := do
  emit kind (← get).cursor.mark
  reading (Reading.skip width)

def allowKey (allowed : Bool) : Scanning Unit :=
  modify fun s => { s with allowKey := allowed }

end Basics

section Keys

/-- Whether a key can no longer be one: its line is over, or it is too long. -/
def isStale (c : Cursor) (key : PossibleKey) : Bool :=
  key.mark.line != c.mark.line || longestKey < c.index - key.index

/-- Forgets keys; those that are required are missed. -/
def forgetKeys (p : Nat × PossibleKey → Bool) : Scanning Unit := do
  let s ← get
  if s.keys.any fun key => p key && key.2.required then complain .missingColon
  set { s with keys := s.keys.filter fun key => !p key }

/-- Forgets what can be a key no longer. -/
def forgetStaleKeys : Scanning Unit := do
  let c := (← get).cursor
  forgetKeys fun key => isStale c key.2

def forgetKey : Scanning Unit := do
  let level := (← get).flowLevel
  forgetKeys fun key => key.1 == level

/-- Remembers that a key may begin here. -/
def saveKey : Scanning Unit := do
  let s ← get
  if s.allowKey then
    forgetKey
    let key : PossibleKey :=
      { position := s.tokens.size
        required := s.flowLevel == 0 && s.indents.head? == some s.cursor.mark.column
        index := s.cursor.index
        mark := s.cursor.mark }
    modify fun s => { s with keys := (s.flowLevel, key) :: s.keys }

end Keys

section Indentation

/-- Closes what is open further in. -/
def unwind (column : Nat) : Scanning Unit := do
  let s ← get
  if s.flowLevel == 0 then
    let deeper := s.indents.takeWhile (column < ·)
    let ends := deeper.map fun _ => (⟨.blockEnd, s.cursor.mark⟩ : Token)
    set { s with tokens := s.tokens ++ ends, indents := s.indents.drop deeper.length }

def unwindAll : Scanning Unit := do
  let s ← get
  if s.flowLevel == 0 then
    let ends := s.indents.map fun _ => (⟨.blockEnd, s.cursor.mark⟩ : Token)
    set { s with tokens := s.tokens ++ ends, indents := [] }

/-- Whether the column is further in than everything that is open. -/
def indentTo (column : Nat) : Scanning Bool := do
  let s ← get
  if s.indents.head?.all (· < column) then
    set { s with indents := column :: s.indents }
    return true
  return false

end Indentation

section Tokens

def streamEnd : Scanning Unit := do
  unwindAll
  forgetKey
  emitSign .streamEnd 0
  modify fun s => { s with ended := true }

def separator (kind : TokenKind) : Scanning Unit := do
  unwindAll
  forgetKey
  allowKey false
  emitSign kind 3

def directive : Scanning Unit := do
  unwindAll
  forgetKey
  allowKey false
  let mark := (← get).cursor.mark
  emit (.directive (← reading Reading.directive)) mark

def opening (kind : TokenKind) : Scanning Unit := do
  saveKey
  modify fun s => { s with flowLevel := s.flowLevel + 1 }
  allowKey true
  emitSign kind 1

def closing (kind : TokenKind) : Scanning Unit := do
  if !(← inFlow) then complain (.unexpectedToken kind.word)
  forgetKey
  modify fun s => { s with flowLevel := s.flowLevel - 1 }
  allowKey false
  emitSign kind 1

def comma : Scanning Unit := do
  allowKey true
  forgetKey
  emitSign .comma 1

/-- Opens an indented list or mapping when a sign stands further in than everything that is
open.  The sign has to stand where a key may stand. -/
def openBlock (kind : TokenKind) (complaint : Complaint) : Scanning Unit := do
  let s ← get
  if s.flowLevel == 0 then
    if !s.allowKey then complain complaint
    if ← indentTo s.cursor.mark.column then emit kind s.cursor.mark

def item : Scanning Unit := do
  openBlock .listStart .misplacedItem
  allowKey true
  forgetKey
  emitSign .item 1

def key : Scanning Unit := do
  openBlock .mappingStart .misplacedKey
  allowKey !(← inFlow)
  forgetKey
  emitSign .key 1

/-- Puts the tokens of a key in front of it. -/
def announce (key : PossibleKey) : Scanning Unit := do
  let opens ← if ← inFlow then pure false else indentTo key.mark.column
  let kinds := if opens then [TokenKind.mappingStart, .key] else [.key]
  let added : List Token := kinds.map fun kind => ⟨kind, key.mark⟩
  modify fun s =>
    { s with
      tokens := s.tokens.extract 0 key.position ++ added
        ++ s.tokens.extract key.position s.tokens.size }

def value : Scanning Unit := do
  let s ← get
  match s.keys.lookup s.flowLevel with
  | some key =>
    set { s with keys := s.keys.filter fun k => k.1 != s.flowLevel }
    announce key
    allowKey false
  | none =>
    openBlock .mappingStart .misplacedValue
    allowKey !(← inFlow)
    forgetKey
  emitSign .value 1

def word (x : Reading TokenKind) : Scanning Unit := do
  saveKey
  allowKey false
  let mark := (← get).cursor.mark
  emit (← reading x) mark

def plain : Scanning Unit := do
  saveKey
  let s ← get
  let indent := (s.indents.head?.map (· + 1)).getD 0
  let (words, broken) ← reading (Reading.plain (s.flowLevel != 0) indent)
  allowKey broken
  emit (.scalar words true) s.cursor.mark

def literal (folds : Bool) : Scanning Unit := do
  allowKey true
  forgetKey
  let s ← get
  let outer := (s.indents.head?.map (· + 1)).getD 0
  emit (.scalar (← reading (Reading.literal folds outer)) false) s.cursor.mark

end Tokens

section Choosing

/-- Steps over blanks, comments and line breaks. -/
def toNextToken : Nat → Scanning Unit
  | 0 => return ()
  | n + 1 => do
    let found ← reading do
      let _ ← Reading.span (· == ' ')
      if (← Reading.next?) = some '#' then
        let _ ← Reading.span fun c => !isBreak c
      Reading.lineBreak
    if !found.isEmpty then
      if !(← inFlow) then allowKey true
      toNextToken n

/-- Whether a text without quotes may begin here. -/
def startsPlain (inFlow : Bool) (c : Char) (second : Option Char) : Bool :=
  !(isBreak c || isGap c || isFlowMark c || "-?:#&*!|>'\"%@\x60".toList.contains c)
    || (!endsWord second && (c == '-' || (!inFlow && (c == '?' || c == ':'))))

/-- The token that begins with the character. -/
def tokenAt (c : Char) : Scanning Unit := do
  let s ← get
  let second := (s.cursor.rest.drop 1).head?
  let flow := s.flowLevel != 0
  let atStart := s.cursor.mark.column == 0
  if atStart && c == '%' then directive
  else if atStart && c == '-' && s.cursor.atSeparator then separator .documentStart
  else if atStart && c == '.' && s.cursor.atSeparator then separator .documentEnd
  else if c == '[' then opening .openList
  else if c == '{' then opening .openMapping
  else if c == ']' then closing .closeList
  else if c == '}' then closing .closeMapping
  else if c == ',' then comma
  else if c == '-' && endsWord second then item
  else if c == '?' && (flow || endsWord second) then key
  else if c == ':' && (flow || endsWord second) then value
  else if c == '*' then word (TokenKind.aliasOf <$> Reading.anchorName)
  else if c == '&' then word (TokenKind.anchor <$> Reading.anchorName)
  else if c == '!' then word do
    let (handle, name) ← Reading.tag
    return .tag handle name
  else if c == '|' && !flow then literal false
  else if c == '>' && !flow then literal true
  else if c == '\'' then word ((TokenKind.scalar · false) <$> Reading.quoted false)
  else if c == '"' then word ((TokenKind.scalar · false) <$> Reading.quoted true)
  else if startsPlain flow c second then plain
  else complain (.noToken (some c))

def nextToken : Scanning Unit := do
  toNextToken ((← get).cursor.rest.length + 1)
  forgetStaleKeys
  unwind (← column)
  match (← get).cursor.rest with
  | [] => streamEnd
  | c :: _ => tokenAt c

def step : Scanning Unit := do
  nextToken
  if !(← get).ended then forgetStaleKeys

/-- How many tokens are settled: those in front of everything that could still be a key. -/
def settled (s : Scan) : Nat :=
  s.keys.foldl (fun n key => min n key.2.position) s.tokens.size

/-- The tokens up to the end or to the first fault; every one of them consumes a character. -/
def allTokens : Nat → Scan → List Token × Option ReadFault
  | 0, s => (s.tokens.toList, none)
  | n + 1, s =>
    match step.run s with
    | .ok (_, s) => if s.ended then (s.tokens.toList, none) else allTokens n s
    | .error fault => (s.tokens.toList.take (settled s), some fault)

end Choosing

end Scanning

def isAllowed (c : Char) : Bool :=
  let n := c.toNat
  n == 0x09 || n == 0x0a || n == 0x0d || (0x20 ≤ n && n ≤ 0x7e) || n == 0x85
    || (0xa0 ≤ n && n ≤ 0xd7ff) || (0xe000 ≤ n && n ≤ 0xfffd) || 0x10000 ≤ n

/-- The tokens of a text, and what is wrong behind them.  A mark for the order of bytes at its
beginning does not count. -/
def tokens (cs : List Char) : List Token × Option ReadFault :=
  match cs.find? fun c => !isAllowed c with
  | some c => ([], some (.malformed ⟨.badCharacter c, {}⟩))
  | none =>
    let start : Cursor := { rest := cs }
    let cursor := if cs.head? = some '\ufeff' then start.skip 1 else start
    Scanning.allTokens (cs.length + 2) { cursor := cursor }

end JavaToGo.Document
