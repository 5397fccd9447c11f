import JavaToGo.Document.Token
import JavaToGo.Document.Word

/-!
# Nodes

Every step consumes a token, so twice the number of tokens bounds the depth of the
recursion.
-/

namespace JavaToGo.Document

/-- A value as it is written, with its tag; an alias is replaced by what it refers to. -/
inductive Node where
  | scalar (tag : Tag) (text : String) (mark : Mark)
  | list (tag : Tag) (items : List Node) (mark : Mark)
  | mapping (tag : Tag) (entries : List (Node × Node)) (mark : Mark)
  /-- An alias of a list or mapping inside of it. -/
  | enclosing (mark : Mark)
deriving Repr, Inhabited

namespace Node

def mark : Node → Mark
  | .scalar _ _ mark => mark
  | .list _ _ mark => mark
  | .mapping _ _ mark => mark
  | .enclosing mark => mark

def tag : Node → Tag
  | .scalar tag _ _ => tag
  | .list tag _ _ => tag
  | .mapping tag _ _ => tag
  | .enclosing _ => .list

def empty (mark : Mark) : Node :=
  .scalar .null "" mark

end Node

/-- What is known while nodes are read. -/
structure Composition where
  tokens : List Token
  fault : Option ReadFault := none
  handles : List (String × String) := []
  /-- The nodes with anchors; those that are still open have none. -/
  anchors : List (String × Option Node) := []
deriving Inhabited

def standardHandles : List (String × String) :=
  [("!", "!"), ("!!", tagStem)]

/-- Composes nodes from the tokens that are left. -/
abbrev Composing := StateT Composition (Except ReadFault)

/-- What stands in front of a value. -/
structure Properties where
  anchor : Option String := none
  tag : Option String := none
deriving Inhabited

namespace Properties

def isEmpty (p : Properties) : Bool :=
  p.anchor.isNone && p.tag.isNone

/-- The tag of a list or mapping that has `default` unless it says more. -/
def tagOr (p : Properties) (default : Tag) : Tag :=
  match p.tag with
  | none => default
  | some "!" => default
  | some name => Tag.ofName name

def wordTag (p : Properties) (text : String) (isPlain : Bool) : Tag :=
  match p.tag with
  | none => if isPlain then Document.wordTag text else .text
  | some "!" => Document.wordTag text
  | some name => Tag.ofName name

end Properties

namespace Composing

section Basics

def next : Composing Token := do
  let c ← get
  match c.tokens, c.fault with
  | token :: _, _ => return token
  | [], some fault => throw fault
  | [], none => return ⟨.streamEnd, {}⟩

def nextKind : Composing TokenKind :=
  return (← next).kind

def advance : Composing Unit :=
  modify fun c => { c with tokens := c.tokens.drop 1 }

/-- Steps over a token of a kind; whether it was there. -/
def accept (kind : TokenKind) : Composing Bool := do
  if (← nextKind) = kind then
    advance
    return true
  return false

def unexpected {α : Type} : Composing α := do
  let token ← next
  throw (.malformed ⟨.unexpectedToken token.kind.word, token.mark⟩)

def complain {α : Type} (complaint : Complaint) : Composing α := do
  throw (.malformed ⟨complaint, (← next).mark⟩)

end Basics

section Properties

def anchor? : Composing (Option String) := do
  match ← nextKind with
  | .anchor name => advance; return some name
  | _ => return none

def tag? : Composing (Option String) := do
  match ← nextKind with
  | .tag none name => advance; return some name
  | .tag (some handle) name =>
    match (← get).handles.lookup handle with
    | some stem => advance; return some (stem ++ name)
    | none => complain (.unknownHandle handle)
  | _ => return none

def properties : Composing Properties := do
  match ← anchor? with
  | some name => return { anchor := some name, tag := ← tag? }
  | none =>
    match ← tag? with
    | some tag => return { tag := some tag, anchor := ← anchor? }
    | none => return {}

def define (p : Properties) (node : Option Node) : Composing Unit :=
  match p.anchor with
  | none => return ()
  | some name =>
    modify fun c => { c with anchors := (name, node) :: c.anchors.filter fun a => a.1 != name }

/-- Notes the anchor of a node that begins; no other node may have it. -/
def announce (p : Properties) : Composing Unit := do
  match p.anchor with
  | none => return ()
  | some name =>
    if ((← get).anchors.lookup name).isSome then complain (.secondAnchor name)
    define p none

def aliased (name : String) : Composing Node := do
  match (← get).anchors.lookup name with
  | some (some node) => return node
  | some none => return .enclosing (← next).mark
  | none => complain (.unknownAnchor name)

end Properties

section Nodes

mutual
/-- A node.  `block` allows indented lists and mappings, `indentless` lists that stand as far out
as the key in front of them. -/
def node (block indentless : Bool) : Nat → Composing Node
  | 0 => unexpected
  | n + 1 => do
    if let .aliasOf name ← nextKind then
      let found ← aliased name
      advance
      return found
    let mark := (← next).mark
    let p ← properties
    announce p
    let found ← content p mark block indentless n
    define p (some found)
    return found

/-- A word, a list or a mapping. -/
def content (p : Properties) (mark : Mark) (block indentless : Bool) : Nat → Composing Node
  | 0 => unexpected
  | n + 1 => do
    match ← nextKind with
    | .scalar word isPlain =>
      advance
      return .scalar (p.wordTag word isPlain) word mark
    | .openList =>
      advance
      return .list (p.tagOr .list) (← flowItems true n) mark
    | .openMapping =>
      advance
      return .mapping (p.tagOr .mapping) (← flowEntries true n) mark
    | kind =>
      if indentless && kind = .item then return .list (p.tagOr .list) (← bareItems n) mark
      else if block && kind = .listStart then
        advance
        return .list (p.tagOr .list) (← blockItems n) mark
      else if block && kind = .mappingStart then
        advance
        return .mapping (p.tagOr .mapping) (← blockEntries n) mark
      else if p.isEmpty then unexpected
      else return .scalar (p.wordTag "" true) "" mark

def blockItems : Nat → Composing (List Node)
  | 0 => unexpected
  | n + 1 => do
    let mark := (← next).mark
    if ← accept .item then
      let first ← if [.item, .blockEnd].contains (← nextKind) then pure (.empty mark)
        else node true false n
      return first :: (← blockItems n)
    else if ← accept .blockEnd then return []
    else unexpected

def bareItems : Nat → Composing (List Node)
  | 0 => unexpected
  | n + 1 => do
    let mark := (← next).mark
    if ← accept .item then
      let first ← if [.item, .key, .value, .blockEnd].contains (← nextKind) then pure (.empty mark)
        else node true false n
      return first :: (← bareItems n)
    else return []

/-- A key or a value of an indented mapping. -/
def blockPart (mark : Mark) : Nat → Composing Node
  | 0 => unexpected
  | n + 1 => do
    if [.key, .value, .blockEnd].contains (← nextKind) then return .empty mark
    else node true true n

def blockEntries : Nat → Composing (List (Node × Node))
  | 0 => unexpected
  | n + 1 => do
    let mark := (← next).mark
    if ← accept .key then
      let key ← blockPart mark n
      let mark := (← next).mark
      let value ← if ← accept .value then blockPart mark n else pure (.empty mark)
      return (key, value) :: (← blockEntries n)
    else if ← accept .blockEnd then return []
    else unexpected

/-- A key or a value inside brackets that `closing` closes. -/
def flowPart (closing : TokenKind) (mark : Mark) : Nat → Composing Node
  | 0 => unexpected
  | n + 1 => do
    if [.value, .comma, closing].contains (← nextKind) then return .empty mark
    else node false false n

/-- A key and its value inside brackets; the key was announced. -/
def flowPair (closing : TokenKind) : Nat → Composing (Node × Node)
  | 0 => unexpected
  | n + 1 => do
    let mark := (← next).mark
    advance
    let key ← flowPart closing mark n
    let mark := (← next).mark
    let value ← if ← accept .value then flowPart closing mark n else pure (.empty mark)
    return (key, value)

def flowItems (isFirst : Bool) : Nat → Composing (List Node)
  | 0 => unexpected
  | n + 1 => do
    if ← accept .closeList then return []
    if !isFirst then
      if !(← accept .comma) then unexpected
      if ← accept .closeList then return []
    let mark := (← next).mark
    let first ← if (← nextKind) = .key then do
        pure (.mapping .mapping [← flowPair .closeList n] mark)
      else node false false n
    return first :: (← flowItems false n)

def flowEntries (isFirst : Bool) : Nat → Composing (List (Node × Node))
  | 0 => unexpected
  | n + 1 => do
    if ← accept .closeMapping then return []
    if !isFirst then
      if !(← accept .comma) then unexpected
      if ← accept .closeMapping then return []
    let mark := (← next).mark
    let first ← if (← nextKind) = .key then flowPair .closeMapping n
      else do pure (← node false false n, .empty mark)
    return first :: (← flowEntries false n)
end

end Nodes

section Documents

def directives (hasVersion : Bool) : Nat → Composing Unit
  | 0 => return ()
  | n + 1 => do
    match ← nextKind with
    | .directive (.version major) =>
      if hasVersion then complain .secondVersion
      if major != 1 then complain .otherVersion
      advance
      directives true n
    | .directive (.handle handle stem) =>
      if ((← get).handles.lookup handle).isSome then complain (.secondHandle handle)
      advance
      modify fun c => { c with handles := (handle, stem) :: c.handles }
      directives hasVersion n
    | .directive .other =>
      advance
      directives hasVersion n
    | _ => return ()

def endsDocument : TokenKind → Bool
  | .directive _ => true
  | kind => kind = .documentStart || kind = .documentEnd || kind = .streamEnd

def explicitDocument (n : Nat) : Composing Node := do
  directives false n
  if !(← accept .documentStart) then unexpected
  modify fun c => { c with handles := c.handles ++ standardHandles }
  if endsDocument (← nextKind) then return .empty (← next).mark
  node true false n

def documentEnds : Nat → Composing Unit
  | 0 => return ()
  | n + 1 => do
    if ← accept .documentEnd then documentEnds n

/-- The document of a text, which must be the only one. -/
def onlyDocument (n : Nat) : Composing (Option Node) := do
  match ← nextKind with
  | .streamEnd => return none
  | kind =>
    let root ← if endsDocument kind && kind ≠ .documentEnd then explicitDocument n
      else do
        modify fun c => { c with handles := standardHandles }
        node true false n
    documentEnds n
    if (← nextKind) ≠ .streamEnd then complain .secondDocument
    return some root

end Documents

end Composing

/-- The node that tokens make up; none when there is no document. -/
def nodeOf (tokens : List Token) (fault : Option ReadFault) : Except ReadFault (Option Node) := do
  let bound := 4 * tokens.length + 4
  let (root, _) ← (Composing.onlyDocument bound).run { tokens := tokens, fault := fault }
  return root

end JavaToGo.Document
