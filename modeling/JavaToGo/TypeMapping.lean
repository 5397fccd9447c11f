import JavaToGo.Code.TypeText
import JavaToGo.Settings
import JavaToGo.Symbols
import JavaToGo.Tree.Declaration

/-!
# Mapping types
-/

namespace JavaToGo

/-- Names that were declared together. -/
abbrev Scope := List String

def inScopes (scopes : List Scope) (name : String) : Bool :=
  scopes.any (·.contains name)

/-- What the mapping of types looks at. -/
structure TypeContext where
  settings : Settings := {}
  symbols : Symbols := {}
  typeParams : List Scope := []
deriving Inhabited

def primitiveTypes : List (String × String) :=
  [("int", "int"), ("long", "int64"), ("short", "int16"), ("byte", "int8"), ("char", "rune"),
    ("float", "float32"), ("double", "float64"), ("boolean", "bool")]

def builtinTypes : List (String × String) :=
  [("Object", Code.anyType), ("String", "string"), ("CharSequence", "string"), ("Integer", "int"),
    ("Long", "int64"), ("Short", "int16"), ("Byte", "int8"), ("Character", "rune"),
    ("Boolean", "bool"), ("Double", "float64"), ("Float", "float32")]

def listTypes : List String :=
  ["List", "ArrayList", "LinkedList", "Collection", "Deque", "ArrayDeque", "Queue", "Stack",
    "Iterable"]

def mapTypes : List String :=
  ["Map", "HashMap", "LinkedHashMap", "TreeMap"]

/-- What follows a beginning, if it is a word of its own. -/
def wordAfter? (name start : String) : Option String :=
  if Text.startsWith name start && Text.beginsUpper (Text.dropChars start.length name) then
    some (Text.dropChars start.length name)
  else none

def stripped? (starts : List String) (name : String) : Option String :=
  starts.findSome? (wordAfter? name)

def packaged? (packages : Table String String) (name : String) : Option String :=
  packages.entries.findSome? fun e => (wordAfter? name e.1).map fun _ => e.2 ++ "." ++ name

namespace TypeContext

section

variable (c : TypeContext)

def withTypeParams (names : List String) : TypeContext :=
  { c with typeParams := names :: c.typeParams }

def override? (name : String) : Option String :=
  c.settings.typeMappings.find? name

/-- The name of a type that the unit does not declare. -/
def mapForeignName (name : String) : String :=
  match stripped? c.settings.strippedPrefixes name with
  | some rest => rest
  | none =>
    match packaged? c.settings.packagePrefixes name with
    | some qualified => qualified
    | none => ((primitiveTypes.lookup name).orElse fun _ => builtinTypes.lookup name).getD name

/-- Settings first, then type parameters, declared types, and foreign names. -/
def mapName (name : String) : String :=
  match c.override? name with
  | some type => type
  | none =>
    if inScopes c.typeParams name then name
    else
      match c.symbols.declaredTypes.find? name with
      | some declared => declared.goName
      | none => c.mapForeignName name

/-- A list has at most one type argument and a map at most two. -/
def mapGeneric (node : Node) (base : String) (args : List String) :
    Outcome String :=
  match c.override? base with
  | some type => .ok type
  | none =>
    if base ∈ listTypes then
      match args with
      | [] => .ok ("[]" ++ Code.anyType)
      | [element] => .ok ("[]" ++ element)
      | _ => .error (.overfull (.list base) node)
    else if base ∈ mapTypes then
      match args with
      | [] => .ok ("map[" ++ Code.anyType ++ "]" ++ Code.anyType)
      | [key] => .ok ("map[" ++ key ++ "]" ++ Code.anyType)
      | [key, value] => .ok ("map[" ++ key ++ "]" ++ value)
      | _ => .error (.overfull (.map base) node)
    else .ok (Code.instantiated (c.mapName base) args)

end

end TypeContext

def lastTypeName? (children : List Node) : Option String :=
  ((children.filter fun n => n.kind == .typeIdentifier).getLast?).map Tree.Node.text

def requireType (node : Node) (type : Outcome (Option String)) : Outcome String := do
  match ← type with
  | some t => return t
  | none => throw (.unmapped (.notAType node.kind node.text) node)

/-- The depth of an array type; without dimensions it is one. -/
def arrayDepth (children : List Node) : Nat :=
  match children.find? fun n => n.field == some "dimensions" with
  | some dimensions => dimensions.dimensionDepth
  | none => 1

mutual
/-- The Go type of a node, or nothing when the node is no type expression; `void` is none. -/
def tryType (c : TypeContext) : Node → Outcome (Option String)
  | .mk head children =>
    match head.kind with
    | .typeIdentifier => .ok (some (c.mapName head.text))
    | .scopedTypeIdentifier =>
      match lastTypeName? children with
      | some name => .ok (some (c.mapName name))
      | none => .error (.unmapped .scopedWithoutName (.mk head children))
    | .integralType | .floatingPointType | .booleanType =>
      match primitiveTypes.lookup head.text with
      | some type => .ok (some type)
      | none => .error (.fault (.missingKey head.text))
    | .arrayType => do
      let element ← elementType c (.mk head children) children
      return some (Code.sliceOf (arrayDepth children) element)
    | .genericType => do
      match ← genericParts c none [] children with
      | (some base, args) => return some (← c.mapGeneric (.mk head children) base args)
      | (none, _) => throw (.unmapped .genericWithoutBase (.mk head children))
    | .wildcard => .ok (some "any")
    | .annotatedType => do
      match ← firstType c children with
      | some type => return some type
      | none => throw (.unmapped .annotatedWithoutType (.mk head children))
    | _ => .ok none

def elementType (c : TypeContext) (node : Node) : List Node → Outcome String
  | [] => .error (.malformed (.missingField node.kind "element") node)
  | n :: ns =>
    if n.field = some "element" then requireType n (tryType c n) else elementType c node ns

/-- The base and the arguments of a generic type; of several, the last ones count. -/
def genericParts (c : TypeContext) (base : Option String) (args : List String) :
    List Node → Outcome (Option String × List String)
  | [] => .ok (base, args)
  | .mk head children :: ns =>
    match head.kind with
    | .typeIdentifier => genericParts c (some head.text) args ns
    | .scopedTypeIdentifier => genericParts c (lastTypeName? children) args ns
    | .typeArguments => do
      let types ← argumentTypes c children
      genericParts c base types ns
    | _ => genericParts c base args ns

def argumentTypes (c : TypeContext) : List Node → Outcome (List String)
  | [] => .ok []
  | n :: ns =>
    if n.named then do
      let type ← requireType n (tryType c n)
      let types ← argumentTypes c ns
      return type :: types
    else argumentTypes c ns

def firstType (c : TypeContext) : List Node → Outcome (Option String)
  | [] => .ok none
  | n :: ns =>
    if n.named then do
      match ← tryType c n with
      | some type => return some type
      | none => firstType c ns
    else firstType c ns
end

/-- The Go type of a type expression, which must have one. -/
def typeOf (c : TypeContext) (node : Node) : Outcome String :=
  requireType node (tryType c node)

/-- A declarator may add dimensions behind its name. -/
def withDimensions (declarator : Node) (type : String) : String :=
  match declarator.fieldChild? "dimensions" with
  | some dimensions => Code.sliceOf dimensions.dimensionDepth type
  | none => type

section Parameters

def spreadParts (c : TypeContext) (type name : Option String) :
    List Node → Outcome (Option String × Option String)
  | [] => .ok (type, name)
  | part :: parts => do
    if part.kind = .variableDeclarator then
      let text ← part.requireText "name"
      spreadParts c type (some text) parts
    else if type.isNone then
      let found ← tryType c part
      spreadParts c found name parts
    else spreadParts c type name parts

/-- One parameter; receiver parameters and comments are none. -/
def parameter? (c : TypeContext) (node : Node) : Outcome (Option Param) :=
  match node.kind with
  | .formalParameter => do
    let name ← node.requireText "name"
    let type ← typeOf c (← node.require "type")
    return some ⟨Code.avoidReserved name, withDimensions node type⟩
  | .spreadParameter => do
    match ← spreadParts c none none node.namedChildren with
    | (some type, some name) => return some ⟨Code.avoidReserved name, "..." ++ type⟩
    | _ => throw (.malformed .spreadParameter node)
  | .receiverParameter | .lineComment | .blockComment => return none
  | kind => throw (.malformed (.unexpectedParameter kind) node)

/-- The parameters of a method or a constructor. -/
def parameters (c : TypeContext) (node : Node) : Outcome (List Param) :=
  return (← node.namedChildren.mapM (parameter? c)).filterMap (fun p => p)

end Parameters

section Supertypes

/-- The Go name of the superclass. -/
def superclassOf (c : TypeContext) (node : Node) : Outcome (Option String) :=
  match node.fieldChild? "superclass" with
  | none => return none
  | some superclass => do
    match ← firstType c superclass.children with
    | some type => return some type
    | none => throw (.malformed .superclassWithoutType superclass)

def listedTypes (c : TypeContext) (node : Node) : Outcome (List String) := do
  let found ← ((node.childrenOfKind .typeList).flatMap Tree.Node.namedChildren).mapM (tryType c)
  return found.filterMap (fun t => t)

/-- The Go names of the interfaces of a class. -/
def implementedInterfaces (c : TypeContext) (node : Node) : Outcome (List String) :=
  match node.fieldChild? "interfaces" with
  | none => return []
  | some interfaces => listedTypes c interfaces

def extendedInterfaces (c : TypeContext) (node : Node) : Outcome (List String) :=
  return (← (node.childrenOfKind .extendsInterfaces).mapM (listedTypes c)).flatten

end Supertypes

section Declared

/-- A class below an abstract one is public, whatever its modifiers say. -/
def typeIsPublic (c : TypeContext) (node : Node) : Outcome Bool :=
  match node.kind with
  | .enumDeclaration => return node.modifiers.isPublic || !node.modifiers.hasAccess
  | .classDeclaration => do
    if c.symbols.isAbstractType (← superclassOf c node) then return true
    return node.modifiers.isPublic
  | _ => return node.modifiers.isPublic

/-- The Go name of a declared type. -/
def declaredGoName (c : TypeContext) (node : Node) : Outcome String := do
  let name ← node.requireText "name"
  if node.kind = .interfaceDeclaration then return Code.exported name
  else if node.kind = .classDeclaration && node.modifiers.isAbstract then
    return (stripped? c.settings.strippedPrefixes name).getD name
  else return Code.withVisibility name (← typeIsPublic c node)

end Declared

end JavaToGo
