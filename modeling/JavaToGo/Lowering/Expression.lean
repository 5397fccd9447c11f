import JavaToGo.Lowering.Literal
import JavaToGo.Lowering.Reference

/-!
# Lowering expressions

Each rule takes the lowering of smaller nodes as an argument, `go`.  `expression`
counts down from the height of the node.
-/

namespace JavaToGo

/-- An expression and the statements that have to run before it. -/
structure Lowered where
  value : Expr
  before : List Stmt := []
deriving Repr, BEq, Inhabited

/-- Several expressions and the statements that have to run before them. -/
structure LoweredList where
  values : List Expr := []
  before : List Stmt := []
deriving Repr, BEq, Inhabited

namespace Lower

def goOperator (operator : String) : String :=
  if operator = ">>>" then ">>" else if operator = "~" then "^" else operator

/-- The types that a value is converted to; it is asserted to have any other. -/
def conversionTypes : List String :=
  ["int", "int8", "int16", "int32", "int64", "uint", "uint8", "byte", "rune", "float32",
    "float64", "string", "bool"]

def printFunctions : List (String × String × String) :=
  [("println", "fmt.Println", "fmt.Fprintln"), ("print", "fmt.Print", "fmt.Fprint"),
    ("printf", "fmt.Printf", "fmt.Fprintf")]

section Rules

variable (go : Node → Lower Lowered)

/-- Lowers operands from left to right. -/
def lowerAll : List Node → Lower LoweredList
  | [] => return {}
  | n :: ns => do
    let first ← go n
    let rest ← lowerAll ns
    return ⟨first.value :: rest.values, first.before ++ rest.before⟩

/-- Assigns to a place, or calls the setter of a field. -/
def assignTo (target : Node) (value : Expr) : Lower (List Stmt) := do
  match ← fieldSetter? target with
  | some setter => return [.call (.call setter [value] false)]
  | none =>
    let place ← go target
    return place.before ++ [.assign place.value value]

section Access

/-- A field of a value; lengths are calls. -/
def fieldOf (target : Node) (field : String) : Lower Lowered := do
  let isConstant := target.kind = .identifier && Text.beginsUpper target.text
  let value ← go target
  if field = "length" && !isConstant then
    return ⟨.callNamed "len" [value.value] false, value.before⟩
  return ⟨.field value.value field, value.before⟩

/-- `target.field`. -/
def fieldAccess (node : Node) : Lower Lowered := do
  let target ← node.require "object"
  let field ← node.requireText "field"
  match target.kind with
  | .self => return { value := ← selfField field }
  | .super => return { value := .field (← selfExpr (some node)) field }
  | .identifier =>
    match ← declaredKind? target.text with
    | some .enumDeclaration =>
      return { value := .var ((← types).mapName target.text ++ "_" ++ field) }
    | some _ => return { value := .var field }
    | none => fieldOf go target field
  | _ => fieldOf go target field

/-- `array[index]`. -/
def arrayAccess (node : Node) : Lower Lowered := do
  let array ← go (← node.require "array")
  let index ← go (← node.require "index")
  return ⟨.index array.value index.value, array.before ++ index.before⟩

end Access

section Calls

/-- The name of the overload as it is called. -/
def calledName (resolution : Resolution) (onSelf : Bool) : Lower String := do
  let r ← receiver
  if onSelf && r.exportsMethods then return Code.exported resolution.name
  match resolution.overload with
  | some o => return Code.withVisibility resolution.name o.isPublic
  | none =>
    if onSelf && (r.kind = .abstractDefault || r.kind = .interfaceDefault) then
      return Code.exported resolution.name
    return resolution.name

def selfCall (node : Node) (resolution : Resolution) (name : String) (args : List Expr) :
    Lower Expr := do
  let r ← receiver
  let unknown := resolution.overload.isNone
  if r.kind = .record && args.isEmpty && r.components.contains name && unknown then
    let self ← selfExpr (some node)
    match r.fields.find? name with
    | some field => return .field self field
    | none => throw (.fault (.missingKey name))
  else if resolution.overload.any Overload.isStatic || !r.hasSelf then
    return .callNamed (← calledName resolution false) args false
  else if name = "name" && args.isEmpty && unknown then
    return .call (.field (← selfExpr (some node)) "Name") [] false
  else
    let self ← selfExpr (some node)
    return .call (.field self (← calledName resolution true)) args false

/-- The part of the instance that the superclass stands for. -/
def superExpr (s : Symbols) (superclass : Option String) (self : Expr) : Expr :=
  match superclass with
  | none => self
  | some name =>
    .field self (if s.isAbstractType superclass then name ++ "Methods" else name)

def superCall (node : Node) (resolution : Resolution) (args : List Expr) : Lower Expr := do
  let base := superExpr (← symbols) (← receiver).superclass (← selfExpr (some node))
  return .call (.field base (← calledName resolution true)) args false

/-- Leaves a comment about an ambiguous call. -/
def withAmbiguity (resolution : Resolution) (name : String) (count : Nat) (before : List Stmt) :
    List Stmt :=
  if resolution.isAmbiguous then methodAmbiguity name count :: before else before

def lengthOf (target : Node) : Lower Lowered := do
  let value ← go target
  return ⟨.callNamed "len" [value.value] false, value.before⟩

def listLiteral (args : List Node) : Lower Lowered := do
  let values ← lowerAll go args
  let expected := (← read).expected
  let type := if Code.isSliceType expected then expected.getD "" else "[]" ++ Code.anyType
  return ⟨.composite type values.values [], values.before⟩

def printCall (toError : Bool) (functions : String × String) (args : List Node) :
    Lower Lowered := do
  let values ← lowerAll go args
  requireImport "fmt"
  if toError then
    requireImport "os"
    return ⟨.callNamed functions.2 (.var "os.Stderr" :: values.values) false, values.before⟩
  return ⟨.callNamed functions.1 values.values false, values.before⟩

/-- Calls on values that Go writes differently, unless the unit declares such a method. -/
def valueIdiom (target : Node) (name : String) (args : List Node) : Lower (Option Lowered) := do
  let s ← symbols
  let isOwn := s.methods.contains name
  match name, args with
  | "equals", [arg] =>
    let value ← go target
    let other ← go arg
    return some ⟨.binary value.value "==" other.value, value.before ++ other.before⟩
  | "size", [] =>
    if (s.methodOverloads name).any fun o => o.argumentTypes.isEmpty then return none
    return some (← lengthOf go target)
  | "length", [] => if isOwn then return none else return some (← lengthOf go target)
  | "isEmpty", [] =>
    if isOwn then return none
    let length ← lengthOf go target
    return some ⟨.binary length.value "==" (.raw "0"), length.before⟩
  | "toArray", _ => if isOwn then return none else return some (← go target)
  | "add", [arg] =>
    if isOwn then return none
    let value ← go target
    let item ← go arg
    return some ⟨.callNamed "append" [value.value, item.value] false, value.before ++ item.before⟩
  | "name", [] =>
    if isOwn then return none
    let value ← go target
    return some ⟨.call (.field value.value "Name") [] false, value.before⟩
  | _, _ => return none

/-- Calls of the Java library that Go writes differently. -/
def libraryIdiom (target : Node) (name : String) (args : List Node) : Lower (Option Lowered) := do
  let isStream := target.text = "System.out" || target.text = "System.err"
  if target.text = "Arrays" && name = "asList" then return some (← listLiteral go args)
  match if isStream then printFunctions.lookup name else none with
  | some functions => return some (← printCall go (target.text = "System.err") functions args)
  | none => valueIdiom go target name args

def namesType (target : Node) : Lower Bool := do
  if target.kind = .identifier then return (← declaredKind? target.text).isSome else return false

def targetCall (target : Node) (resolution : Resolution) (args : LoweredList) : Lower Lowered := do
  let isType ← namesType target
  if isType && resolution.overload.any Overload.isStatic then
    return ⟨.callNamed (← calledName resolution false) args.values false, args.before⟩
  let value ← go target
  return ⟨.call (.field value.value (← calledName resolution false)) args.values false,
    value.before ++ args.before⟩

/-- A call of a method of the unit or of a foreign one. -/
def plainCall (node : Node) (target : Option Node) (name : String) (argNodes : List Node) :
    Lower Lowered := do
  let args ← lowerAll go argNodes
  let count := args.values.length
  let resolution := (← symbols).resolveMethod name count
  noteAll (resolution.methodEvents name count)
  let before := withAmbiguity resolution name count args.before
  match target with
  | none => return ⟨← selfCall node resolution name args.values, before⟩
  | some target =>
    match target.kind with
    | .self => return ⟨← selfCall node resolution name args.values, before⟩
    | .super => return ⟨← superCall node resolution args.values, before⟩
    | _ => targetCall go target resolution ⟨args.values, before⟩

/-- The calls that Go writes differently; a call on the instance is none of them. -/
def idiom (target : Option Node) (name : String) (args : List Node) : Lower (Option Lowered) :=
  match target with
  | none => return none
  | some t => if t.kind = .self || t.kind = .super then return none else libraryIdiom go t name args

/-- A call, as an idiom or plain. -/
def methodInvocation (node : Node) : Lower Lowered := do
  let name ← node.requireText "name"
  let target := node.fieldChild? "object"
  let args := (← node.require "arguments").operands
  match ← idiom go target name args with
  | some lowered => return lowered
  | none => plainCall go node target name args

end Calls

section Creation

mutual
/-- The name of a class without its package and its arguments. -/
def simpleTypeName : Node → Outcome String
  | .mk head children =>
    match head.kind with
    | .genericType => firstTypeName children
    | .scopedTypeIdentifier => .ok ((lastTypeName? children).getD head.text)
    | _ => .ok head.text

def firstTypeName : List Node → Outcome String
  | [] => .error (.fault .emptyList)
  | n :: ns => if n.named then simpleTypeName n else firstTypeName ns
end

/-- The type of a new container: the expected one, when it says more about the elements. -/
def containerType (type : String) : Lower String := do
  match (← read).expected with
  | none => return type
  | some expected =>
    if Text.endsWith type Code.anyType && !expected.isEmpty
        && Text.takeChars 2 expected = Text.takeChars 2 type then
      return expected
    return type

/-- A new list: its first argument is its size. -/
def newList (type : String) : List Node → Lower Lowered
  | [] => return { value := .callNamed "make" [.raw type, .raw "0"] false }
  | first :: _ => do
    let arg ← go first
    if first.kind = .decimalInteger then
      return ⟨.callNamed "make" [.raw type, .raw "0", arg.value] false, arg.before⟩
    return ⟨.callNamed "append" [.composite type [] [], arg.value] true, arg.before⟩

/-- A creation by the overload for this number of arguments. -/
def constructorCall (type : Node) (argNodes : List Node) : Lower Lowered := do
  let args ← lowerAll go argNodes
  let javaName ← simpleTypeName type
  let resolution :=
    (← symbols).resolveConstructor ((← types).mapName javaName) javaName args.values.length
  noteAll (resolution.constructorEvents javaName)
  let before :=
    if resolution.isAmbiguous then constructorAmbiguity javaName :: args.before else args.before
  return ⟨.callNamed resolution.name args.values false, before⟩

/-- `new T(…)`. -/
def objectCreation (node : Node) : Lower Lowered := do
  let type ← node.require "type"
  if (node.childOfKind? .classBody).isSome then
    throw (.unsupported (.anonymousClass type.text) node)
  let goType ← typeOf (← types) type
  let args := (← node.require "arguments").operands
  if Code.isSliceType (some goType) then newList go (← containerType goType) args
  else if Code.isMapType (some goType) then
    return { value := .callNamed "make" [.raw (← containerType goType)] false }
  else constructorCall go type args

/-- The sizes that are given, and how many are not. -/
def arrayDimensions (node : Node) : List Node × Nat :=
  node.children.foldl
    (fun found child =>
      match child.kind with
      | .dimensionsExpr => (found.1 ++ child.operands, found.2 + 1)
      | .dimensions => (found.1, found.2 + child.dimensionDepth)
      | _ => found)
    ([], 0)

/-- `{a, b, …}`. -/
def arrayInitializer (node : Node) : Lower Lowered := do
  let expected := (← read).expected
  let type := if Code.isSliceType expected then expected.getD "" else "[]" ++ Code.anyType
  let values ← expecting (some (Code.sliceElement type)) (lowerAll go node.operands)
  return ⟨.composite type values.values [], values.before⟩

/-- `new T[n]` or `new T[]{…}`. -/
def arrayCreation (node : Node) : Lower Lowered := do
  let element ← typeOf (← types) (← node.require "type")
  let dimensions := arrayDimensions node
  let type := Code.sliceOf (max dimensions.2 1) element
  match node.fieldChild? "value" with
  | some initializer => expecting (some type) (arrayInitializer go initializer)
  | none =>
    match dimensions.1 with
    | [] => return { value := .nil }
    | first :: _ =>
      let size ← go first
      return ⟨.callNamed "make" [.raw type, size.value] false, size.before⟩

/-- `T[]::new`; no other method reference has a counterpart. -/
def methodReference (node : Node) : Lower Lowered := do
  match node.children.filter fun c => !c.kind.isComment with
  | [type, _, word] =>
    if word.kind = .newWord && type.kind = .arrayType then
      let goType ← typeOf (← types) type
      return { value := .callNamed "make" [.raw goType, .raw "0"] false }
    throw (.unsupported (.methodReference node.text) node)
  | _ => throw (.unsupported (.methodReference node.text) node)

end Creation

section Operators

section

variable (node : Node)

/-- An assignment as statements; a compound operator is written out. -/
def assignmentStmts : Lower (List Stmt) := do
  let left ← node.require "left"
  let operator ← node.requireText "operator"
  let right ← go (← node.require "right")
  if operator = "=" then return right.before ++ (← assignTo go left right.value)
  let current ← go left
  let value : Expr := .binary current.value (goOperator (Text.dropLastChar operator)) right.value
  return right.before ++ current.before ++ (← assignTo go left value)

/-- The assignment runs before, and its value is that of the place. -/
def assignmentValue : Lower Lowered := do
  let left ← node.require "left"
  let statements ← assignmentStmts go node
  let value ← go left
  return ⟨value.value, statements ++ value.before⟩

def binaryExpression : Lower Lowered := do
  let left ← go (← node.require "left")
  let right ← go (← node.require "right")
  let operator ← node.requireText "operator"
  return ⟨.binary left.value (goOperator operator) right.value, left.before ++ right.before⟩

/-- A unary expression; the plus sign goes. -/
def unaryExpression : Lower Lowered := do
  let operand ← go (← node.require "operand")
  let operator ← node.requireText "operator"
  if operator = "+" then return operand
  return ⟨.unary (goOperator operator) operand.value, operand.before⟩

/-- An update as a statement of its own. -/
def updateStmts : Lower (List Stmt) := do
  let (operand, operator, _) ← node.updateParts
  match ← fieldSetter? operand with
  | some _ =>
    let current ← go operand
    let value : Expr := .binary current.value (Text.takeChars 1 operator) (.raw "1")
    return current.before ++ (← assignTo go operand value)
  | none =>
    let target ← go operand
    return target.before ++ [.step target.value operator]

/-- An update that is used as a value; the operator has to come first. -/
def updateValue : Lower Lowered := do
  let (operand, _, isPrefix) ← node.updateParts
  if !isPrefix then throw (.unsupported .postfixAsValue node)
  let statements ← updateStmts go node
  let value ← go operand
  return ⟨value.value, statements ++ value.before⟩

def parenthesizedExpression : Lower Lowered := do
  match node.operands with
  | [inner] => go inner
  | _ => throw (.malformed .parenthesizedOperand node)

/-- A cast: a conversion between basic types, else an assertion. -/
def castExpression : Lower Lowered := do
  let type ← typeOf (← types) (← node.require "type")
  let value ← go (← node.require "value")
  if type ∈ conversionTypes then return ⟨.cast type value.value, value.before⟩
  return ⟨.assertion value.value type, value.before⟩

/-- A type test, with the binding of its pattern when there is one. -/
def instanceOfExpression : Lower Lowered := do
  let value ← go (← node.require "left")
  match node.fieldChild? "right" with
  | none => throw (.unsupported .recordPattern node)
  | some typeNode =>
    let type ← typeOf (← types) typeNode
    match node.fieldChild? "name" with
    | none => return ⟨.typeTest value.value type, value.before⟩
    | some binding =>
      declareLocal binding.text
      let assertion := Code.Expr.text (.assertion value.value type)
      return ⟨.typeTest value.value type,
        value.before ++ [.raw (Code.avoidReserved binding.text ++ ", _ := " ++ assertion)]⟩

end

/-- The type of a choice: the expected one, else the one that is returned. -/
def choiceType (c : Context) : String :=
  let known :=
    match c.expected with
    | some type => some type
    | none => if c.inReturn then c.returnShape.bind ReturnShape.type else none
  match known with
  | none => Code.anyType
  | some type => if Text.startsWith type "(" then Code.anyType else type

/-- A choice between two values, neither of which may need statements. -/
def ternaryExpression (node : Node) : Lower Lowered := do
  let condition ← go (← node.require "condition")
  let consequence ← go (← node.require "consequence")
  let alternative ← go (← node.require "alternative")
  if consequence.before.all Code.Stmt.isComment && alternative.before.all Code.Stmt.isComment then
    return ⟨.choice condition.value consequence.value alternative.value (choiceType (← read)),
      condition.before ++ consequence.before ++ alternative.before⟩
  throw (.unsupported .effectInChoice node)

end Operators

/-- The rule for the kind of the node. -/
def expressionStep (node : Node) : Lower Lowered :=
  match node.kind with
  | .identifier => return { value := ← resolveName node.text }
  | .self => return { value := ← selfExpr (some node) }
  | .fieldAccess => fieldAccess go node
  | .arrayAccess => arrayAccess go node
  | .methodInvocation => methodInvocation go node
  | .objectCreation => objectCreation go node
  | .arrayCreation => arrayCreation go node
  | .arrayInitializer => arrayInitializer go node
  | .methodReference => methodReference node
  | .assignment => assignmentValue go node
  | .binary => binaryExpression go node
  | .unary => unaryExpression go node
  | .update => updateValue go node
  | .parenthesized => parenthesizedExpression go node
  | .cast => castExpression go node
  | .instanceOf => instanceOfExpression go node
  | .ternary => ternaryExpression go node
  | .switchExpression => throw (.unsupported .switchAsValue node)
  | .lambda => throw (.unsupported (.lambda node.text) node)
  | .classLiteral => throw (.unsupported (.classLiteral node.text) node)
  | .decimalInteger | .hexInteger | .octalInteger | .binaryInteger =>
    return { value := .raw (Literal.integer node.text) }
  | .decimalFloat | .hexFloat => return { value := .raw (Literal.float node.text) }
  | .stringLiteral => return { value := .raw (Literal.string node.text) }
  | .characterLiteral => return { value := .raw node.text }
  | .trueLiteral => return { value := .raw "true" }
  | .falseLiteral => return { value := .raw "false" }
  | .nullLiteral => return { value := .raw "nil" }
  | _ => throw (.unhandledChild node "expression")

end Rules

def expressionWithin : Nat → Node → Lower Lowered
  | 0, _ => throw (.fault .tooDeep)
  | height + 1, node => expressionStep (expressionWithin height) node

/-- A Java expression as a Go expression. -/
def expression (node : Node) : Lower Lowered :=
  expressionWithin node.height node

end Lower

end JavaToGo
