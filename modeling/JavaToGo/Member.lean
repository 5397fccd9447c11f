import JavaToGo.Lowering.Statement

/-!
# Members
-/

namespace JavaToGo

/-- A field as it is declared. -/
structure DeclaredField where
  javaName : String
  goType : String
  value : Option Node := none
  isStatic : Bool := false
deriving Repr, Inhabited

namespace DeclaredField

def name (f : DeclaredField) : String :=
  Code.avoidReserved f.javaName

def structField (f : DeclaredField) : Code.Field :=
  { name := f.name, type := f.goType }

def byName (fields : List DeclaredField) : List DeclaredField :=
  fields.mergeSort fun a b => !decide (b.javaName < a.javaName)

end DeclaredField

/-- Initialisers of instance fields run in every constructor. -/
def instanceFields (fields : List DeclaredField) : List DeclaredField :=
  fields.filter fun f => !f.isStatic

namespace Lower

def declaredField (isStatic : Bool) (type : String) (declarator : Node) :
    Outcome DeclaredField :=
  return { javaName := ← declarator.requireText "name",
           goType := withDimensions declarator type,
           value := declarator.fieldChild? "value",
           isStatic := isStatic }

def declaredFields (node : Node) : Lower (List DeclaredField) := do
  let enclosing := (← read).unit.root.enclosingTypeParameters node
  let type ← typeOf ((← types).withTypeParams enclosing) (← node.require "type")
  (node.fieldChildren "declarator").mapM (declaredField node.modifiers.isStatic type ·)

def commentsOf : List Stmt → List String
  | [] => []
  | .comment comments :: rest => comments ++ commentsOf rest
  | _ :: rest => commentsOf rest

/-- The initialiser of a static field sees no instance and may not need statements; comments go in
front. -/
def fieldVariable (f : DeclaredField) : Lower Code.ModuleVar := do
  match f.value with
  | none => return { name := f.name, type := some f.goType }
  | some node =>
    let value ← withReceiver {} (expecting (some f.goType) (expression node))
    if value.before.all Code.Stmt.isComment then
      return { name := f.name, type := some f.goType, value := some value.value,
               comments := commentsOf value.before }
    throw (.unsupported .effectInStaticField node)

def fieldInitializer (f : DeclaredField) : Lower (List Stmt) := do
  match f.value with
  | none => return []
  | some node =>
    let value ← expecting (some f.goType) (expression node)
    let place := ((← receiver).fields.find? f.javaName).getD f.name
    return value.before ++ [.assign (.field (.var "this") place) value.value]

/-- Fields are set in the order of their names. -/
def fieldInitializers : List DeclaredField → Lower (List Stmt)
  | [] => return []
  | f :: fs => do
    let first ← fieldInitializer f
    let rest ← fieldInitializers fs
    return first ++ rest

end Lower

namespace Lower

/-- Where a function comes from. -/
def provenance (path : String) (node : Node) : String :=
  "migrated from " ++ path ++ ":" ++ toString node.location.1 ++ ":" ++ toString node.location.2

def provenanceComments (node : Node) : Lower (List String) :=
  return [provenance (← read).unit.path node]

def panicBody (message : String) : List Stmt :=
  [panicWith (.raw ("\"" ++ message ++ "\""))]

/-- A method that may throw and gives no value ends with `return nil`. -/
def closedBody (record : MethodRecord) (body : List Stmt) : List Stmt :=
  if record.throws && record.valueType.isNone && !body.getLast?.any Code.Stmt.isReturn then
    body ++ [.ret [.nil]]
  else body

/-- The body of a method, or a panic where there is none. -/
def methodBody (node : Node) (record : MethodRecord) (r : Receiver) : Lower (List Stmt) := do
  match node.fieldChild? "body" with
  | none => return panicBody "implemented in concrete class"
  | some body =>
    let enclosing := (← read).unit.root.enclosingTypeParameters node
    let statements ← withReceiver r <| withTypeParams (enclosing ++ record.typeParams) do
      withFunctionScope (← node.formalNames) (some ⟨record.valueType, record.throws⟩) (block body)
    return closedBody record statements

def staticMethod (node : Node) (record : MethodRecord) (name : String) (isPublic : Bool) :
    Lower Code.Function := do
  let body ← methodBody node record {}
  return { name := name, params := record.params, result := record.result, body := body,
           isPublic := isPublic, comments := ← provenanceComments node,
           typeParams := record.typeParams }

/-- A method as a Go method; Go methods have no type parameters of their own. -/
def instanceMethod (node : Node) (record : MethodRecord) (name : String) (isPublic : Bool)
    (r : Receiver) (param : Param) : Lower Code.Function := do
  if !record.typeParams.isEmpty then
    throw (.unsupported (.genericMethod record.javaName) node)
  let body ← methodBody node record r
  return { name := name, params := record.params, result := record.result, body := body,
           isPublic := isPublic, comments := ← provenanceComments node, receiver := some param }

/-- A method of an instance, or a function when it is static or there is no receiver.  `exports`
makes its name public, as the methods of Go interfaces have to be. -/
def method (node : Node) (r : Receiver) (param : Option Param) (exports : Bool) :
    Lower Code.Function := do
  let s ← symbols
  let record ← s.requireMethod node
  let isPublic := (s.methodOverload record).isPublic || exports
  let name := Code.withVisibility (s.methodName record) isPublic
  match if record.isStatic then none else param with
  | none => staticMethod node record name isPublic
  | some param => instanceMethod node record name isPublic r param

end Lower

namespace Lower

def newValue (structType : String) : Stmt :=
  .var "this" none (some (.composite structType [] [])) true

def returnSelf : Stmt :=
  .ret [.var "this"]

/-- The beginning of every constructor: the new value and the initial values of its fields. -/
def constructorPreamble (structType : String) (fields : List DeclaredField) :
    Lower (List Stmt) := do
  let initial ← fieldInitializers (DeclaredField.byName (instanceFields fields))
  if initial.isEmpty then return [newValue structType]
  return newValue structType :: .comment ["Default field initializations"] :: initial

/-- Makes the value, sets the fields, runs the body and returns the value. -/
def constructor (node : Node) (structType : String) (r : Receiver) (fields : List DeclaredField)
    (typeParams : List String) : Lower Code.Function := do
  let s ← symbols
  let record ← s.requireConstructor node
  let bodyNode ← node.require "body"
  let body ← withReceiver r <| withTypeParams typeParams do
    withFunctionScope (← node.formalNames) (some { type := some structType }) do
      let preamble ← constructorPreamble structType fields
      let statements ← block bodyNode
      return preamble ++ statements
  return { name := s.constructorName record, params := record.params, result := some structType,
           body := body ++ [returnSelf], isPublic := record.isPublic,
           comments := ← provenanceComments node, typeParams := typeParams }

def defaultConstructor (javaName structType : String) (r : Receiver)
    (fields : List DeclaredField) (isPublic : Bool) (typeParams : List String) :
    Lower Code.Function := do
  let name := (← symbols).constructorNameFor isPublic r.structName javaName []
  let body ← withReceiver r <| withTypeParams typeParams <| withFunctionScope [] none <|
    constructorPreamble structType fields
  return { name := name, result := some structType, body := body ++ [returnSelf],
           isPublic := isPublic, typeParams := typeParams }

def staticInitializer (node : Node) : Lower Code.Function := do
  match node.childOfKind? .block with
  | none => throw (.malformed .initializerWithoutBlock node)
  | some body =>
    let statements ← withReceiver {} <| withFunctionScope [] none <| block body
    return { name := "init", body := statements, comments := ← provenanceComments node }

end Lower

end JavaToGo
