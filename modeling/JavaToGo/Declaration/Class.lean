import JavaToGo.Declaration.Basic

/-!
# Classes
-/

namespace JavaToGo

/-- The shapes of the abstract classes above a class, nearest first; none comes twice.  `bound`
limits their number. -/
def ancestryWithin (layouts : Table String Layout) :
    Nat → List String → Option String → List Layout
  | 0, _, _ => []
  | _, _, none => []
  | bound + 1, seen, some name =>
    if name ∈ seen then []
    else
      match layouts.find? name with
      | none => []
      | some layout => layout :: ancestryWithin layouts bound (name :: seen) layout.superclass

/-- The shapes of the abstract classes above a class, nearest first. -/
def Symbols.ancestry (s : Symbols) (superclass : Option String) : List Layout :=
  ancestryWithin s.layouts s.layouts.size [] superclass

/-- What is known about a class before its members are converted. -/
structure ClassShape where
  node : Node
  javaName : String
  name : String
  isPublic : Bool
  typeParams : List String
  superclass : Option String
  /-- The shapes of the abstract classes above it, nearest first. -/
  ancestry : List Layout

namespace ClassShape

def ofNode (c : TypeContext) (node : Node) : Outcome ClassShape := do
  let javaName ← node.requireText "name"
  let declared ← c.symbols.requireType javaName
  let typeParams := node.ownTypeParameters
  let superclass ← superclassOf (c.withTypeParams typeParams) node
  return { node := node, javaName := javaName, name := declared.goName,
           isPublic := declared.isPublic, typeParams := typeParams, superclass := superclass,
           ancestry := c.symbols.ancestry superclass }

section

variable (s : ClassShape)

def extendsAbstract : Bool :=
  !s.ancestry.isEmpty

def structType : String :=
  parameterized s.name s.typeParams

def owner : String :=
  "class " ++ s.name

/-- A plain superclass is embedded, of an abstract one the fields and the default methods. -/
def embeds : List String :=
  match s.ancestry with
  | base :: _ => [base.name ++ "Base", base.name ++ "Methods"]
  | [] => s.superclass.toList

/-- The Go names of the fields in view; own fields hide inherited ones. -/
def fieldNames (fields : List DeclaredField) : Table String String :=
  let inherited : Table String String :=
    (s.ancestry.reverse.flatMap Layout.fields).foldl (fun t f => t.insert f (Code.exported f)) ⟨[]⟩
  (instanceFields fields).foldl (fun t f => t.insert f.javaName f.name) inherited

/-- The name of the receiver of methods: the first letter of the class below an abstract one. -/
def selfName : Outcome String :=
  if s.extendsAbstract then
    match (Code.unexported s.name).toList with
    | [] => .error (.fault .emptyText)
    | c :: _ => .ok c.toString
  else .ok "this"

def receiver (selfText : String) (fields : List DeclaredField) : Receiver where
  kind := .method
  selfText := selfText
  fields := s.fieldNames fields
  exportsMethods := s.extendsAbstract
  structName := s.name
  superclass := s.superclass

def receiverParam (selfText : String) : Param :=
  { name := selfText, type := "*" ++ s.structType }

end

end ClassShape

namespace Build

section Inherited

/-- What tells methods apart: the Java name and the types of the parameters. -/
abbrev MethodKey := String × List String

/-- Methods with one key share their Go name. -/
def methodKey (record : MethodRecord) : MethodKey :=
  (record.javaName, paramTypes record.params)

def methodNumbered (number : Nat) : Build (MethodRecord × String) := do
  let c ← context
  match c.unit.root.find? number with
  | none => stop (.fault .emptyList)
  | some node =>
    let record ← c.symbols.requireMethod node
    return (record, c.symbols.methodName record)

/-- A wrapper lets an inherited default method call back. -/
def delegation (shape : ClassShape) (self holder name : String) (record : MethodRecord) :
    Code.Function :=
  let target : Expr := .field (.var self) holder
  let variadic := record.params.getLast?.any fun p => Code.isVariadicType p.type
  let call : Expr := .call (.field target name) (record.params.map fun p => .var p.name) variadic
  let hasResult := (Code.presentText record.result).isSome
  { name := name, params := record.params, result := record.result,
    body := [.assign (.field target "Self") (.var self),
      if hasResult then .ret [call] else .call call],
    isPublic := true, receiver := some (shape.receiverParam self) }

/-- A method that nobody wrote gets a body that panics. -/
def missingMethod (shape : ClassShape) (self name : String) (record : MethodRecord) :
    Code.Function :=
  { name := name, params := record.params, result := record.result,
    body := Lower.panicBody (record.javaName ++ " is not implemented"),
    isPublic := true, receiver := some (shape.receiverParam self) }

/-- Adds the inherited methods whose keys have not come yet. -/
def addInherited (make : String → MethodRecord → Code.Function) (declared : List MethodKey) :
    List Nat → Build (List MethodKey)
  | [] => return declared
  | number :: numbers => do
    let (record, name) ← methodNumbered number
    if methodKey record ∈ declared then addInherited make declared numbers
    else
      addFunction (make (Code.exported name) record)
      addInherited make (declared ++ [methodKey record]) numbers

def addAncestry (shape : ClassShape) (self : String) (declared : List MethodKey) :
    List Layout → Build Unit
  | [] => return
  | layout :: layouts => do
    let holder := layout.name ++ "Methods"
    let declared ← addInherited (delegation shape self holder) declared layout.defaultMethods
    let declared ← addInherited (missingMethod shape self) declared layout.abstractMethods
    addAncestry shape self declared layouts

def declaredMethods (node : Node) : Build (List MethodKey) := do
  let methods := node.bodyMembers.filter fun m => m.kind == .methodDeclaration
  let s := (← context).symbols
  let records ← (methods.mapM s.requireMethod : Outcome (List MethodRecord))
  return records.map methodKey

/-- Adds what the interface of an abstract class still asks for. -/
def completeAbstract (shape : ClassShape) : Build Unit := do
  let self ← shape.selfName
  addAncestry shape self (← declaredMethods shape.node) shape.ancestry
  if shape.typeParams.isEmpty then
    let nearest := shape.ancestry.take 1
    addVars (nearest.map fun base => interfaceCheck base.name (emptyValue shape.name))

end Inherited

section Members

variable (go : Node → Build Unit)

section

variable (shape : ClassShape)

def classMethod (fields : List DeclaredField) (node : Node) : Build Unit := do
  let self ← shape.selfName
  addFunction (← lower (Lower.withTypeParams shape.typeParams
    (Lower.method node (shape.receiver self fields) (some (shape.receiverParam self))
      shape.extendsAbstract)))

def classConstructor (fields : List DeclaredField) (node : Node) :
    Build Unit := do
  let _ ← shape.selfName
  addFunction (← lower (Lower.constructor node shape.structType (shape.receiver "this" fields)
    fields shape.typeParams))

def classDefaultConstructor (fields : List DeclaredField) : Build Unit := do
  let _ ← shape.selfName
  addFunction (← lower (Lower.defaultConstructor shape.javaName shape.structType
    (shape.receiver "this" fields) fields shape.node.modifiers.isPublic shape.typeParams))

def classMember (fields : List DeclaredField) (node : Node) : Build Unit :=
  match node.kind with
  | .methodDeclaration => classMethod shape fields node
  | .constructorDeclaration => classConstructor shape fields node
  | .staticInitializer => do addFunction (← lower (Lower.staticInitializer node))
  | .emptyStatement => return
  | kind =>
    if kind.isTypeDeclaration then go node else stop (.unhandledChild node "class_body")

/-- A class without a constructor gets one. -/
def ensureConstructor (fields : List DeclaredField) (members : List Node) :
    Build Unit :=
  if members.any fun m => m.kind == .constructorDeclaration then return
  else do
    let _ ← member (shape.owner ++ ".<default constructor>") shape.node
      (classDefaultConstructor shape fields)

def ensureAbstractBase : Build Unit :=
  if shape.extendsAbstract then do
    let _ ← member (shape.owner ++ ".<abstract base>") shape.node (completeAbstract shape)
  else return

end

/-- A struct, a function for each constructor and a method for each method. -/
def concreteClass (node : Node) : Build Unit := do
  let shape ← ClassShape.ofNode (← context).toTypeContext node
  let place ← addType (.struct
    { name := shape.name, embeds := shape.embeds, isPublic := shape.isPublic,
      typeParams := shape.typeParams })
  let members := node.bodyMembers
  let fields ← eachMember shape.owner (structFields (some place)) (members.filter isFieldMember)
  let others := members.filter fun m => !isFieldMember m
  let _ ← eachMember shape.owner (classMember go shape fields.flatten) others
  ensureConstructor shape fields.flatten others
  ensureAbstractBase shape
  checkStruct node shape.name shape.typeParams

end Members

end Build

end JavaToGo
