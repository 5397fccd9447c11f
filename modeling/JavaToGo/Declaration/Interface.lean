import JavaToGo.Declaration.Basic

/-!
# Interfaces
-/

namespace JavaToGo

/-- What is known about an interface before its members are converted. -/
structure InterfaceShape where
  name : String
  typeParams : List String

namespace InterfaceShape

def ofNode (s : Symbols) (node : Node) : Outcome InterfaceShape := do
  let declared ← s.requireType (← node.requireText "name")
  return { name := declared.goName, typeParams := node.ownTypeParameters }

def owner (s : InterfaceShape) : String :=
  "interface " ++ s.name

def receiver (s : InterfaceShape) : Receiver where
  kind := .interfaceDefault
  exportsMethods := true
  structName := s.name

def selfParam (s : InterfaceShape) : Param :=
  ⟨"this", parameterized s.name s.typeParams⟩

end InterfaceShape

namespace Build

section Methods

/-- A default method becomes a function that takes the instance first. -/
def addDefaultMethod (shape : InterfaceShape) (name : String) (record : MethodRecord)
    (node : Node) : Build Unit := do
  let body ← lower (Lower.withTypeParams shape.typeParams
    (Lower.methodBody node record shape.receiver))
  addFunction
    { name := shape.name ++ name, params := shape.selfParam :: record.params,
      result := record.result, body := body, isPublic := true,
      comments := ← lower (Lower.provenanceComments node), typeParams := shape.typeParams }

/-- A method without a body is listed in the Go interface. -/
def interfaceMethod (shape : InterfaceShape) (place : Place) (node : Node) : Build Unit := do
  let s := (← context).symbols
  let record ← s.requireMethod node
  let name := Code.exported (s.methodName record)
  if record.isStatic then
    addFunction (← lower (Lower.withTypeParams shape.typeParams (Lower.method node {} none false)))
  else if (node.fieldChild? "body").isNone then
    addSpec place { name := name, params := record.params, result := record.result }
  else addDefaultMethod shape name record node

end Methods

section Members

variable (go : Node → Build Unit)

/-- Converts a member of an interface; its fields are constants. -/
def interfaceMember (shape : InterfaceShape) (place : Place) (node : Node) : Build Unit :=
  match node.kind with
  | .methodDeclaration => interfaceMethod shape place node
  | .constantDeclaration | .fieldDeclaration => do
    addFieldVariables (← lower (Lower.declaredFields node))
  | .emptyStatement => return
  | kind =>
    if kind.isTypeDeclaration then go node else stop (.unhandledChild node "interface_body")

def interface (node : Node) : Build Unit := do
  let c ← context
  let shape ← InterfaceShape.ofNode c.symbols node
  let embeds ← extendedInterfaces (c.toTypeContext.withTypeParams shape.typeParams) node
  let place ← addInterface
    { name := shape.name, embeds := embeds, isPublic := true, typeParams := shape.typeParams }
  let _ ← eachMember shape.owner (interfaceMember go shape place) node.bodyMembers

end Members

end Build

end JavaToGo
