import JavaToGo.Draft.Build

/-!
# What type declarations share
-/

namespace JavaToGo

def parameterized (name : String) (typeParams : List String) : String :=
  if typeParams.isEmpty then name else name ++ "[" ++ ", ".intercalate typeParams ++ "]"

/-- A variable that makes Go check an interface. -/
def interfaceCheck (interface value : String) : Code.ModuleVar :=
  { name := "_", type := some interface, value := some (.raw value) }

def emptyValue (structName : String) : String :=
  "&" ++ structName ++ "\x7b\x7d"

def isFieldMember (node : Node) : Bool :=
  node.kind == .fieldDeclaration

namespace Build

/-- Computed outside the boundary: a member without a name fails the declaration around it. -/
def memberLocation (owner : String) (node : Node) : Outcome String :=
  return owner ++ "." ++ (← node.memberLabel)

/-- Converts members one after the other, each inside a boundary. -/
def eachMember {α : Type} (owner : String) (convert : Node → Build α) :
    List Node → Build (List α)
  | [] => return []
  | node :: nodes => do
    let location ← memberLocation owner node
    let converted ← member location node (convert node)
    let rest ← eachMember owner convert nodes
    return converted.toOption.toList ++ rest

def addStaticFields : List DeclaredField → Build Unit
  | [] => return
  | f :: fs => do
    if f.isStatic then addVars [← lower (Lower.fieldVariable f)]
    addStaticFields fs

def addFieldVariables : List DeclaredField → Build Unit
  | [] => return
  | f :: fs => do
    addVars [← lower (Lower.fieldVariable f)]
    addFieldVariables fs

/-- Converts a field declaration: static fields become variables, the others fields of the struct
at the given place. -/
def structFields (place : Option Place) (node : Node) : Build (List DeclaredField) := do
  let fields ← lower (Lower.declaredFields node)
  addStaticFields fields
  match place with
  | none => return fields
  | some place =>
    addFields place ((instanceFields fields).map DeclaredField.structField)
    return fields

def implemented (node : Node) : Build (List String) := do
  implementedInterfaces (← context).toTypeContext node

/-- Adds the variables that make Go check that a value has the methods of every interface that a
declaration implements. -/
def addInterfaceChecks (node : Node) (value : String) : Build Unit := do
  let interfaces ← implemented node
  addVars (interfaces.map fun i => interfaceCheck i value)

def checkStruct (node : Node) (structName : String) (typeParams : List String) : Build Unit :=
  if typeParams.isEmpty then addInterfaceChecks node (emptyValue structName) else return

end Build

end JavaToGo
