import JavaToGo.Declaration.Basic

/-!
# Abstract classes

Go has no inheritance, so an abstract class `Foo` becomes four types: `FooData`,
the interface of the accessors of its fields; `Foo`, the interface of everything
that a subclass has; `FooBase`, the struct of the fields; `FooMethods`, the struct
of the default methods, which reach the whole instance through its field `Self`.
-/

namespace JavaToGo

/-- What is known about an abstract class before its members are converted. -/
structure AbstractShape where
  node : Node
  name : String
  layout : Layout
  typeParams : List String

namespace AbstractShape

def ofNode (s : Symbols) (node : Node) : Outcome AbstractShape := do
  let declared ← s.requireType (← node.requireText "name")
  let layout ← s.requireLayout declared.goName
  return { node := node, name := declared.goName, layout := layout,
           typeParams := node.ownTypeParameters }

section

variable (s : AbstractShape)

/-- One of the types of the class, with its type parameters. -/
def part (ending : String) : String :=
  parameterized (s.name ++ ending) s.typeParams

def owner : String :=
  "abstract class " ++ s.name

def receiver : Receiver where
  kind := .abstractDefault
  selfText := "m.Self"
  fields := s.layout.fields.foldl (fun t f => t.insert f (Code.exported f)) ⟨[]⟩
  exportsMethods := true
  structName := s.name
  superclass := s.layout.superclass

def abstractSuperclass (symbols : Symbols) : Option String :=
  s.layout.superclass.filter symbols.layouts.contains

def baseEmbeds (symbols : Symbols) : List String :=
  match s.abstractSuperclass symbols with
  | some superclass => [superclass ++ "Base"]
  | none => s.layout.superclass.toList

def methodsEmbeds (symbols : Symbols) : List String :=
  ((s.abstractSuperclass symbols).map (· ++ "Methods")).toList

end

end AbstractShape

/-- Where the types of the class stand. -/
structure AbstractPlaces where
  data : Place
  interface : Place
  base : Place

namespace Build

section Parts

/-- Puts the types of the class down. -/
def addAbstractTypes (shape : AbstractShape) (interfaces : List String) :
    Build AbstractPlaces := do
  let s := (← context).symbols
  let data ← addInterface
    { name := shape.name ++ "Data", isPublic := true, typeParams := shape.typeParams }
  let interface ← addInterface
    { name := shape.name,
      embeds := shape.part "Data" :: (shape.abstractSuperclass s).toList ++ interfaces,
      isPublic := true, typeParams := shape.typeParams }
  let base ← addType (.struct
    { name := shape.name ++ "Base", embeds := shape.baseEmbeds s, isPublic := true,
      typeParams := shape.typeParams })
  let _ ← addType (.struct
    { name := shape.name ++ "Methods", fields := [⟨"Self", shape.part "", true⟩],
      embeds := shape.methodsEmbeds s, isPublic := true, typeParams := shape.typeParams })
  return ⟨data, interface, base⟩

def noteInitializer (shape : AbstractShape) (f : DeclaredField) : Build Unit :=
  if f.value.isSome then note (.initializerDropped shape.name f.javaName) else return

/-- Adds a field with its getter and its setter. -/
def addAccessors (shape : AbstractShape) (places : AbstractPlaces) (f : DeclaredField) :
    Build Unit := do
  noteInitializer shape f
  let fieldName := Code.exported f.javaName
  let param : Param := ⟨f.name, f.goType⟩
  let receiver : Param := ⟨"b", "*" ++ shape.part "Base"⟩
  let field : Expr := .field (.var "b") fieldName
  addSpec places.data { name := "Get" ++ fieldName, result := some f.goType }
  addSpec places.data { name := "Set" ++ fieldName, params := [param] }
  addFields places.base [⟨fieldName, f.goType, true⟩]
  addFunction { name := "Get" ++ fieldName, result := some f.goType, body := [.ret [field]],
                isPublic := true, receiver := some receiver }
  addFunction { name := "Set" ++ fieldName, params := [param],
                body := [.assign field (.var param.name)],
                isPublic := true, receiver := some receiver }

def addAbstractFields (shape : AbstractShape) (places : AbstractPlaces) :
    List DeclaredField → Build Unit
  | [] => return
  | f :: fs => do
    if f.isStatic then addVars [← lower (Lower.fieldVariable f)]
    else addAccessors shape places f
    addAbstractFields shape places fs

section

variable (shape : AbstractShape)

def abstractField (places : AbstractPlaces) (node : Node) :
    Build Unit := do
  addAbstractFields shape places (← lower (Lower.declaredFields node))

def addDefaultBody (node : Node) : Build Unit :=
  if node.modifiers.isAbstract then return
  else do
    let param : Param := ⟨"m", "*" ++ shape.part "Methods"⟩
    addFunction (← lower (Lower.method node shape.receiver (some param) true))

/-- Lists a method in the interface of the class. -/
def listMethod (places : AbstractPlaces) (record : MethodRecord)
    (node : Node) : Build Unit := do
  let name := (← context).symbols.methodName record
  addSpec places.interface
    { name := Code.exported name, params := record.params, result := record.result }
  addDefaultBody shape node

/-- Lists a method, then adds its body. -/
def abstractMethod (places : AbstractPlaces) (node : Node) :
    Build Unit := do
  let record ← (← context).symbols.requireMethod node
  if record.isStatic then
    addFunction (← lower (Lower.withTypeParams shape.typeParams (Lower.method node {} none false)))
  else listMethod shape places record node

end

end Parts

section Members

variable (go : Node → Build Unit)

def abstractMember (shape : AbstractShape) (places : AbstractPlaces) (node : Node) : Build Unit :=
  match node.kind with
  | .methodDeclaration => abstractMethod shape places node
  | .constructorDeclaration =>
    note (.abstractConstructorSkipped shape.name (locationText node.location))
  | .staticInitializer => do addFunction (← lower (Lower.staticInitializer node))
  | .emptyStatement => return
  | kind =>
    if kind.isTypeDeclaration then go node else stop (.unhandledChild node "class_body")

/-- An abstract class with all its members. -/
def abstractClass (node : Node) : Build Unit := do
  let c ← context
  let shape ← AbstractShape.ofNode c.symbols node
  let interfaces ← implementedInterfaces (c.toTypeContext.withTypeParams shape.typeParams) node
  let places ← addAbstractTypes shape interfaces
  let members := node.bodyMembers
  let _ ← eachMember shape.owner (abstractField shape places) (members.filter isFieldMember)
  let _ ← eachMember shape.owner (abstractMember go shape places)
    (members.filter fun m => !isFieldMember m)

end Members

end Build

end JavaToGo
