import JavaToGo.Declaration.Basic

/-!
# Records
-/

namespace JavaToGo

/-- What is known about a record before its members are converted. -/
structure RecordShape where
  node : Node
  name : String
  isPublic : Bool
  typeParams : List String
  components : List Param
  componentNames : List String

namespace RecordShape

def ofNode (c : TypeContext) (node : Node) : Outcome RecordShape := do
  let declared ← c.symbols.requireType (← node.requireText "name")
  let typeParams := node.ownTypeParameters
  let list ← node.require "parameters"
  let components ← parameters (c.withTypeParams typeParams) list
  let formals := list.namedChildren.filter fun p => p.kind == .formalParameter
  let componentNames ← formals.mapM fun p => p.requireText "name"
  return { node := node, name := declared.goName, isPublic := declared.isPublic,
           typeParams := typeParams, components := components, componentNames := componentNames }

section

variable (s : RecordShape)

def structType : String :=
  parameterized s.name s.typeParams

def owner : String :=
  "record " ++ s.name

def receiver : Receiver where
  kind := .record
  fields := s.componentNames.foldl (fun t n => t.insert n (Code.exported n)) ⟨[]⟩
  structName := s.name
  components := s.componentNames

def parts : List (String × Param) :=
  s.componentNames.zip s.components

/-- A public field for each component. -/
def fields : List Code.Field :=
  s.parts.map fun p => ⟨Code.exported p.1, p.2.type, true⟩

def storeComponents : List Stmt :=
  s.parts.map fun p => .assign (.field (.var "this") (Code.exported p.1)) (.var p.2.name)

/-- Whether a constructor takes the types of the components. -/
def isCanonical (symbols : Symbols) (node : Node) : Bool :=
  node.kind == .constructorDeclaration
    && (symbols.constructorRecords.find? node.id).any fun record =>
      paramTypes record.params == paramTypes s.components

end

end RecordShape

namespace Build

/-- A compact constructor runs before the components are stored. -/
def compactBody (shape : RecordShape) (compact : Option Node) :
    Build (List Stmt × List String) := do
  match compact with
  | none => return ([], [])
  | some node =>
    let comments ← lower (Lower.provenanceComments node)
    let body ← lower <| Lower.withReceiver shape.receiver <|
      Lower.withTypeParams shape.typeParams <|
      Lower.withFunctionScope shape.componentNames (some { type := some shape.structType }) do
        Lower.block (← node.require "body")
    return (body, comments)

/-- A constructor that takes all components. -/
def canonicalConstructor (shape : RecordShape) (compact : Option Node) : Build Unit := do
  let s := (← context).symbols
  let record ← s.requireConstructor (compact.getD shape.node)
  let (body, comments) ← compactBody shape compact
  addFunction
    { name := s.constructorName record, params := record.params,
      result := some shape.structType,
      body := Lower.newValue shape.structType :: body ++ shape.storeComponents
        ++ [Lower.returnSelf],
      isPublic := record.isPublic, comments := comments, typeParams := shape.typeParams }

def isCompact (m : Node) : Bool :=
  m.kind == .compactConstructorDeclaration

/-- Where the record declares it itself, none is added. -/
def ensureCanonical (shape : RecordShape) (members : List Node) : Build Unit := do
  if members.any (shape.isCanonical (← context).symbols) then return
  else
    let compact := (members.filter isCompact).getLast?
    let _ ← member (shape.owner ++ ".<canonical constructor>") (compact.getD shape.node)
      (canonicalConstructor shape compact)

section Members

variable (go : Node → Build Unit)

def recordMember (shape : RecordShape) (node : Node) : Build Unit :=
  match node.kind with
  | .methodDeclaration => do
    addFunction (← lower (Lower.withTypeParams shape.typeParams
      (Lower.method node shape.receiver (some ⟨"this", "*" ++ shape.structType⟩) false)))
  | .constructorDeclaration => do
    addFunction (← lower (Lower.constructor node shape.structType shape.receiver []
      shape.typeParams))
  | .fieldDeclaration => do addFieldVariables (← lower (Lower.declaredFields node))
  | .staticInitializer => do addFunction (← lower (Lower.staticInitializer node))
  | .emptyStatement => return
  | kind =>
    if kind.isTypeDeclaration then go node else stop (.unhandledChild node "record_body")

def record (node : Node) : Build Unit := do
  let c ← context
  let shape ← RecordShape.ofNode c.toTypeContext node
  let _ ← addType (.struct
    { name := shape.name, fields := shape.fields, isPublic := shape.isPublic,
      typeParams := shape.typeParams })
  let members := node.bodyMembers
  ensureCanonical shape members
  let _ ← eachMember shape.owner (recordMember go shape) (members.filter fun m => !isCompact m)
  checkStruct node shape.name shape.typeParams

end Members

end Build

end JavaToGo
