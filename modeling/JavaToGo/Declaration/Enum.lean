import JavaToGo.Declaration.Basic

/-!
# Enumerations
-/

namespace JavaToGo

/-- What is known about an enumeration before its members are converted. -/
structure EnumShape where
  name : String
  isPublic : Bool
  isSimple : Bool

namespace EnumShape

def ofNode (s : Symbols) (node : Node) : Outcome EnumShape := do
  let declared ← s.requireType (← node.requireText "name")
  let isSimple ← node.isSimpleEnum
  return { name := declared.goName, isPublic := declared.isPublic, isSimple := isSimple }

section

variable (s : EnumShape)

def owner : String :=
  "enum " ++ s.name

def constantName (constant : Node) : Outcome String :=
  return s.name ++ "_" ++ (← constant.requireText "name")

/-- Without state a named integer type, with state a struct. -/
def typeDecl : Code.Decl :=
  if s.isSimple then .named { name := s.name, type := "uint", isPublic := s.isPublic }
  else .struct { name := s.name, isPublic := s.isPublic }

def receiver (fields : List DeclaredField) : Receiver where
  kind := .method
  fields := (instanceFields fields).foldl (fun t f => t.insert f.javaName f.name) ⟨[]⟩
  structName := s.name

def receiverParam : Param :=
  ⟨"this", "*" ++ s.name⟩

end

end EnumShape

namespace Build

def rejectConstantBody (shape : EnumShape) (constant : Node) : Build Unit := do
  let name ← shape.constantName constant
  stop (.unsupported (.constantBody name) constant)

section Simple

/-- The constants count up. -/
def countingBlock (typeName : String) : List String → Code.ConstBlock
  | [] => ⟨[]⟩
  | first :: rest =>
    ⟨{ name := first, type := some typeName, value := some (.raw "iota") }
      :: rest.map fun name => { name := name }⟩

/-- The method that gives the name of a constant; pairs hold the Go and the Java name. -/
def nameMethod (shape : EnumShape) (constants : List (String × String)) : Code.Function :=
  { name := "Name", result := some "string",
    body :=
      [.switch (some (.unary "*" (.var "this")))
        (constants.map fun c =>
          .mk [.var c.1] [.ret [.raw ("\"" ++ c.2 ++ "\"")]] false false),
       .ret [.raw "\"\""]],
    isPublic := true, receiver := some shape.receiverParam }

def reportArguments (shape : EnumShape) (constant : Node) : Build Unit :=
  if (constant.fieldChild? "arguments").isSome then do
    note (.argumentsDropped (← shape.constantName constant))
  else return

def reportBody (shape : EnumShape) (constant : Node) : Build Unit :=
  if (constant.fieldChild? "body").isSome then do
    let location ← memberLocation shape.owner constant
    let _ ← member location constant (rejectConstantBody shape constant)
  else return

def reportConstants (shape : EnumShape) : List Node → Build Unit
  | [] => return
  | constant :: constants => do
    reportArguments shape constant
    reportBody shape constant
    reportConstants shape constants

/-- A method `Name` gives the name of a constant. -/
def simpleConstants (shape : EnumShape) (constants : List Node) : Build Unit := do
  if constants.isEmpty then return
  let goNames ← (constants.mapM shape.constantName : Outcome (List String))
  let javaNames ← (constants.mapM (Tree.Node.requireText · "name") : Outcome (List String))
  addConstBlock (countingBlock shape.name goNames)
  reportConstants shape constants
  addFunction (nameMethod shape (goNames.zip javaNames))

end Simple

section Stateful

def constantValue (f : DeclaredField) (argument : Node) : Lower Expr := do
  let value ← Lower.expecting (some f.goType) (Lower.expression argument)
  if value.before.isEmpty then return value.value
  throw (.unsupported .effectInConstant argument)

def constantValues (arguments : List (DeclaredField × Node)) : Lower (List Expr) :=
  Lower.withReceiver {} (arguments.mapM fun a => constantValue a.1 a.2)

/-- The arguments are the values of the fields, in order; when their numbers differ, the constant is
left empty. -/
def statefulConstant (shape : EnumShape) (fields : List DeclaredField) (constant : Node) :
    Build Unit := do
  if (constant.fieldChild? "body").isSome then rejectConstantBody shape constant
  let arguments := ((constant.fieldChild? "arguments").map Tree.Node.operands).getD []
  let own := instanceFields fields
  if arguments.isEmpty || arguments.length != own.length then
    let name ← shape.constantName constant
    if !arguments.isEmpty then note (.argumentsMismatched name arguments.length own.length)
    addVars [{ name := name, value := some (.composite shape.name [] []) }]
  else
    let values ← lower (constantValues (own.zip arguments))
    let name ← shape.constantName constant
    addVars [{ name := name,
               value := some (.composite shape.name values (own.map DeclaredField.name)) }]

end Stateful

def addConstants (shape : EnumShape) (fields : List DeclaredField) (constants : List Node) :
    Build Unit :=
  if shape.isSimple then simpleConstants shape constants
  else do
    let _ ← eachMember shape.owner (statefulConstant shape fields) constants

section Members

variable (go : Node → Build Unit)

def enumMember (shape : EnumShape) (fields : List DeclaredField) (node : Node) : Build Unit :=
  match node.kind with
  | .methodDeclaration => do
    addFunction (← lower (Lower.method node (shape.receiver fields) (some shape.receiverParam)
      false))
  | .constructorDeclaration =>
    note (.enumConstructorSkipped shape.name (locationText node.location))
  | .staticInitializer => do addFunction (← lower (Lower.staticInitializer node))
  | .emptyStatement => return
  | kind =>
    if kind.isTypeDeclaration then go node else stop (.unhandledChild node "enum_body")

/-- An enumeration with its constants and members. -/
def enumeration (node : Node) : Build Unit := do
  let shape ← EnumShape.ofNode (← context).symbols node
  let members := node.bodyMembers.filter fun m => m.kind != .enumConstant
  let place ← addType shape.typeDecl
  let fields ← eachMember shape.owner (structFields (some place)) (members.filter isFieldMember)
  let constants ← node.enumConstants
  addConstants shape fields.flatten constants
  let _ ← eachMember shape.owner (enumMember go shape fields.flatten)
    (members.filter fun m => !isFieldMember m)
  addInterfaceChecks node ("new(" ++ shape.name ++ ")")

end Members

end Build

end JavaToGo
