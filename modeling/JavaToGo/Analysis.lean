import JavaToGo.Overloads
import JavaToGo.TypeMapping

/-!
# Analysis

One pass over the whole tree records what the unit declares, so that the
conversion can refer to declarations that come later.  Faults end it in both
modes.
-/

namespace JavaToGo

/-- A Java file with the settings for its conversion. -/
structure CompilationUnit where
  root : Node
  path : String := ""
  settings : Settings := {}
deriving Inhabited

/-- What has been recorded and noted so far. -/
structure Findings where
  symbols : Symbols := {}
  log : List Event := []
deriving Inhabited

/-- What the analysis reads: the unit and the type parameters in view. -/
structure AnalysisContext where
  unit : CompilationUnit
  typeParams : List Scope := []

/-- A computation that reads its unit, may fail, and keeps its findings. -/
abbrev Analysis := ReaderT AnalysisContext (ExceptT Failure (StateM Findings))

namespace Analysis

def types (typeParams : List String) : Analysis TypeContext := do
  let c ← read
  return { settings := c.unit.settings, symbols := (← get).symbols,
           typeParams := typeParams :: c.typeParams }

def outerTypes : Analysis TypeContext := do
  let c ← read
  return { settings := c.unit.settings, symbols := (← get).symbols, typeParams := c.typeParams }

def modifySymbols (f : Symbols → Symbols) : Analysis Unit :=
  modify fun s => { s with symbols := f s.symbols }

/-- Changes the symbols by filing something, and gives its place. -/
def file (f : Symbols → Nat × Symbols) : Analysis Nat :=
  modifyGet fun s =>
    let filed := f s.symbols
    (filed.1, { s with symbols := filed.2 })

def note (e : Event) : Analysis Unit :=
  modify fun s => { s with log := s.log ++ [e] }

def root : Analysis Node :=
  return (← read).unit.root

def layoutMember (layout : Layout) (member : Node) : Outcome Layout :=
  match member.kind with
  | .fieldDeclaration =>
    if member.modifiers.isStatic then return layout
    else do
      let names ← (member.fieldChildren "declarator").mapM (Tree.Node.requireText · "name")
      return { layout with fields := layout.fields ++ names }
  | .methodDeclaration =>
    if member.modifiers.isAbstract then
      return { layout with abstractMethods := layout.abstractMethods ++ [member.id] }
    else if member.modifiers.isStatic then return layout
    else return { layout with defaultMethods := layout.defaultMethods ++ [member.id] }
  | _ => return layout

/-- The shape of an abstract class: its fields and its methods by number. -/
def layoutOf (goName : String) (node : Node) : Outcome Layout :=
  let members := ((node.fieldChild? "body").map Tree.Node.namedChildren).getD []
  members.foldlM layoutMember { name := goName }

/-- Records the shape of an abstract class under its Go name. -/
def recordAbstract (node : Node) : Analysis Unit := do
  if node.kind = .classDeclaration && node.modifiers.isAbstract then
    let goName ← declaredGoName (← outerTypes) node
    modifySymbols (·.addAbstractType goName)
    let layout ← layoutOf goName node
    modifySymbols fun s => { s with layouts := s.layouts.insert goName layout }

def recordConstants (goName : String) : List Node → Analysis Unit
  | [] => return
  | constant :: constants => do
    let name ← constant.requireText "name"
    modifySymbols fun s =>
      { s with enumConstants := s.enumConstants.insertNew name (goName ++ "_" ++ name) }
    recordConstants goName constants

def recordSuperclass (goName : String) (node : Node) : Analysis Unit := do
  match (← get).symbols.layouts.find? goName with
  | none => return
  | some layout =>
    let superclass ← superclassOf (← types ((← root).enclosingTypeParameters node)) node
    modifySymbols fun s =>
      { s with layouts := s.layouts.insert goName { layout with superclass := superclass } }

/-- Records a type in view of those before it. -/
def recordType (node : Node) : Analysis Unit := do
  let javaName ← node.requireText "name"
  let c ← outerTypes
  let goName ← declaredGoName c node
  let isPublic ← typeIsPublic c node
  let declared : DeclaredType := ⟨javaName, goName, isPublic, node.kind⟩
  modifySymbols fun s => { s with declaredTypes := s.declaredTypes.insert javaName declared }
  if node.kind = .enumDeclaration then
    let body ← node.require "body"
    recordConstants goName (body.childrenOfKind .enumConstant)
  recordSuperclass goName node

/-- Whether a method is public: by its word, or because an interface or an abstract class has it. -/
def methodIsPublic (node : Node) : Analysis Bool := do
  if node.modifiers.isPublic then return true
  match (← root).enclosingType? node with
  | none => return false
  | some owner =>
    match owner.kind with
    | .interfaceDeclaration => return true
    | .classDeclaration =>
      if owner.modifiers.isAbstract then return true
      let c ← outerTypes
      return c.symbols.isAbstractType (← superclassOf c owner)
    | _ => return false

def valueTypeOf (c : TypeContext) (node : Node) : Outcome (Option String) :=
  match node.fieldChild? "type" with
  | none => return none
  | some type => return (← tryType c type).map (withDimensions node)

/-- The results of a method in Go: an error stands for a throws clause. -/
def foldThrows (valueType : Option String) (throws : Bool) : Option String :=
  if throws then
    match valueType with
    | none => some "error"
    | some type => some ("(" ++ type ++ ", error)")
  else valueType

/-- Files a method among its overloads and records it. -/
def recordMethod (node : Node) : Analysis Unit := do
  let modifiers := node.modifiers
  let javaName ← node.requireText "name"
  let owner := (← root).enclosingType? node
  let c ← types ((← root).enclosingTypeParameters node ++ node.ownTypeParameters)
  let params ← parameters c (← node.require "parameters")
  let valueType ← valueTypeOf c node
  let throws := (node.childOfKind? .throws).isSome
  let inInterface := owner.any fun o => o.kind == .interfaceDeclaration
  let isPublic ← methodIsPublic node
  let entry ← file (·.addMethod javaName (paramTypes params) isPublic modifiers.isStatic)
  let ownerName ← match owner with
    | none => pure ""
    | some o => o.requireText "name"
  let record : MethodRecord :=
    { javaName := javaName, params := params, result := foldThrows valueType throws,
      isPublic := isPublic, isStatic := modifiers.isStatic,
      isAbstract := modifiers.isAbstract || (inInterface && (node.fieldChild? "body").isNone),
      isDefault := modifiers.isDefault, throws := throws, owner := ownerName,
      typeParams := node.ownTypeParameters, valueType := valueType, entry := entry }
  modifySymbols fun s => { s with methodRecords := s.methodRecords.insert node.id record }

/-- Files a constructor under the Go type that it makes. -/
def recordConstructor (node : Node) : Analysis Unit := do
  match (← root).enclosingType? node with
  | none => throw (.malformed .constructorOutsideType node)
  | some owner =>
    let javaName ← owner.requireText "name"
    let typeName := (← outerTypes).mapName javaName
    let c ← types ((← root).enclosingTypeParameters node)
    let params ← parameters c (← node.require "parameters")
    let isPublic := node.modifiers.isPublic
    let entry ← file (·.addConstructor typeName javaName (paramTypes params) isPublic none)
    modifySymbols fun s =>
      { s with
        constructorRecords :=
          s.constructorRecords.insert node.id ⟨typeName, params, isPublic, entry⟩ }

/-- The constructor that a record has of itself. -/
def recordCanonicalConstructor (node : Node) : Analysis Unit := do
  let javaName ← node.requireText "name"
  let typeName := (← outerTypes).mapName javaName
  let c ← types ((← root).enclosingTypeParameters node ++ node.ownTypeParameters)
  let params ← parameters c (← node.require "parameters")
  let compact := (node.fieldChild? "body").bind (·.childOfKind? .compactConstructorDeclaration)
  let isPublic := compact.any (·.modifiers.isPublic) || node.modifiers.isPublic
  let entry ← file (·.addConstructor typeName javaName (paramTypes params) isPublic
    (some (params.map Code.Param.name)))
  modifySymbols fun s =>
    { s with
      constructorRecords :=
        s.constructorRecords.insert (compact.getD node).id ⟨typeName, params, isPublic, entry⟩ }

/-- Files a refusal under the declaration. -/
def fileRefusal (node : Node) (r : Refusal) : Analysis Unit := do
  let filed : Refusal := { r with node := some (r.node.getD node) }
  modifySymbols fun s => { s with failures := s.failures.insertNew node.id filed }
  note (.analysisFailed node.kind (locationText node.location) r.message)

section Guarding

variable (mode : Mode)

/-- Runs a step about a declaration; in tolerant mode a refusal is filed under it. -/
def guarded (step : Node → Analysis Unit) (node : Node) : Analysis Unit := do
  try step node
  catch
    | .fault f => throw (.fault f)
    | .refusal r =>
      match mode with
      | .strict => throw (.refusal r)
      | .tolerant => fileRefusal node r

/-- Carries a step out for each node. -/
def forEach (step : Node → Analysis Unit) : List Node → Analysis Unit
  | [] => return
  | n :: ns => do
    guarded mode step n
    forEach step ns

/-- Shapes first, then types, methods, constructors, and those of records. -/
def wholeUnit : Analysis Unit := do
  let nodes := (← root).walk
  let types := nodes.filter fun n => n.kind.isTypeDeclaration
  forEach mode recordAbstract types
  forEach mode recordType types
  forEach mode recordMethod (nodes.filter fun n => n.kind == .methodDeclaration)
  forEach mode recordConstructor (nodes.filter fun n => n.kind == .constructorDeclaration)
  forEach mode recordCanonicalConstructor (types.filter fun n => n.kind == .recordDeclaration)
  let s := (← get).symbols
  note (.analyzed s.methodRecords.size s.constructorRecords.size types.length)

end Guarding

end Analysis

/-- In strict mode the first refusal ends the analysis, in tolerant mode it is filed. -/
def analyze (mode : Mode) (unit : CompilationUnit) (typeParams : List Scope)
    (findings : Findings) : Except Failure Unit × Findings :=
  ((Analysis.wholeUnit mode).run { unit := unit, typeParams := typeParams }).run.run findings

end JavaToGo
