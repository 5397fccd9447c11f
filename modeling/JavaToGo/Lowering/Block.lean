import JavaToGo.Lowering.Expression

/-!
# Blocks and returned values
-/

namespace JavaToGo.Lower

section Blocks

variable (go : Node → Lower (List Stmt))

/-- Lowers statements one after the other. -/
def lowerEach : List Node → Lower (List Stmt)
  | [] => return []
  | n :: ns => do
    let first ← go n
    let rest ← lowerEach ns
    return first ++ rest

/-- A block has a scope of its own. -/
def blockWith (node : Node) : Lower (List Stmt) :=
  withScope [] (lowerEach go node.operands)

/-- The body of a compound statement: a block or a single statement. -/
def bodyWith (node : Node) : Lower (List Stmt) :=
  if node.kind = .block then blockWith go node else withScope [] (go node)

end Blocks

section Conditions

def condition (node : Node) : Lower Lowered := do
  expression (← node.require "condition")

def negation (value : Expr) : Expr :=
  .unary "!" value

/-- Leaves the loop unless the condition holds. -/
def breakUnless (value : Expr) : Stmt :=
  .cond (negation value) [.raw "break"] none

def panicWith (message : Expr) : Stmt :=
  .call (.callNamed "panic" [message] false)

end Conditions

section Returns

/-- A function that may throw returns an error behind its value, here `nil`. -/
def returnOf (value : Option Expr) : Lower Stmt := do
  let throws := (← read).returnShape.any ReturnShape.throws
  return .ret (value.toList ++ if throws then [.nil] else [])

def returnType : Lower (Option String) :=
  return (← read).returnShape.bind ReturnShape.type

/-- Returns the value of an expression. -/
def returnValue (node : Node) : Lower (List Stmt) := do
  let value ← expecting (← returnType) (expression node)
  return value.before ++ [← returnOf (some value.value)]

end Returns

/-- The type of a declaration; `var` stands for the type of the value. -/
def localType (node : Node) : Lower (Option String) := do
  let type ← node.require "type"
  if type.kind = .typeIdentifier && type.text = "var" then return none
  return some (← typeOf (← types) type)

/-- The initial value of a variable; one without a type has to have it. -/
def initialValue (type : Option String) (name : String) (declarator : Node) :
    Lower (Option Lowered) :=
  match declarator.fieldChild? "value" with
  | some value => some <$> expecting type (expression value)
  | none => if type.isNone then throw (.malformed (.untypedLocal name) declarator) else return none

/-- The name is declared behind its value; without a type it takes that of the value. -/
def localVariable (declared : Option String) (short : Bool) (declarator : Node) :
    Lower (List Stmt) := do
  let name ← declarator.requireText "name"
  let type := declared.map (withDimensions declarator)
  let value ← initialValue type name declarator
  declareLocal name
  let before := value.elim [] Lowered.before
  return before ++
    [.var (Code.avoidReserved name) type (value.map Lowered.value) (short || type.isNone)]

/-- The variables of a declaration; `short` asks for `:=`. -/
def localVariables (short : Bool) (node : Node) : Lower (List Stmt) := do
  let declared ← localType node
  lowerEach (localVariable declared short) (node.fieldChildren "declarator")

end JavaToGo.Lower
