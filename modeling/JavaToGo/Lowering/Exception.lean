import JavaToGo.Lowering.Block

/-!
# Exceptions
-/

namespace JavaToGo.Lower

section Throw

/-- The exceptions of the Java library that become a panic with their message. -/
def libraryExceptions : List String :=
  ["IllegalArgumentException", "IllegalStateException", "RuntimeException",
    "UnsupportedOperationException", "NullPointerException", "IndexOutOfBoundsException",
    "ArithmeticException", "Exception"]

def panicMessage (exception : String) : List Expr → Lower Expr
  | [] => return .raw ("\"" ++ exception ++ "\"")
  | [message] => return message
  | arguments => do
    requireImport "fmt"
    return .callNamed "fmt.Sprint" arguments false

/-- Any other creation that is thrown is left as it stands, for the reader to mend. -/
def throwNew (node creation : Node) : Lower (List Stmt) := do
  let exception ← creation.requireText "type"
  if exception ∈ libraryExceptions then
    let args ← lowerAll expression (← creation.require "arguments").operands
    return args.before ++ [panicWith (← panicMessage exception args.values)]
  else
    noteAll [.throwPassedThrough exception (locationText node.location)]
    return [.raw node.text]

/-- `throw e`. -/
def throwStatement (node : Node) : Lower (List Stmt) := do
  match node.operands with
  | [thrown] =>
    if thrown.kind = .objectCreation then throwNew node thrown
    else
      let value ← expression thrown
      return value.before ++ [panicWith value.value]
  | _ => throw (.malformed .throwWithoutValue node)

end Throw

section Try

variable (go : Node → Lower (List Stmt))

/-- A handler for one type; the name of the caught value is kept where it is used. -/
def catchFor (name : String) (binding : Option String) (body type : Node) :
    Lower CatchClause := do
  let statements ← withScope [name] (blockWith go body)
  return .mk (← typeOf (← types) type) statements binding

/-- A handler for several types becomes one for each. -/
def catchClauses (node : Node) : Lower (List CatchClause) := do
  let body ← node.require "body"
  match node.childOfKind? .catchFormalParameter with
  | none => throw (.malformed .catchWithoutParameter node)
  | some parameter =>
    let name ← parameter.requireText "name"
    match parameter.childOfKind? .catchType with
    | none => throw (.malformed .catchWithoutType parameter)
    | some type =>
      let binding := if body.mentions name then some (Code.avoidReserved name) else none
      type.operands.mapM (catchFor go name binding body)

/-- What comes before the body of a try: the resources, and what is closed behind it. -/
structure Resources where
  declarations : List Stmt := []
  closers : List Expr := []
deriving Repr, Inhabited

/-- Adds a resource: a new variable, or a value that is there already. -/
def addResource (found : Resources) (node : Node) : Lower Resources := do
  match node.fieldChild? "name" with
  | none =>
    let value ← expression (← firstItem node.operands)
    return ⟨found.declarations ++ value.before, found.closers ++ [value.value]⟩
  | some name =>
    let value ← expression (← node.require "value")
    declareLocal name.text
    let variableName := Code.avoidReserved name.text
    return ⟨found.declarations ++ value.before ++ [.var variableName none (some value.value) true],
      found.closers ++ [.var variableName]⟩

def resources (node : Node) : Lower Resources := do
  match node.fieldChild? "resources" with
  | none => return {}
  | some list => (list.childrenOfKind .resource).foldlM addResource {}

/-- The handlers and the final block found so far. -/
structure Handlers where
  catches : List CatchClause := []
  finallyBody : Option (List Stmt) := none
deriving Inhabited

def addHandler (found : Handlers) (node : Node) : Lower Handlers := do
  match node.kind with
  | .catchClause => return { found with catches := found.catches ++ (← catchClauses go node) }
  | .finallyClause =>
    match node.childOfKind? .block with
    | none => throw (.malformed .finallyWithoutBlock node)
    | some block => return { found with finallyBody := some (← blockWith go block) }
  | _ => return found

/-- A try statement, with or without resources. -/
def tryWith (node : Node) : Lower (List Stmt) := do
  let bodyNode ← node.require "body"
  let warning : List Stmt :=
    if bodyNode.containsReturn then
      [.comment ["FIXME: return inside try only leaves the closure"]]
    else []
  let (opened, body) ← withScope [] do
    let opened ← resources node
    let body ← blockWith go bodyNode
    return (opened, body)
  let handlers ← node.children.foldlM (addHandler go) {}
  return warning ++
    [.tryCatch body handlers.catches handlers.finallyBody opened.declarations opened.closers]

end Try

end JavaToGo.Lower
