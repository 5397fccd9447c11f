import JavaToGo.Lowering.Exception
import JavaToGo.Lowering.Loop
import JavaToGo.Lowering.Switch

/-!
# Lowering statements

What an expression needs to run before it goes right in front of the statement
that uses it.
-/

namespace JavaToGo.Lower

section Simple

/-- Whether a value is a list with an element added to it. -/
def isAppend : Expr → Bool
  | .callNamed "append" _ variadic => !variadic
  | _ => false

/-- An expression for the sake of its effect.  A list that grew is stored where it came from, and
a value that is not a call is assigned to nothing. -/
def effectOf (node : Node) : Lower (List Stmt) := do
  let value ← expression node
  match if isAppend value.value then node.fieldChild? "object" else none with
  | some target => return value.before ++ (← assignTo expression target value.value)
  | none =>
    if value.value.isCall then return value.before ++ [.call value.value]
    return value.before ++ [.assign (.var "_") value.value]

/-- `assert c` or `assert c : message`. -/
def assertStatement (node : Node) : Lower (List Stmt) := do
  match node.operands with
  | [] => throw (.malformed .assertWithoutCondition node)
  | test :: more =>
    let value ← expression test
    let message : Lowered ← match more with
      | [] => pure { value := .raw "\"assertion failed\"" }
      | message :: _ => expression message
    return value.before ++ message.before
      ++ [.cond (negation value.value) [panicWith message.value] none]

/-- `break` or `continue`, perhaps with a label. -/
def jumpStatement (keyword : String) (node : Node) : Stmt :=
  match node.childOfKind? .identifier with
  | none => .raw keyword
  | some label => .raw (keyword ++ " " ++ label.text)

/-- The type whose constructor a constructor calls: its own type or its superclass. -/
def chainedType (node target : Node) : Lower String := do
  let r ← receiver
  match target.kind with
  | .self => return r.structName
  | .super =>
    match r.superclass with
    | none => throw (.malformed .superWithoutSuperclass node)
    | some superclass => return superclass
  | _ => throw (.unhandledChild target "explicit_constructor_invocation")

def chainCall (node target : Node) (typeName : String) (args : LoweredList) :
    Lower (List Stmt) := do
  let s ← symbols
  let javaName := s.javaNameOf typeName
  let resolution := s.resolveConstructor typeName javaName args.values.length
  noteAll (resolution.constructorEvents javaName)
  let warning := if resolution.isAmbiguous then [constructorAmbiguity javaName] else []
  let self ← selfExpr (some node)
  let place := if target.kind = .self then self else .field self typeName
  return args.before ++ warning ++ [.assign place (.callNamed resolution.name args.values false)]

/-- A call of another constructor at the beginning of one. -/
def constructorChain (node : Node) : Lower (List Stmt) := do
  let target ← node.require "constructor"
  let args ← lowerAll expression (← node.require "arguments").operands
  let typeName ← chainedType node target
  let s ← symbols
  if target.kind = .super && s.isAbstractType (some typeName) then
    return args.before ++ [.comment ["FIXME: call to abstract super constructor: " ++ node.text]]
  chainCall node target typeName args

end Simple

section Rules

variable (go : Node → Lower (List Stmt))

section

variable (node : Node)

def expressionStatement : Lower (List Stmt) := do
  match node.operands with
  | [inner] =>
    match inner.kind with
    | .assignment => assignmentStmts expression inner
    | .update => updateStmts expression inner
    | .switchExpression => switchWith go inner
    | _ => effectOf inner
  | _ => throw (.malformed .expressionStatement node)

/-- A statement behind a label; the label goes to the last of the statements it becomes. -/
def labeledStatement : Lower (List Stmt) := do
  match node.childOfKind? .identifier with
  | none => throw (.malformed .labeledStatement node)
  | some label =>
    match node.operands.filter fun n => n.id != label.id with
    | [inner] =>
      let statements ← go inner
      match statements.getLast? with
      | none => return []
      | some last => return statements.dropLast ++ [.labeled label.text last]
    | _ => throw (.malformed .labeledStatement node)

/-- `if (c) … else …`. -/
def ifStatement : Lower (List Stmt) := do
  let test ← condition node
  let body ← bodyWith go (← node.require "consequence")
  let elseBody ← match node.fieldChild? "alternative" with
    | none => pure none
    | some alternative => some <$> bodyWith go alternative
  return test.before ++ [.cond test.value body elseBody]

/-- `return` or `return e`. -/
def returnStatement : Lower (List Stmt) := do
  match node.operands with
  | [] => return [← returnOf none]
  | value :: _ =>
    if value.kind = .switchExpression then returning (switchWith go value)
    else returning (returnValue value)

/-- `yield e`, which returns where the switch is returned. -/
def yieldStatement : Lower (List Stmt) := do
  if !(← read).inReturn then throw (.unsupported .yieldOutsideReturn node)
  match node.operands with
  | [value] => returnValue value
  | _ => throw (.malformed .yieldWithoutValue node)

/-- The rule for the kind of the node. -/
def statementStep : Lower (List Stmt) :=
  match node.kind with
  | .block => return [.block (← blockWith go node)]
  | .emptyStatement => return []
  | .expressionStatement => expressionStatement go node
  | .localVariableDeclaration => localVariables false node
  | .ifStatement => ifStatement go node
  | .whileStatement => whileLoop go node
  | .doStatement => doLoop go node
  | .forStatement => forLoop go node
  | .enhancedForStatement => rangeLoop go node
  | .returnStatement => returnStatement go node
  | .yieldStatement => yieldStatement node
  | .throwStatement => throwStatement node
  | .switchExpression => switchWith go node
  | .tryStatement | .tryWithResourcesStatement => tryWith go node
  | .assertStatement => assertStatement node
  | .breakStatement => return [jumpStatement "break" node]
  | .continueStatement => return [jumpStatement "continue" node]
  | .labeledStatement => labeledStatement go node
  | .explicitConstructorInvocation => constructorChain node
  | _ => throw (.unhandledChild node "statement")

end

end Rules

def statementWithin : Nat → Node → Lower (List Stmt)
  | 0, _ => throw (.fault .tooDeep)
  | height + 1, node => statementStep (statementWithin height) node

/-- A Java statement as Go statements. -/
def statement (node : Node) : Lower (List Stmt) :=
  statementWithin node.height node

def block (node : Node) : Lower (List Stmt) :=
  blockWith statement node

end JavaToGo.Lower
