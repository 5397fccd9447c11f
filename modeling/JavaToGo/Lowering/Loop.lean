import JavaToGo.Lowering.Block

/-!
# Loops

Go has one loop.  A condition that needs statements cannot stand in its header,
so it is tested inside: in front of the body of a `while`, behind that of a
`do`.  A `for` has no place for them at all and is refused.
-/

namespace JavaToGo.Lower

section Rules

variable (go : Node → Lower (List Stmt))

section

variable (node : Node)

/-- `while (c) …`. -/
def whileLoop : Lower (List Stmt) := do
  let test ← condition node
  let body ← bodyWith go (← node.require "body")
  if test.before.isEmpty then return [.loop none (some test.value) none body]
  return [.loop none none none (test.before ++ [breakUnless test.value] ++ body)]

/-- `do … while (c)`. -/
def doLoop : Lower (List Stmt) := do
  let body ← bodyWith go (← node.require "body")
  let test ← condition node
  return [.loop none none none (body ++ test.before ++ [breakUnless test.value])]

/-- An assignment or an update in the header of a `for`. -/
def headerStep : Lower (List Stmt) := do
  match node.kind with
  | .assignment => assignmentStmts expression node
  | .update => updateStmts expression node
  | _ =>
    let value ← expression node
    return value.before ++ [.call value.value]

def headerInit : Lower (List Stmt) :=
  if node.kind = .localVariableDeclaration then localVariables true node else headerStep node

/-- The condition of a `for`, which has no place for statements. -/
def headerCondition : Lower (Option Expr) := do
  match node.fieldChild? "condition" with
  | none => return none
  | some test =>
    let value ← expression test
    if value.before.isEmpty then return some value.value
    throw (.unsupported .effectInLoopCondition test)

/-- The parts of a `for`: what it starts with, its condition, its updates and its body. -/
def forParts : Lower (List Stmt × Option Expr × List Stmt × List Stmt) := do
  let init ← lowerEach headerInit (node.fieldChildren "init")
  let test ← headerCondition node
  let post ← lowerEach headerStep (node.fieldChildren "update")
  if post.length > 1 then throw (.unsupported .severalLoopUpdates node)
  let body ← bodyWith go (← node.require "body")
  return (init, test, post, body)

/-- `for (…; …; …) …`; several statements at the start go in front of the loop. -/
def forLoop : Lower (List Stmt) := do
  let (init, test, post, body) ← withScope [] (forParts go node)
  match init with
  | [] => return [.loop none test post.head? body]
  | [first] => return [.loop (some first) test post.head? body]
  | _ => return [.block (init ++ [.loop none test post.head? body])]

/-- `for (T x : values) …`. -/
def rangeLoop : Lower (List Stmt) := do
  let name ← node.requireText "name"
  let values ← expression (← node.require "value")
  let body ← withScope [name] do bodyWith go (← node.require "body")
  return values.before ++ [.range "_" (Code.avoidReserved name) values.value body]

end

end Rules

end JavaToGo.Lower
