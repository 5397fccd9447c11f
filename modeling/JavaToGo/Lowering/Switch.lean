import JavaToGo.Lowering.Block

/-!
# Switches

A Go clause ends by itself, a group of Java statements goes on into the next one
unless its last statement jumps.
-/

namespace JavaToGo.Lower

/-- Labels that wait for statements. -/
structure Labels where
  values : List Expr := []
  isDefault : Bool := false
deriving Repr, Inhabited

/-- Whether a statement leaves its group. -/
def isJump : Kind → Bool
  | .breakStatement | .returnStatement | .throwStatement | .continueStatement
  | .yieldStatement => true
  | _ => false

/-- Whether a statement is a `break` without a label. -/
def isPlainBreak (node : Node) : Bool :=
  node.kind = .breakStatement && (node.childOfKind? .identifier).isNone

def labelValue (node : Node) : Lower Expr := do
  let value ← expression node
  if value.before.isEmpty then return value.value
  throw (.unsupported .effectInLabel node)

/-- Adds a label; one without values is `default`. -/
def addLabel (labels : Labels) (label : Node) : Lower Labels := do
  match label.operands with
  | [] => return { labels with isDefault := true }
  | operands =>
    let values ← operands.mapM labelValue
    return { labels with values := labels.values ++ values }

/-- A clause with `default` among its labels drops the others. -/
def Labels.clause (labels : Labels) (body : List Stmt) (fallsThrough : Bool) : SwitchClause :=
  .mk (if labels.isDefault then [] else labels.values) body fallsThrough labels.isDefault

def clauseNodes (group : Node) : List Node :=
  group.operands.filter fun n => n.kind != .switchLabel

section Rules

variable (go : Node → Lower (List Stmt))

/-- The body of a rule; where the switch is returned, an expression is the value. -/
def ruleBody (body : Node) : Lower (List Stmt) := do
  if body.kind = .block then blockWith go body
  else if body.kind = .expressionStatement && (← read).inReturn then
    returnValue (← firstItem body.operands)
  else go body

/-- The clause of a rule `case … -> …`. -/
def ruleClause (labels : Labels) (group : Node) : Lower SwitchClause := do
  match clauseNodes group with
  | [body] => return labels.clause (← ruleBody go body) false
  | _ => throw (.malformed .ruleWithoutBody group)

/-- Drops a `break` at the end; a group that does not jump falls through, but for the last. -/
def groupClause (labels : Labels) (isLast : Bool) (statements : List Node) :
    Lower SwitchClause := do
  let body ← withScope [] (lowerEach go statements)
  let last := statements.getLast?
  let kept := if last.any isPlainBreak then body.dropLast else body
  return labels.clause kept (!(last.any fun n => isJump n.kind) && !isLast)

/-- A group without statements hands its labels on. -/
def switchClauses (waiting : Labels) : List Node → Lower (List SwitchClause)
  | [] => return []
  | group :: groups => do
    let labels ← (group.childrenOfKind .switchLabel).foldlM addLabel waiting
    match group.kind with
    | .switchRule =>
      let clause ← ruleClause go labels group
      return clause :: (← switchClauses {} groups)
    | .switchBlockStatementGroup =>
      let statements := clauseNodes group
      if statements.isEmpty && !groups.isEmpty then switchClauses labels groups
      else
        let clause ← groupClause go labels groups.isEmpty statements
        return clause :: (← switchClauses {} groups)
    | _ => throw (.unhandledChild group "switch_block")

def switchWith (node : Node) : Lower (List Stmt) := do
  let value ← condition node
  let groups := (← node.require "body").operands
  let clauses ← switchClauses go {} groups
  return value.before ++ [.switch (some value.value) clauses]

end Rules

end JavaToGo.Lower
