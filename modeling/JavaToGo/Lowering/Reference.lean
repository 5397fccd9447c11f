import JavaToGo.Lowering.Context

/-!
# References

How names refer to locals, to fields of the instance and to anything else.
-/

namespace JavaToGo.Lower

/-- The instance; `node` is where it is referred to. -/
def selfExpr (node : Option Node) : Lower Expr := do
  let r ← receiver
  if r.hasSelf then return .var r.selfText
  throw (.refusal ⟨.structural .selfInStaticContext, node⟩)

/-- Reads a field through its accessor. -/
def getter (field : String) : Lower Expr :=
  return .call (.field (← selfExpr none) ("Get" ++ Code.exported field)) [] false

/-- A field of the instance; an abstract class sees it through accessors. -/
def selfField (field : String) : Lower Expr := do
  let r ← receiver
  if r.kind = .abstractDefault && r.fields.contains field then getter field
  else return .field (← selfExpr none) ((r.fields.find? field).getD field)

/-- What a name alone refers to: a local, a field, a constant, or anything else. -/
def resolveName (name : String) : Lower Expr := do
  if ← isLocal name then return .var (Code.avoidReserved name)
  let r ← receiver
  if r.hasSelf && r.fields.contains name then selfField name
  else
    match (← symbols).enumConstants.find? name with
    | some goName => return .var goName
    | none => return .var (Code.avoidReserved name)

def assignedField (node : Node) : Lower (Option String) := do
  match node.kind with
  | .identifier => if ← isLocal node.text then return none else return some node.text
  | .fieldAccess =>
    match node.fieldChild? "object" with
    | none => return none
    | some target =>
      if target.kind = .self then return some (← node.requireText "field") else return none
  | _ => return none

/-- The setter to call where the field has one. -/
def fieldSetter? (node : Node) : Lower (Option Expr) := do
  let r ← receiver
  if r.kind = .abstractDefault then
    match ← assignedField node with
    | none => return none
    | some name =>
      if r.fields.contains name then
        return some (.field (← selfExpr none) ("Set" ++ Code.exported name))
      else return none
  else return none

def declaredKind? (name : String) : Lower (Option Kind) := do
  if ← isLocal name then return none
  return ((← symbols).declaredTypes.find? name).map DeclaredType.kind

end JavaToGo.Lower
