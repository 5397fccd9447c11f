import JavaToGo.Failure

/-!
# Modifiers

The modifiers of a declaration.  Annotations among them are passed over.
-/

namespace JavaToGo.Tree

/-- The modifiers of a declaration; annotations among them are passed over. -/
structure Modifiers where
  isPublic : Bool := false
  isPrivate : Bool := false
  isProtected : Bool := false
  isStatic : Bool := false
  isFinal : Bool := false
  isAbstract : Bool := false
  isDefault : Bool := false
deriving DecidableEq, Repr, Inhabited

namespace Modifiers

def withWord (m : Modifiers) : Kind → Modifiers
  | .publicWord => { m with isPublic := true }
  | .privateWord => { m with isPrivate := true }
  | .protectedWord => { m with isProtected := true }
  | .staticWord => { m with isStatic := true }
  | .finalWord => { m with isFinal := true }
  | .abstractWord => { m with isAbstract := true }
  | .defaultWord => { m with isDefault := true }
  | _ => m

/-- Whether a word says who may see the declaration. -/
def hasAccess (m : Modifiers) : Bool :=
  m.isPublic || m.isPrivate || m.isProtected

end Modifiers

def Node.modifiers (n : Node) : Modifiers :=
  match n.childOfKind? .modifiers with
  | none => {}
  | some list => list.children.foldl (fun m c => m.withWord c.kind) {}

end JavaToGo.Tree

namespace JavaToGo.Tree.Node

/-- The name that a type parameter declares; its bounds are dropped. -/
def parameterName? (parameter : Node) : Option String :=
  (parameter.children.find? fun c => c.kind == .typeIdentifier || c.kind == .identifier).map text

def typeParameterNames (parameters : Option Node) : List String :=
  match parameters with
  | none => []
  | some list => (list.childrenOfKind .typeParameter).filterMap parameterName?

def ownTypeParameters (n : Node) : List String :=
  typeParameterNames (n.fieldChild? "type_parameters")

/-- The type declaration that a node stands in. -/
def enclosingType? (root n : Node) : Option Node :=
  (root.ancestors n.id).find? fun a => a.kind.isTypeDeclaration

/-- The type parameters of the declarations around a node, innermost first. -/
def enclosingTypeParameters (root n : Node) : List String :=
  ((root.ancestors n.id).filter fun a => a.kind.isTypeDeclaration).flatMap ownTypeParameters

/-- The Java name of one parameter; a receiver parameter has none. -/
def formalName? (parameter : Node) : Outcome (Option String) :=
  match parameter.kind with
  | .formalParameter => return some (← parameter.requireText "name")
  | .spreadParameter =>
    match parameter.childOfKind? .variableDeclarator with
    | none => return none
    | some declarator => return some (← declarator.requireText "name")
  | _ => return none

/-- The Java names of the parameters of a method or a constructor. -/
def formalNames (n : Node) : Outcome (List String) :=
  match n.fieldChild? "parameters" with
  | none => return []
  | some parameters => return (← parameters.namedChildren.mapM formalName?).filterMap (fun x => x)

/-- What a member is called in a report. -/
def memberLabel (n : Node) : Outcome String :=
  match n.fieldChild? "name" with
  | some name => return name.text
  | none =>
    match n.fieldChildren "declarator" with
    | [] => return n.kind.name
    | declarators => return ", ".intercalate (← declarators.mapM (requireText · "name"))

def membersOfChild (child : Node) : List Node :=
  if child.kind.isComment then []
  else if child.kind = .enumBodyDeclarations then child.operands
  else [child]

/-- The members of a type; those of an enumeration stand behind its constants. -/
def bodyMembers (n : Node) : List Node :=
  match n.fieldChild? "body" with
  | none => []
  | some body => body.namedChildren.flatMap membersOfChild

def enumConstants (n : Node) : Outcome (List Node) :=
  return (← n.require "body").childrenOfKind .enumConstant

/-- A declaration whose fields are not those of the type around it. -/
def hidesFields (kind : Kind) : Bool :=
  kind.isTypeDeclaration || kind == .methodDeclaration || kind == .constructorDeclaration
    || kind == .staticInitializer

mutual
def showsInstanceField : Node → Bool
  | .mk head children =>
    if hidesFields head.kind then false
    else if head.kind = .fieldDeclaration && !(Node.mk head children).modifiers.isStatic then true
    else anyShowsInstanceField children

def anyShowsInstanceField : List Node → Bool
  | [] => false
  | n :: ns => (n.named && showsInstanceField n) || anyShowsInstanceField ns
end

/-- Whether an enumeration has constants without state. -/
def isSimpleEnum (n : Node) : Outcome Bool :=
  return !anyShowsInstanceField (← n.require "body").children

mutual
/-- Whether a return leaves the body that the node stands in. -/
def isOrHoldsReturn : Node → Bool
  | .mk head children =>
    if head.kind = .returnStatement then true
    else if head.kind = .lambda || head.kind = .classBody then false
    else anyHoldsReturn children

def anyHoldsReturn : List Node → Bool
  | [] => false
  | n :: ns => isOrHoldsReturn n || anyHoldsReturn ns
end

def containsReturn (n : Node) : Bool :=
  anyHoldsReturn n.children

/-- Whether a name occurs in the node. -/
def mentions (n : Node) (name : String) : Bool :=
  n.walk.any fun c => c.kind == .identifier && c.text == name

/-- What is known of an update after some of its children. -/
structure UpdateScan where
  operand : Option Node := none
  operator : Option String := none
  isPrefix : Bool := false

def UpdateScan.read (s : UpdateScan) (child : Node) : UpdateScan :=
  if child.kind = .increment || child.kind = .decrement then
    { s with operator := some child.kind.name, isPrefix := s.operand.isNone }
  else if child.named && !child.kind.isComment then { s with operand := some child }
  else s

/-- The operand, the operator, and whether the operator stands in front. -/
def updateParts (n : Node) : Outcome (Node × String × Bool) :=
  let scan := n.children.foldl UpdateScan.read {}
  match scan.operand, scan.operator with
  | some operand, some operator => return (operand, operator, scan.isPrefix)
  | _, _ => throw (.malformed .malformedUpdate n)

def declarationWord : Kind → String
  | .classDeclaration => "class"
  | .interfaceDeclaration => "interface"
  | .enumDeclaration => "enum"
  | .recordDeclaration => "record"
  | .annotationTypeDeclaration => "@interface"
  | kind => kind.name

/-- Where a failure in a type declaration is reported. -/
def declarationLocation (n : Node) : String :=
  match n.fieldChild? "name" with
  | some name => declarationWord n.kind ++ " " ++ name.text
  | none => declarationWord n.kind

end JavaToGo.Tree.Node
