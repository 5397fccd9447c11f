import JavaToGo.Text.Quoted
import JavaToGo.Tree.Node

/-!
# Why a conversion stops

Causes are data.  `Cause.message` and `Fault.message` are the only places that put
them into words.
-/

namespace JavaToGo

/-- Why a type has no mapping. -/
inductive MappingCause where
  | genericWithoutBase
  | scopedWithoutName
  | annotatedWithoutType
  | notAType (kind : Kind) (text : String)
deriving DecidableEq, Repr

/-- Which container has too many type arguments. -/
inductive ArityCause where
  | list (base : String)
  | map (base : String)
deriving DecidableEq, Repr

/-- What a node must have and has not. -/
inductive StructuralCause where
  | missingField (kind : Kind) (field : String)
  | spreadParameter
  | unexpectedParameter (kind : Kind)
  | superclassWithoutType
  | constructorOutsideType
  | selfInStaticContext
  | malformedUpdate
  | parenthesizedOperand
  | expressionStatement
  | untypedLocal (name : String)
  | assertWithoutCondition
  | labeledStatement
  | yieldWithoutValue
  | throwWithoutValue
  | ruleWithoutBody
  | catchWithoutParameter
  | catchWithoutType
  | finallyWithoutBlock
  | superWithoutSuperclass
  | initializerWithoutBlock
deriving DecidableEq, Repr

/-- Which construct has no counterpart where it stands. -/
inductive UnhandledCause where
  | child (parent : String) (kind : Kind)
  | anonymousClass (type : String)
  | methodReference (text : String)
  | postfixAsValue
  | recordPattern
  | effectInChoice
  | switchAsValue
  | lambda (text : String)
  | classLiteral (text : String)
  | effectInLoopCondition
  | severalLoopUpdates
  | yieldOutsideReturn
  | effectInLabel
  | genericMethod (name : String)
  | effectInStaticField
  | constantBody (name : String)
  | effectInConstant
deriving DecidableEq, Repr

inductive CauseKind where
  | general | mapping | arity | structural | unhandled
deriving DecidableEq, Repr

/-- Why an input is refused. -/
inductive Cause where
  | mapping (cause : MappingCause)
  | arity (cause : ArityCause)
  | structural (cause : StructuralCause)
  | unhandled (cause : UnhandledCause)
  | stated (kind : CauseKind) (message : String)
deriving DecidableEq, Repr

/-- What a diagnostic files a failure under. -/
inductive Category where
  | mapping | structural | unhandled | internal
deriving DecidableEq, Repr

def Category.word : Category → String
  | .mapping => "mapping"
  | .structural => "structural"
  | .unhandled => "unhandled"
  | .internal => "internal"

def CauseKind.category : CauseKind → Category
  | .general => .internal
  | .mapping => .mapping
  | .arity => .mapping
  | .structural => .structural
  | .unhandled => .unhandled

def Cause.kind : Cause → CauseKind
  | .mapping _ => .mapping
  | .arity _ => .arity
  | .structural _ => .structural
  | .unhandled _ => .unhandled
  | .stated kind _ => kind

def Cause.category (c : Cause) : Category :=
  c.kind.category

def MappingCause.message : MappingCause → String
  | .genericWithoutBase => "generic type without a base type name"
  | .scopedWithoutName => "scoped type without a type name"
  | .annotatedWithoutType => "annotated type without a type"
  | .notAType kind text => "unable to map type node " ++ kind.name ++ ": " ++ text

def ArityCause.message : ArityCause → String
  | .list base => base ++ " can have only one type parameter"
  | .map base => base ++ " can have at most two type parameters"

def StructuralCause.message : StructuralCause → String
  | .missingField kind field => kind.name ++ " has no " ++ field ++ " field"
  | .spreadParameter => "spread parameter without type or name"
  | .unexpectedParameter kind => "unexpected parameter node " ++ kind.name
  | .superclassWithoutType => "superclass without a type"
  | .constructorOutsideType => "constructor outside of a type declaration"
  | .selfInStaticContext => "reference to this in a static context"
  | .malformedUpdate => "malformed update expression"
  | .parenthesizedOperand => "parenthesized expression without a single operand"
  | .expressionStatement => "expression statement without a single expression"
  | .untypedLocal name => "local variable " ++ name ++ " has neither type nor initializer"
  | .assertWithoutCondition => "assert without a condition"
  | .labeledStatement => "labeled statement without a label and a statement"
  | .yieldWithoutValue => "yield without a value"
  | .throwWithoutValue => "throw without a value"
  | .ruleWithoutBody => "switch rule without a body"
  | .catchWithoutParameter => "catch clause without a parameter"
  | .catchWithoutType => "catch clause without a type"
  | .finallyWithoutBlock => "finally clause without a block"
  | .superWithoutSuperclass => "super constructor call without a superclass"
  | .initializerWithoutBlock => "static initializer without a block"

def UnhandledCause.message : UnhandledCause → String
  | .child parent kind => "unhandled " ++ parent ++ " child node kind: " ++ kind.name
  | .anonymousClass type => "anonymous class creation of " ++ type
  | .methodReference text => "method reference " ++ text
  | .postfixAsValue => "postfix update used as a value"
  | .recordPattern => "instanceof with a record pattern"
  | .effectInChoice => "conditional expression branch needs statements"
  | .switchAsValue => "switch expression used as a value outside of a return"
  | .lambda text => "lambda expression " ++ text
  | .classLiteral text => "class literal " ++ text
  | .effectInLoopCondition => "for loop condition needs statements"
  | .severalLoopUpdates => "for loop with more than one update statement"
  | .yieldOutsideReturn => "yield outside of a returned switch expression"
  | .effectInLabel => "switch label needs statements"
  | .genericMethod name => "generic instance method " ++ name
  | .effectInStaticField => "static field initializer needs statements"
  | .constantBody name => "enum constant with a body: " ++ name
  | .effectInConstant => "enum constant argument needs statements"

def Cause.message : Cause → String
  | .mapping cause => cause.message
  | .arity cause => cause.message
  | .structural cause => cause.message
  | .unhandled cause => cause.message
  | .stated _ message => message

/-- A judgement about the input: its cause and the node it is about. -/
structure Refusal where
  cause : Cause
  node : Option Node
deriving Repr

def Refusal.message (r : Refusal) : String :=
  r.cause.message

def locationText (location : Nat × Nat) : String :=
  "(" ++ toString location.1 ++ ", " ++ toString location.2 ++ ")"

inductive FaultKind where
  | unrecorded | key | index | value | unwritten | depth
deriving DecidableEq, Repr

/-- A look-up that found nothing. -/
inductive Fault where
  | unrecordedMethod (kind : Kind) (location : Nat × Nat)
  | unrecordedConstructor (kind : Kind) (location : Nat × Nat)
  | missingKey (key : String)
  | emptyList
  | emptyText
  /-- Text was asked of a place still to be filled. -/
  | unwritten
  /-- The nesting exceeds the depth that was computed for the tree. -/
  | tooDeep
  | stated (kind : FaultKind) (message : String)
deriving DecidableEq, Repr

def Fault.kind : Fault → FaultKind
  | .unrecordedMethod .. => .unrecorded
  | .unrecordedConstructor .. => .unrecorded
  | .missingKey _ => .key
  | .emptyList => .index
  | .emptyText => .index
  | .unwritten => .unwritten
  | .tooDeep => .depth
  | .stated kind _ => kind

def Fault.detail : Fault → String
  | .unrecordedMethod kind location =>
    "no signature recorded for " ++ kind.name ++ " at " ++ locationText location
  | .unrecordedConstructor kind location =>
    "no constructor recorded for " ++ kind.name ++ " at " ++ locationText location
  | .missingKey key => key
  | .emptyList => "list index out of range"
  | .emptyText => "string index out of range"
  | .unwritten => ""
  | .tooDeep => "nesting too deep"
  | .stated _ message => message

def FaultKind.word : FaultKind → String
  | .unrecorded => "SignatureCacheMiss"
  | .key => "KeyError"
  | .index => "IndexError"
  | .value => "ValueError"
  | .unwritten => "NotImplementedError"
  | .depth => "RecursionError"

/-- The fault in words; a missing key is quoted. -/
def Fault.message (f : Fault) : String :=
  match f.kind with
  | .key => Text.quoted f.detail
  | _ => f.detail

def Fault.display (f : Fault) : String :=
  match f with
  | .unwritten => f.kind.word ++ "()"
  | _ => f.kind.word ++ "(" ++ Text.quoted f.detail ++ ")"

/-- A judgement about the input, or a fault. -/
inductive Failure where
  | refusal (refusal : Refusal)
  | fault (fault : Fault)
deriving Repr

namespace Failure

/-- What is said about a failure. -/
def report : Failure → String
  | .refusal r => r.message
  | .fault f => "unexpected error: " ++ f.display

def category : Failure → Category
  | .refusal r => r.cause.category
  | .fault _ => .internal

/-- The node that a failure is reported at. -/
def nodeOr (member : Node) : Failure → Node
  | .refusal r => r.node.getD member
  | .fault _ => member

def unmapped (cause : MappingCause) (node : Node) : Failure :=
  .refusal ⟨.mapping cause, some node⟩

/-- A container has too many type arguments. -/
def overfull (cause : ArityCause) (node : Node) : Failure :=
  .refusal ⟨.arity cause, some node⟩

def malformed (cause : StructuralCause) (node : Node) : Failure :=
  .refusal ⟨.structural cause, some node⟩

/-- A construct has no counterpart where it stands. -/
def unsupported (cause : UnhandledCause) (node : Node) : Failure :=
  .refusal ⟨.unhandled cause, some node⟩

def unhandledChild (node : Node) (parent : String) : Failure :=
  unsupported (.child parent node.kind) node

end Failure

/-- What a conversion without state returns. -/
abbrev Outcome := Except Failure

/-- The child of a field, which must be there. -/
def Tree.Node.require (node : Node) (field : String) : Outcome Node :=
  match node.fieldChild? field with
  | some child => .ok child
  | none => .error (.malformed (.missingField node.kind field) node)

/-- The text of a field, which must be there. -/
def Tree.Node.requireText (node : Node) (field : String) : Outcome String :=
  return (← node.require field).text

def firstItem {α : Type} : List α → Outcome α
  | [] => .error (.fault .emptyList)
  | a :: _ => .ok a

end JavaToGo
