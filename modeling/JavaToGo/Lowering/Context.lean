import JavaToGo.Analysis
import JavaToGo.Code.SourceFile

/-!
# Where code is lowered

The context is fixed for a piece of Java: lowering a part of it under other
conditions hands a changed context down and leaves the outer one as it was.
-/

namespace JavaToGo

/-- How a body refers to the instance that it belongs to. -/
inductive ReceiverKind where
  | method
  | static
  | interfaceDefault
  | abstractDefault
  | record
deriving DecidableEq, Repr, Inhabited

/-- The instance that a body belongs to. -/
structure Receiver where
  kind : ReceiverKind := .static
  selfText : String := "this"
  fields : Table String String := ⟨[]⟩
  exportsMethods : Bool := false
  structName : String := ""
  superclass : Option String := none
  components : List String := []
deriving Repr, Inhabited

def Receiver.hasSelf (r : Receiver) : Bool :=
  r.kind != .static

/-- The type that a function returns, and whether it may throw. -/
structure ReturnShape where
  type : Option String
  throws : Bool := false
deriving DecidableEq, Repr, Inhabited

/-- What lowering knows about the place it works at. -/
structure Context extends TypeContext where
  unit : CompilationUnit := default
  receiver : Receiver := {}
  returnShape : Option ReturnShape := none
  inReturn : Bool := false
  expected : Option String := none
deriving Inhabited

def Context.ofUnit (unit : CompilationUnit) (symbols : Symbols) : Context where
  settings := unit.settings
  symbols := symbols
  unit := unit

/-- What lowering leaves behind, also when it fails. -/
structure Trail where
  scopes : List Scope := []
  imports : List Code.Import := []
  log : List Event := []
deriving Repr, Inhabited

def Scope.declare (scope : Scope) (name : String) : Scope :=
  if scope.contains name then scope else scope ++ [name]

def Scope.ofNames (names : List String) : Scope :=
  names.foldl Scope.declare []

/-- Adds a name to the innermost of the scopes; without one it opens one. -/
def declareIn (name : String) : List Scope → List Scope
  | [] => [[name]]
  | scope :: scopes => Scope.declare scope name :: scopes

/-- A computation that reads its context, may fail, and leaves a trail. -/
abbrev Lower := ReaderT Context (ExceptT Failure (StateM Trail))

namespace Lower

/-- The outcome of a computation at a place, and the trail it leaves. -/
def runAt {α : Type} (x : Lower α) (c : Context) (t : Trail) : Except Failure α × Trail :=
  (ReaderT.run x c).run.run t

def isLocal (name : String) : Lower Bool :=
  return inScopes (← get).scopes name

/-- Declares a name in the innermost scope. -/
def declareLocal (name : String) : Lower Unit :=
  modify fun t => { t with scopes := declareIn name t.scopes }

/-- Asks for an import. -/
def requireImport (path : String) : Lower Unit :=
  modify fun t => { t with imports := Code.addImport t.imports { path := path } }

def noteAll (events : List Event) : Lower Unit :=
  modify fun t => { t with log := t.log ++ events }

def types : Lower TypeContext :=
  return (← read).toTypeContext

def symbols : Lower Symbols :=
  return (← read).symbols

def receiver : Lower Receiver :=
  return (← read).receiver

/-- Runs a computation in other scopes.  When it ends, with a result or with a failure, `leave`
makes the scopes from those before and those at the end. -/
def withScopes {α : Type} (enter : List Scope → List Scope)
    (leave : List Scope → List Scope → List Scope) (x : Lower α) : Lower α :=
  fun c t =>
    let outcome := x c { t with scopes := enter t.scopes }
    (outcome.1, { outcome.2 with scopes := leave t.scopes outcome.2.scopes })

/-- Runs a computation in a scope of its own: pushes it, and pops the innermost one at the end. -/
def withScope {α : Type} (names : List String) (x : Lower α) : Lower α :=
  withScopes (Scope.ofNames names :: ·) (fun _ after => after.tail) x

/-- Runs the body of a function: with its parameters in view only, and its results to return.  The
scopes around it are put back at the end. -/
def withFunctionScope {α : Type} (params : List String) (shape : Option ReturnShape)
    (x : Lower α) : Lower α :=
  withReader (fun c => { c with returnShape := shape, inReturn := false })
    (withScopes (fun _ => [Scope.ofNames params]) (fun before _ => before) x)

/-- Runs a computation on behalf of an instance. -/
def withReceiver {α : Type} (receiver : Receiver) (x : Lower α) : Lower α :=
  withReader (fun c => { c with receiver := receiver }) x

/-- Lowers what is returned. -/
def returning {α : Type} (x : Lower α) : Lower α :=
  withReader (fun c => { c with inReturn := true }) x

/-- Lowers where a value of a type is expected. -/
def expecting {α : Type} (type : Option String) (x : Lower α) : Lower α :=
  withReader (fun c => { c with expected := type }) x

/-- Lowers with further type parameters in view. -/
def withTypeParams {α : Type} (names : List String) (x : Lower α) : Lower α :=
  withReader (fun c => { c with typeParams := names :: c.typeParams }) x

end Lower

end JavaToGo
