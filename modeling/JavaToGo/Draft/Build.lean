import JavaToGo.Draft.Basic

/-!
# Writing a draft step by step

The conversion of declarations is a script: a tree of steps, each followed by
what depends on its result.  The mode only decides what a boundary does; no step
can ask for it.
-/

namespace JavaToGo

/-- A script asks, lowers, notes, adds, makes grow, and runs members inside boundaries. -/
inductive Build : Type → Type 1 where
  | done {α : Type} (value : α) : Build α
  | stop {α : Type} (failure : Failure) : Build α
  | asking {α : Type} (next : Context → Build α) : Build α
  | lowering {α β : Type} (x : Lower β) (next : β → Build α) : Build α
  | noting {α : Type} (event : Event) (next : Build α) : Build α
  /-- Adds declarations to a group; the place of the first is handed on. -/
  | adding {α : Type} (group : Group) (decls : List Decl) (next : Place → Build α) : Build α
  | growing {α : Type} (group : Group) (place : Place) (grow : Decl → Decl) (next : Build α) :
      Build α
  /-- Runs the script of a member inside its boundary. -/
  | guarding {α β : Type} (location : String) (node : Node) (body : Build β)
      (next : Except Diagnostic β → Build α) : Build α

namespace Build

/-- Goes on with the result of a script. -/
def bind {α β : Type} : Build α → (α → Build β) → Build β
  | .done value, f => f value
  | .stop failure, _ => .stop failure
  | .asking next, f => .asking fun c => (next c).bind f
  | .lowering x next, f => .lowering x fun b => (next b).bind f
  | .noting event next, f => .noting event (next.bind f)
  | .adding group decls next, f => .adding group decls fun place => (next place).bind f
  | .growing group place grow next, f => .growing group place grow (next.bind f)
  | .guarding location node body next, f =>
    .guarding location node body fun result => (next result).bind f

instance : Monad Build where
  pure := .done
  bind := bind

/-- A computation without state as a script. -/
def ofOutcome {α : Type} : Outcome α → Build α
  | .ok value => .done value
  | .error failure => .stop failure

instance : MonadLift Outcome Build := ⟨ofOutcome⟩

section Steps

def context : Build Context :=
  .asking .done

def lower {α : Type} (x : Lower α) : Build α :=
  .lowering x .done

def note (event : Event) : Build Unit :=
  .noting event (.done ())

/-- Runs the script of a member inside a boundary. -/
def member {α : Type} (location : String) (node : Node) (x : Build α) :
    Build (Except Diagnostic α) :=
  .guarding location node x .done

end Steps

section Adding

/-- Adds a declaration and gives its place. -/
def put (group : Group) (decl : Decl) : Build Place :=
  .adding group [decl] .done

def putAll (group : Group) (decls : List Decl) : Build Unit :=
  .adding group decls fun _ => .done ()

def addType (type : Decl) : Build Place :=
  put .types type

def addInterface (interface : Code.Interface) : Build Place :=
  put .interfaces (.interface interface)

def addVars (vars : List Code.ModuleVar) : Build Unit :=
  putAll .vars (vars.map .var)

def addConstBlock (constants : Code.ConstBlock) : Build Unit :=
  putAll .constBlocks [.constBlock constants]

/-- Adds a function; one with a receiver goes to the methods. -/
def addFunction (f : Code.Function) : Build Unit :=
  putAll (if f.receiver.isSome then .methods else .functions) [.function f]

end Adding

section Growing

def withFields (fields : List Code.Field) : Decl → Decl
  | .struct s => .struct { s with fields := s.fields ++ fields }
  | decl => decl

def withSpec (spec : Code.MethodSpec) : Decl → Decl
  | .interface i => .interface { i with methods := i.methods ++ [spec] }
  | decl => decl

/-- Adds fields to the struct at a place. -/
def addFields (place : Place) (fields : List Code.Field) : Build Unit :=
  .growing .types place (withFields fields) (.done ())

/-- Lists a method in the interface at a place. -/
def addSpec (place : Place) (spec : Code.MethodSpec) : Build Unit :=
  .growing .interfaces place (withSpec spec) (.done ())

end Growing

section Running

variable (mode : Mode) (c : Context)

/-- Carries a script out. -/
def runAt {α : Type} : Build α → Draft → Except Failure α × Draft
  | .done value, d => (.ok value, d)
  | .stop failure, d => (.error failure, d)
  | .asking next, d => (next c).runAt d
  | .lowering x next, d =>
    match x.runAt c d.trail with
    | (.ok value, t) => (next value).runAt (d.withTrail t)
    | (.error failure, t) => (.error failure, d.withTrail t)
  | .noting event next, d => next.runAt (d.note event)
  | .adding group decls next, d => (next (d.count group)).runAt (d.add group decls)
  | .growing group place grow next, d => next.runAt (d.grow group place grow)
  | .guarding location node body next, d =>
    match mode with
    | .strict =>
      match body.runAt d with
      | (.ok value, d') => (next (.ok value)).runAt d'
      | (.error failure, d') => (.error failure, d')
    | .tolerant =>
      let outcome := body.runAt d.openMember
      let closed := outcome.2.closeMember location node outcome.1
      (next closed.1).runAt closed.2

end Running

end Build

end JavaToGo
