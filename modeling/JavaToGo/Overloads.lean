import JavaToGo.Code.TypeText
import JavaToGo.Event
import JavaToGo.Symbols

/-!
# Overloads

Go has no overloading, so every overload gets a name of its own, and a call
picks one by the number of its arguments alone.
-/

namespace JavaToGo

section Names

/-- The names to try for an overload: the name itself, then with 2, 3, … behind it. -/
def nameCandidate (name : String) : Nat → String
  | 0 => name
  | n + 1 => name ++ toString (n + 2)

/-- The name, or with the first number that makes it new. -/
def uniqueName (name : String) (taken : List String) : String :=
  (((List.range (taken.length + 1)).map (nameCandidate name)).find?
    fun candidate => !taken.contains candidate).getD name

/-- The name of a constructor without arguments. -/
def defaultConstructorName (javaName : String) (isPublic : Bool) : String :=
  Code.withVisibility "new" isPublic ++ Code.exported (Code.fragment javaName)

/-- The name of a constructor before it is told apart from others; `parts` are what it takes. -/
def constructorBaseName (javaName : String) (isPublic : Bool) (parts : List String) : String :=
  if parts.isEmpty then defaultConstructorName javaName isPublic
  else defaultConstructorName javaName isPublic ++ "From" ++ String.join (parts.map Code.exported)

end Names

section Filing

/-- Makes the overload with these argument types public. -/
def publish (argumentTypes : List String) (isPublic : Bool) (overloads : List Overload) :
    List Overload :=
  overloads.map fun o =>
    if o.argumentTypes = argumentTypes then { o with isPublic := o.isPublic || isPublic } else o

/-- The place of the first overload with the argument types, or the one behind all others. -/
def entryOf (overloads : List Overload) (argumentTypes : List String) : Nat :=
  overloads.findIdx fun o => o.argumentTypes == argumentTypes

/-- The first overload keeps the Java name; a later one is named after its argument types. -/
def methodOverloadName (javaName : String) (argumentTypes : List String)
    (overloads : List Overload) : String :=
  if overloads.isEmpty then javaName
  else uniqueName (Code.overloadedName javaName argumentTypes) (overloads.map Overload.name)

/-- Declaring the same argument types again files nothing new. -/
def fileMethod (javaName : String) (argumentTypes : List String) (isPublic isStatic : Bool)
    (overloads : List Overload) : List Overload :=
  if (overload? overloads argumentTypes).isSome then publish argumentTypes isPublic overloads
  else
    overloads ++
      [{ name := methodOverloadName javaName argumentTypes overloads,
         argumentTypes := argumentTypes, isPublic := isPublic, isStatic := isStatic }]

/-- A constructor is always named after what it takes. -/
def fileConstructor (javaName : String) (argumentTypes : List String) (isPublic : Bool)
    (parts : Option (List String)) (overloads : List Overload) : List Overload :=
  if (overload? overloads argumentTypes).isSome then overloads
  else
    overloads ++
      [{ name := uniqueName
           (constructorBaseName javaName isPublic (parts.getD (argumentTypes.map Code.fragment)))
           (overloads.map Overload.name),
         argumentTypes := argumentTypes, isPublic := isPublic }]

namespace Symbols

/-- Files a method, and gives the place of the overload that it goes to. -/
def addMethod (s : Symbols) (javaName : String) (argumentTypes : List String)
    (isPublic isStatic : Bool) : Nat × Symbols :=
  (entryOf (s.methodOverloads javaName) argumentTypes,
   { s with
     methods := s.methods.insert javaName
       (fileMethod javaName argumentTypes isPublic isStatic (s.methodOverloads javaName)) })

/-- Files a constructor, and gives the place of the overload that it goes to. -/
def addConstructor (s : Symbols) (typeName javaName : String) (argumentTypes : List String)
    (isPublic : Bool) (parts : Option (List String)) : Nat × Symbols :=
  (entryOf (s.constructorOverloads typeName) argumentTypes,
   { s with
     constructors := s.constructors.insert typeName
       (fileConstructor javaName argumentTypes isPublic parts (s.constructorOverloads typeName)) })

end Symbols

end Filing

section Picking

/-- The overload that a call refers to, and whether others fit. -/
structure Resolution where
  name : String
  overload : Option Overload := none
  isAmbiguous : Bool := false
deriving DecidableEq, Repr, Inhabited

def Overload.isVariadic (o : Overload) : Bool :=
  o.argumentTypes.getLast?.any Code.isVariadicType

/-- A single overload always fits.  Of several the first with this number of arguments is taken,
else the first variadic one. -/
def pickByArity (overloads : List Overload) (count : Nat) : Option Overload × Bool :=
  match overloads with
  | [] => (none, false)
  | [only] => (some only, false)
  | _ =>
    match overloads.filter fun o => o.argumentTypes.length == count with
    | [] => (overloads.find? Overload.isVariadic, false)
    | first :: more => (some first, !more.isEmpty)

namespace Symbols

/-- The overload that is called with so many arguments. -/
def resolveMethod (s : Symbols) (name : String) (count : Nat) : Resolution :=
  match pickByArity (s.methodOverloads name) count with
  | (some o, ambiguous) => ⟨o.name, some o, ambiguous⟩
  | (none, _) => { name := name }

def resolveConstructor (s : Symbols) (typeName javaName : String) (count : Nat) : Resolution :=
  match pickByArity (s.constructorOverloads typeName) count with
  | (some o, ambiguous) => ⟨o.name, some o, ambiguous⟩
  | (none, _) =>
    { name := defaultConstructorName javaName
        ((s.declaredTypes.find? javaName).all DeclaredType.isPublic) }

def constructorNameFor (s : Symbols) (isPublic : Bool) (typeName javaName : String)
    (argumentTypes : List String) : String :=
  match overload? (s.constructorOverloads typeName) argumentTypes with
  | some o => o.name
  | none => defaultConstructorName javaName isPublic

end Symbols

def Resolution.methodEvents (r : Resolution) (name : String) (count : Nat) : List Event :=
  if r.isAmbiguous then [.ambiguousMethod name count r.name] else []

def Resolution.constructorEvents (r : Resolution) (javaName : String) : List Event :=
  if r.isAmbiguous then [.ambiguousConstructor javaName r.name] else []

def methodAmbiguity (name : String) (count : Nat) : Code.Stmt :=
  .comment
    ["FIXME: more than one possible method for " ++ name ++ " with " ++ toString count
      ++ " arguments"]

def constructorAmbiguity (javaName : String) : Code.Stmt :=
  .comment ["FIXME: more than one possible constructor for " ++ javaName]

end Picking

end JavaToGo
