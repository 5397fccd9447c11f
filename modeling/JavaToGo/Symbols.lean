import JavaToGo.Code.Decl
import JavaToGo.Failure
import JavaToGo.Table

/-!
# Symbols

What a unit declares.  Methods are filed under their Java name and constructors
under the Go type that they make; none is ever moved or taken out, so a name and a
place denote one overload.
-/

namespace JavaToGo

/-- One overload: its Go name, its argument types, and how it may be called. -/
structure Overload where
  name : String
  argumentTypes : List String
  isPublic : Bool := false
  isStatic : Bool := false
deriving DecidableEq, Repr, Inhabited

/-- What is known about a method, with the place of its overload. -/
structure MethodRecord where
  javaName : String
  params : List Param
  result : Option String
  isPublic : Bool
  isStatic : Bool := false
  isAbstract : Bool := false
  isDefault : Bool := false
  throws : Bool := false
  owner : String := ""
  typeParams : List String := []
  valueType : Option String := none
  /-- The place of its overload among those with its Java name. -/
  entry : Nat := 0
deriving DecidableEq, Repr, Inhabited

/-- What is known about a constructor, with the place of its overload. -/
structure ConstructorRecord where
  typeName : String
  params : List Param
  isPublic : Bool
  /-- The place of its overload among those for its Go type. -/
  entry : Nat
deriving DecidableEq, Repr, Inhabited

/-- What is known about a type. -/
structure DeclaredType where
  javaName : String
  goName : String
  isPublic : Bool
  kind : Kind
deriving DecidableEq, Repr, Inhabited

/-- The shape of an abstract class: its fields and its methods by their numbers. -/
structure Layout where
  name : String
  fields : List String := []
  abstractMethods : List Nat := []
  defaultMethods : List Nat := []
  superclass : Option String := none
deriving DecidableEq, Repr, Inhabited

def paramTypes (params : List Param) : List String :=
  params.map Code.Param.type

/-- The overload with these argument types. -/
def overload? (overloads : List Overload) (argumentTypes : List String) : Option Overload :=
  overloads.find? fun o => o.argumentTypes == argumentTypes

theorem overload?_argumentTypes {overloads : List Overload} {types : List String} {o : Overload}
    (h : overload? overloads types = some o) : o.argumentTypes = types := by
  simpa using List.find?_some h

/-- All that the analysis records. -/
structure Symbols where
  methods : Table String (List Overload) := ⟨[]⟩
  constructors : Table String (List Overload) := ⟨[]⟩
  enumConstants : Table String String := ⟨[]⟩
  abstractTypes : List String := []
  /-- Shapes of abstract classes by Go name. -/
  layouts : Table String Layout := ⟨[]⟩
  declaredTypes : Table String DeclaredType := ⟨[]⟩
  methodRecords : Table Nat MethodRecord := ⟨[]⟩
  constructorRecords : Table Nat ConstructorRecord := ⟨[]⟩
  /-- Declarations that could not be analysed, by number. -/
  failures : Table Nat Refusal := ⟨[]⟩
deriving Repr, Inhabited

namespace Symbols

section

variable (s : Symbols)

def methodOverloads (javaName : String) : List Overload :=
  (s.methods.find? javaName).getD []

def constructorOverloads (typeName : String) : List Overload :=
  (s.constructors.find? typeName).getD []

/-- The overload that the record of a method refers to, as it is by now. -/
def methodOverload (record : MethodRecord) : Overload :=
  (s.methodOverloads record.javaName)[record.entry]?.getD
    { name := record.javaName, argumentTypes := paramTypes record.params }

/-- The overload that the record of a constructor refers to. -/
def constructorOverload (record : ConstructorRecord) : Overload :=
  (s.constructorOverloads record.typeName)[record.entry]?.getD
    { name := record.typeName, argumentTypes := paramTypes record.params }

/-- The Go name of the overload of a method. -/
def methodName (record : MethodRecord) : String :=
  (s.methodOverload record).name

def constructorName (record : ConstructorRecord) : String :=
  (s.constructorOverload record).name

/-- Whether the Go name is that of an abstract class. -/
def isAbstractType (goName : Option String) : Bool :=
  match goName with
  | none => false
  | some name => s.abstractTypes.contains name

def addAbstractType (goName : String) : Symbols :=
  if s.abstractTypes.contains goName then s
  else { s with abstractTypes := s.abstractTypes ++ [goName] }

end

/-- The record of a declaration, or the refusal that was filed in its place. -/
def recorded {ν : Type} (s : Symbols) (records : Table Nat ν) (node : Tree.Node) (fault : Fault) :
    Outcome ν :=
  match records.find? node.id with
  | some record => .ok record
  | none =>
    match s.failures.find? node.id with
    | some refusal => .error (.refusal refusal)
    | none => .error (.fault fault)

/-- The record of a method, which must be there. -/
def requireMethod (s : Symbols) (node : Tree.Node) : Outcome MethodRecord :=
  s.recorded s.methodRecords node (.unrecordedMethod node.kind node.location)

/-- The record of a constructor, which must be there. -/
def requireConstructor (s : Symbols) (node : Tree.Node) : Outcome ConstructorRecord :=
  s.recorded s.constructorRecords node (.unrecordedConstructor node.kind node.location)

def requireType (s : Symbols) (javaName : String) : Outcome DeclaredType :=
  match s.declaredTypes.find? javaName with
  | some declared => .ok declared
  | none => .error (.fault (.missingKey javaName))

/-- The shape of an abstract class, which has to be there. -/
def requireLayout (s : Symbols) (goName : String) : Outcome Layout :=
  match s.layouts.find? goName with
  | some layout => .ok layout
  | none => .error (.fault (.missingKey goName))

def javaNameOf (s : Symbols) (goName : String) : String :=
  ((s.declaredTypes.values.find? fun d => d.goName == goName).map DeclaredType.javaName).getD goName

end Symbols

end JavaToGo
