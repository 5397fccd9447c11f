import JavaToGo.Declaration.AbstractClass
import JavaToGo.Declaration.Interface
import JavaToGo.Proofs.Analysis.Methods
import JavaToGo.Proofs.Draft.Run

/-!
# The Go name of a method wherever it is written

The name is worked out anew where the body is converted, where an interface lists
the method, and where a default method becomes a function.
-/

namespace JavaToGo

open JavaToGo.Tree (Node)
open Build

variable {node : Node} {record : MethodRecord}

lemma Symbols.requireMethod_of_find? {s : Symbols}
    (h : s.methodRecords.find? node.id = some record) : s.requireMethod node = .ok record := by
  rw [requireMethod, recorded, h]

lemma Symbols.find?_of_recorded {ν : Type} {s : Symbols} {records : Table Nat ν} {record : ν}
    {fault : Fault} (h : s.recorded records node fault = .ok record) :
    records.find? node.id = some record := by
  unfold recorded at h
  split at h
  · next hfind =>
      cases h
      exact hfind
  · split at h <;> cases h

variable {c : Context}

namespace Lower

lemma gives_staticMethod (node : Node) (record : MethodRecord) (name : String) (isPublic : Bool) :
    (staticMethod node record name isPublic).Gives fun f => f.name = name ∧ f.receiver = none :=
  .bind fun _ _ _ _ _ => .bind fun _ _ _ _ _ => .pure ⟨rfl, rfl⟩

lemma gives_instanceMethod (node : Node) (record : MethodRecord) (name : String)
    (isPublic : Bool) (r : Receiver) (param : Param) :
    (instanceMethod node record name isPublic r param).Gives fun f =>
      f.name = name ∧ f.params = record.params ∧ f.receiver = some param := by
  unfold instanceMethod
  split
  · intro c t f t' hrun
    cases hrun
  · exact .bind fun _ _ _ _ _ => .bind fun _ _ _ _ _ => .pure ⟨rfl, rfl, rfl⟩

section

variable (hrecord : c.symbols.methodRecords.find? node.id = some record)
include hrecord

lemma name_of_method
    (hrun : (method node r param exports).runAt c t = (.ok f, t')) :
    f.name = Code.withVisibility (c.symbols.methodName record)
      ((c.symbols.methodOverload record).isPublic || exports) := by
  simp only [method, runAt_bind_eq_ok, runAt_lift_eq_ok] at hrun
  obtain ⟨s, t₁, ⟨⟩, found, t₂, ⟨hfound, -⟩, hrest⟩ := hrun
  cases (Symbols.requireMethod_of_find? hrecord).symm.trans hfound
  revert hrest
  cases (if record.isStatic then none else param) with
  | none => exact fun h => (gives_staticMethod node record _ _ _ _ _ _ h).1
  | some param => exact fun h => (gives_instanceMethod node record _ _ r param _ _ _ _ h).1

lemma instance_of_method
    (hinstance : record.isStatic = false)
    (hrun : (method node r (some param) exports).runAt c t = (.ok f, t')) :
    f.params = record.params ∧ f.receiver = some param := by
  simp only [method, runAt_bind_eq_ok, runAt_lift_eq_ok] at hrun
  obtain ⟨s, t₁, ⟨⟩, found, t₂, ⟨hfound, -⟩, hbody⟩ := hrun
  cases (Symbols.requireMethod_of_find? hrecord).symm.trans hfound
  simp only [hinstance] at hbody
  exact (gives_instanceMethod node record _ _ r param _ _ _ _ hbody).2

end

end Lower

section

variable (s : Symbols)

/-- Wherever the method is converted, the function has this name. -/
def ConvertedAs (node : Node) (name : String) : Prop :=
  ∀ (c : Context) (t t' : Trail) (r : Receiver) (param : Option Param) (exports : Bool)
    (f : Code.Function), c.symbols = s →
    (Lower.method node r param exports).runAt c t = (.ok f, t') → f.name = name

open Build in
/-- Wherever the method is listed with the symbols, it is listed under the name; a default method
of an interface gets the name behind that of the interface. -/
structure ListedAs (node : Node) (record : MethodRecord) (name : String) : Prop where
  interface : ∀ {mode : Mode} {c : Context} {shape : InterfaceShape} {place : Place} {d : Draft},
    c.symbols = s → node.fieldChild? "body" = none →
    (interfaceMethod shape place node).runAt mode c d
      = (.ok (), d.grow .interfaces place (withSpec ⟨name, record.params, record.result⟩))
  default : ∀ {mode : Mode} {c : Context} {shape : InterfaceShape} {place : Place} {d d' : Draft},
    c.symbols = s → (node.fieldChild? "body").isSome = true →
    (interfaceMethod shape place node).runAt mode c d = (.ok (), d') →
    ∃ t f, d' = (d.withTrail t).add .functions [.function f] ∧ f.name = shape.name ++ name
  abstract : ∀ {mode : Mode} {c : Context} {shape : AbstractShape} {places : AbstractPlaces}
    {d : Draft}, c.symbols = s →
    (abstractMethod shape places node).runAt mode c d
      = (addDefaultBody shape node).runAt mode c
          (d.grow .interfaces places.interface (withSpec ⟨name, record.params, record.result⟩))

variable {s}

lemma convertedAs_of_record (hrecord : s.methodRecords.find? node.id = some record)
    (hpublic : (s.methodOverload record).isPublic = true) :
    ConvertedAs s node (Code.exported (s.methodName record)) := by
  intro c t t' r param exports f hsymbols hrun
  subst hsymbols
  have hname := Lower.name_of_method hrecord hrun
  rw [hpublic] at hname
  exact hname

lemma runAt_addDefaultMethod
    (hrun : (addDefaultMethod shape name record node).runAt mode c d = (.ok (), d')) :
    ∃ t f, d' = (d.withTrail t).add .functions [.function f] ∧ f.name = shape.name ++ name := by
  obtain ⟨body, d₁, hbody, hrest⟩ := exists_of_bind hrun
  obtain ⟨t, -, rfl⟩ := exists_of_lowered hbody
  cases hrest
  exact ⟨t, _, rfl, rfl⟩

lemma listedAs_of_record (hrecord : s.methodRecords.find? node.id = some record)
    (hinstance : record.isStatic = false) :
    ListedAs s node record (Code.exported (s.methodName record)) := by
  have hrequire := Symbols.requireMethod_of_find? hrecord
  refine ⟨?_, ?_, ?_⟩
  · intro mode c shape place d hsymbols hbody
    subst hsymbols
    simp [interfaceMethod, runAt_bind, hrequire, hinstance, hbody]
  · intro mode c shape place d d' hsymbols hbody hrun
    subst hsymbols
    have hnot : node.fieldChild? "body" ≠ none := by
      intro hnone
      rw [hnone] at hbody
      cases hbody
    have hadded : (addDefaultMethod shape (Code.exported (c.symbols.methodName record))
        record node).runAt mode c d = (.ok (), d') := by
      simpa [interfaceMethod, runAt_bind, hrequire, hinstance, hnot] using hrun
    exact runAt_addDefaultMethod hadded
  · intro mode c shape places d hsymbols
    subst hsymbols
    simp [abstractMethod, listMethod, runAt_bind, hrequire, hinstance]

end

/-- In every order of the declarations and with any other overloads between them, a method that is
listed in a Go interface and a method with the same Java name and parameter types share one entry
of their bucket: both records keep its place, and no other entry has these types.  The entry is
public, and both are written under its name.  Methods with the same Java name and different
parameter types have different names, whatever the visibility of each. -/
theorem listed_name_eq_converted_name (mode : Mode) (unit : CompilationUnit)
    (typeParams : List Scope) {s : Symbols} (hs : s = (analyze mode unit typeParams {}).2.symbols)
    {m₁ m₂ : Node} {r₁ r₂ : MethodRecord} (h₁ : s.methodRecords.find? m₁.id = some r₁)
    (h₂ : s.methodRecords.find? m₂.id = some r₂) (hname : r₁.javaName = r₂.javaName) :
    (paramTypes r₁.params = paramTypes r₂.params →
      ∀ owner, unit.root.enclosingType? m₁ = some owner → owner.listsMethods = true →
        r₁.isStatic = false →
        ∃ o, (s.methodOverloads r₁.javaName)[r₁.entry]? = some o ∧ r₂.entry = r₁.entry
          ∧ (∀ i other, (s.methodOverloads r₁.javaName)[i]? = some other →
              other.argumentTypes = paramTypes r₁.params → i = r₁.entry)
          ∧ s.methodOverload r₁ = o ∧ s.methodOverload r₂ = o ∧ o.isPublic = true
            ∧ ListedAs s m₁ r₁ (Code.exported o.name) ∧ ConvertedAs s m₂ (Code.exported o.name))
    ∧ (paramTypes r₁.params ≠ paramTypes r₂.params →
        ∀ p q, Code.withVisibility (s.methodName r₁) p
          ≠ Code.withVisibility (s.methodName r₂) q) := by
  have hfiled : s.MethodsFiled unit.root := by
    rw [hs]
    exact methodsFiled_analyze mode unit typeParams
  constructor
  · intro htypes owner howner hlists hinstance
    obtain ⟨hentry, hshared⟩ := hfiled.shares h₁ h₂ hname htypes
    have hpublic : (s.methodOverload r₁).isPublic = true :=
      (hfiled.overload?_eq_methodOverload h₁).2 (hfiled.listed h₁ howner hlists)
    refine ⟨s.methodOverload r₁, hfiled.getElem?_entry h₁, hentry,
      fun i other hother => hfiled.eq_entry h₁ hother, rfl, hshared, hpublic,
      listedAs_of_record h₁ hinstance, ?_⟩
    have hconverted := convertedAs_of_record h₂ (hshared ▸ hpublic)
    rw [Symbols.methodName, hshared] at hconverted
    exact hconverted
  · intro htypes
    exact hfiled.visible_ne h₁ h₂ hname htypes

/-- A method `area` with a parameter of each of the given types. -/
def areaMethod (number : Nat) (types : List Node) (body : List Node) : Node :=
  .tree number .methodDeclaration
    ([.intType (number + 1),
      .called (number + 2) "area",
      .parameterList (number + 3)
        (types.map fun type => .tree (number + 4) .formalParameter
          [type, .called (number + 5) "side"])] ++ body)

def intType : Node :=
  .intType 90

/-- `area(int)` as the class `Square` has it, behind `area()`. -/
def squareArea : Node :=
  areaMethod 20 [intType] [.body 26 []]

/-- `area(int)` as the interface `Shape` asks for it. -/
def shapeArea : Node :=
  areaMethod 40 [intType] []

def shapeInterface : Node :=
  .tree 30 .interfaceDeclaration
    [.called 31 "Shape",
     .plain 32 (.other "interface_body") (some "body") "" [shapeArea]]

/-- A class with two overloads of `area`, and behind it the interface that asks for the second. -/
def areaUnit : CompilationUnit where
  root :=
    .tree 0 .program
      [.tree 1 .classDeclaration
        [.called 2 "Square",
         .plain 3 .classBody (some "body") ""
           [areaMethod 10 [] [.body 16 []], squareArea]],
       shapeInterface]

def areaSymbols : Symbols :=
  (analyze .tolerant areaUnit [] {}).2.symbols

/-- What is known about `area(int)` where nothing says that it is public. -/
def squareRecord : MethodRecord :=
  { javaName := "area", params := [⟨"side", "int"⟩], result := some "int", isPublic := false,
    owner := "Square", valueType := some "int", entry := 1 }

/-- What is known about `area(int)` in the interface. -/
def shapeRecord : MethodRecord :=
  { squareRecord with isPublic := true, isAbstract := true, owner := "Shape" }

/-- The class keeps its method to itself and is analysed first; it follows the interface. -/
theorem squareArea_follows_shapeArea :
    areaSymbols.methodRecords.find? squareArea.id = some squareRecord
      ∧ areaSymbols.methodRecords.find? shapeArea.id = some shapeRecord
      ∧ ListedAs areaSymbols shapeArea shapeRecord "AreaWithInt"
      ∧ ConvertedAs areaSymbols squareArea "AreaWithInt" := by
  have hsymbols : areaSymbols = (analyze .tolerant areaUnit [] {}).2.symbols := rfl
  have hsquare : areaSymbols.methodRecords.find? squareArea.id = some squareRecord := by
    decide +kernel
  have hshape : areaSymbols.methodRecords.find? shapeArea.id = some shapeRecord := by
    decide +kernel
  have howner : (areaUnit.root.enclosingType? shapeArea).any Node.listsMethods = true := by
    decide +kernel
  obtain ⟨owner, henclosing, hlists⟩ := (Option.any_eq_true _ _).1 howner
  obtain ⟨o, -, -, -, rfl, -, -, hlisted, hconverted⟩ :=
    (listed_name_eq_converted_name .tolerant areaUnit [] hsymbols hshape hsquare rfl).1 rfl owner
      henclosing hlists rfl
  have hname : Code.exported (areaSymbols.methodOverload shapeRecord).name = "AreaWithInt" := by
    decide +kernel
  rw [hname] at hlisted hconverted
  exact ⟨hsquare, hshape, hlisted, hconverted⟩

end JavaToGo
