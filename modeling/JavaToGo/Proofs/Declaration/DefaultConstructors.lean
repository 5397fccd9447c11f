import JavaToGo.Proofs.Analysis.Constructors
import JavaToGo.Proofs.Analysis.GoNames
import JavaToGo.Proofs.Declaration.ClassMembers
import JavaToGo.Proofs.Lowering.Creation

/-!
# Default constructors and the creations that call them

A default constructor is named by the modifiers of the class, a creation by the
recorded visibility; below an abstract class the two may differ.
-/

namespace JavaToGo

open List Draft

/-- The constructor that a class gets when it declares none. -/
structure IsDefaultConstructor (s : Symbols) (shape : ClassShape) (f : Code.Function) : Prop where
  name : f.name
    = s.constructorNameFor shape.node.modifiers.isPublic shape.name shape.javaName []
  params : f.params = []
  result : f.result = some shape.structType
  receiver : f.receiver = none

namespace Build

variable {go : Node → Build Unit}

lemma exists_added_of_classDefaultConstructor {call : Call}
    (hbody : call.body = ⟨Unit, classDefaultConstructor shape fields⟩)
    (hreturned : call.Returned c) :
    ∃ f, IsDefaultConstructor c.symbols shape f ∧ call.added c .functions = [.function f] := by
  obtain ⟨u, d', hrun, hafter⟩ := hreturned.exists_run hbody
  obtain ⟨self, d₁, hself, hrest⟩ := exists_of_bind hrun
  obtain ⟨-, rfl⟩ := runAt_lift_eq_ok.1 hself
  obtain ⟨f, t, hlower, rfl⟩ := exists_of_addLowered hrest
  obtain ⟨s, t₁, ⟨⟩, hlower⟩ := Lower.exists_of_bind hlower
  obtain ⟨body, t₂, -, hlast⟩ := Lower.exists_of_bind hlower
  have hf : _ = f := Except.ok.inj (Prod.mk.inj hlast).1
  have hdefault : IsDefaultConstructor c.symbols shape f := by
    rw [← hf]
    exact ⟨rfl, rfl, rfl, rfl⟩
  refine ⟨f, hdefault, Call.added_eq ?_⟩
  rw [hafter, hdefault.receiver, standing_add_eq_append, standing_withTrail, standing_openMember]
  rfl

lemma exists_added_defaultConstructor (hgo : ConvertsTypes (.free c) go)
    {call : Call} (hbody : call.body = ⟨Unit, concreteClass go call.node⟩)
    (hshape : ClassShape.ofNode c.toTypeContext call.node = .ok shape)
    (hreturned : call.Returned c) (hown : ∀ k ∈ call.own c, k.Returned c)
    (hnone : ∀ m ∈ call.node.bodyMembers, m.kind ≠ .constructorDeclaration) :
    ∃ f, IsDefaultConstructor c.symbols shape f ∧ .function f ∈ call.added c .functions := by
  obtain ⟨u, d', hrun, hafter⟩ := hreturned.exists_run hbody
  obtain ⟨fields, d₁, d₂, d₃, d₄, fieldCalls, memberCalls, constructorCalls, baseCalls, parts⟩ :=
    exists_classParts hrun hshape
  rw [Call.own_of_body hbody, parts.own] at hown
  have hbodies := parts.constructor.bodies
  rw [constructorBodies, if_neg] at hbodies
  · obtain ⟨k, rfl, hk⟩ := map_eq_singleton_iff.1 hbodies
    obtain ⟨f, hf, hfunctions⟩ := exists_added_of_classDefaultConstructor hk (hown k (by simp))
    refine ⟨f, hf, ?_⟩
    have hadded : call.added c .functions
        = (fieldCalls ++ memberCalls ++ ([k] ++ baseCalls)).flatMap
          (Call.added c · .functions) := by
      refine Call.added_eq ?_
      rw [hafter, parts.standing_all hgo (by decide) (by decide), standing_openMember]
    rw [hadded]
    exact mem_flatMap.2 ⟨k, by simp, by simp [hfunctions]⟩
  · intro hany
    obtain ⟨m, hm, hkind⟩ := any_eq_true.1 hany
    exact hnone m (mem_filter.1 hm).1 (by simpa using hkind)

end Build

section

variable {s : Symbols}

lemma exists_declared_of_ofNode {c : TypeContext} (h : ClassShape.ofNode c node = .ok shape) :
    ∃ d, c.symbols.declaredTypes.find? shape.javaName = some d ∧ d.goName = shape.name := by
  simp only [ClassShape.ofNode, Outcome.bind_eq_ok] at h
  obtain ⟨javaName, -, d, hd, superclass, -, ⟨⟩⟩ := h
  exact ⟨d, Symbols.find?_of_requireType hd, rfl⟩

variable {d : DeclaredType}

lemma findsDefault_iff_of_nil (hnone : s.constructorOverloads typeName = [])
    (hfind : s.declaredTypes.find? javaName = some d) :
    s.FindsDefault typeName javaName isPublic ↔ d.isPublic = isPublic := by
  simp [Symbols.FindsDefault, hnone, hfind, overload?, pickByArity]

/-- A place where a Java name means the type of the unit: with the same symbols and settings, and
no type parameter of that name. -/
structure Context.Sees (k : Context) (c : Context) (javaName : String) : Prop where
  symbols : k.symbols = c.symbols
  settings : k.settings = c.settings
  unshadowed : inScopes k.typeParams javaName = false

lemma Context.Sees.mapName_eq {k : Context} (h : k.Sees c javaName)
    (hkey : c.settings.typeMappings.find? javaName = none)
    (hfind : c.symbols.declaredTypes.find? javaName = some d) : k.mapName javaName = d.goName := by
  unfold TypeContext.mapName TypeContext.override?
  rw [h.settings, hkey, h.unshadowed, h.symbols, hfind]
  rfl

/-- What `new T()` calls there is the constructor that the class gets, or not. -/
lemma exists_creation_iff {k c : Context} (hf : IsDefaultConstructor c.symbols shape f)
    (hsees : k.Sees c shape.javaName) (hkey : c.settings.typeMappings.find? shape.javaName = none)
    (hfind : c.symbols.declaredTypes.find? shape.javaName = some d)
    (hgoName : d.goName = shape.name)
    (hcreation : PlainCreation k.toTypeContext node shape.javaName goType) (t : Trail) :
    ∃ lowered t', (Lower.expression node).runAt k t = (.ok lowered, t')
      ∧ (lowered.value = .callNamed f.name [] false
        ↔ isContainerType goType = false
          ∧ c.symbols.FindsDefault shape.name shape.javaName shape.node.modifiers.isPublic) := by
  obtain ⟨lowered, t', hrun, hcontainer, hcalled⟩ := exists_of_plainCreation hcreation t
  refine ⟨lowered, t', hrun, ?_⟩
  cases hkind : isContainerType goType with
  | true =>
    obtain ⟨first, more, hvalue⟩ := hcontainer hkind
    simp [hvalue]
  | false =>
    rw [hcalled hkind, hsees.symbols, hsees.mapName_eq hkey hfind, hgoName, hf.name,
      ← resolveConstructor_name_eq_iff]
    simp

end

section

variable {mode : Mode} {unit : CompilationUnit} {call : Call}

lemma exists_defaultConstructor_mem (hclean : (convert .tolerant unit).draft.diagnostics = [])
    (hcall : call ∈ unit.calls) (hclass : call.DeclaresClass unit.context shape)
    (hnone : ∀ m ∈ call.node.bodyMembers, m.kind ≠ .constructorDeclaration) :
    ∃ f, IsDefaultConstructor unit.context.symbols shape f
      ∧ .function f ∈ (convert .tolerant unit).draft.file.functions := by
  have hreturned := returned_of_diagnostics_eq_nil hclean
  obtain ⟨height, hbody⟩ := hclass.exists_concreteClass (hreturned call hcall)
  obtain ⟨f, hf, hadded⟩ := Build.exists_added_defaultConstructor
    (Build.convertsTypes_free _ height) hbody hclass.shape (hreturned call hcall)
    (fun k hk => hreturned k (mem_calls_of_mem_own hcall hk)) hnone
  rw [← keptCalls_eq hclean] at hcall
  exact ⟨f, hf, mem_of_mem_drop ((added_isPrefix_convert hcall .functions).subset hadded)⟩

/-- Let a unit be converted without diagnostics, and let a class declare no constructor, have a Java
name that is declared once and not be mapped by the settings.  Then the file has a constructor for
it, and `new T()` is lowered to a call of it exactly when the Go type is not one of a container and
the overload for no arguments leads there: if the Go name belongs to no type with constructors,
exactly when the class is declared public or its superclass is no abstract class. -/
theorem default_creation_meets_iff (hok : (convert mode unit).outcome = .ok ())
    (hclean : (convert mode unit).draft.diagnostics = []) (hcall : call ∈ unit.calls)
    {shape : ClassShape} (hclass : call.DeclaresClass unit.context shape)
    (hnone : ∀ m ∈ call.node.bodyMembers, m.kind ≠ .constructorDeclaration)
    (honce : (unit.root.typeDeclarations.filter fun t => t.javaName? == some shape.javaName)
      = [call.node])
    (hkey : unit.settings.typeMappings.find? shape.javaName = none) :
    ∃ f, .function f ∈ (convert mode unit).draft.file.functions
      ∧ IsDefaultConstructor unit.context.symbols shape f
      ∧ (∀ (k : Context) (node : Node) (goType : String) (t : Trail),
          k.Sees unit.context shape.javaName →
          PlainCreation k.toTypeContext node shape.javaName goType →
            ∃ lowered t', (Lower.expression node).runAt k t = (.ok lowered, t')
              ∧ (lowered.value = .callNamed f.name [] false
                ↔ isContainerType goType = false
                  ∧ unit.context.symbols.FindsDefault shape.name shape.javaName
                      call.node.modifiers.isPublic))
      ∧ ∃ seen superclass, Analysis.SeenAt .tolerant ⟨unit, []⟩ call.node seen
          ∧ superclassOf ⟨unit.settings, seen, []⟩ call.node = .ok superclass
          ∧ ((∀ javaName, unit.root.HasConstructor javaName →
                unit.context.mapName javaName ≠ shape.name) →
              (unit.context.symbols.FindsDefault shape.name shape.javaName
                  call.node.modifiers.isPublic
                ↔ call.node.modifiers.isPublic = true
                  ∨ unit.context.symbols.isAbstractType superclass = false)) := by
  rw [convert_eq_tolerant_of_ok hok] at hclean ⊢
  obtain ⟨f, hf, hmem⟩ := exists_defaultConstructor_mem hclean hcall hclass hnone
  obtain ⟨d, hfind, hgoName⟩ := exists_declared_of_ofNode hclass.shape
  refine ⟨f, hmem, hf, ?_, ?_⟩
  · intro k node goType t hsees hcreation
    rw [← (Build.eq_of_ofNode hclass.shape).1]
    exact exists_creation_iff hf hsees hkey hfind hgoName hcreation t
  · obtain ⟨findings, hanalyze, hsymbols, -⟩ := exists_analyze_of_mem_calls hcall
    rw [hsymbols] at hfind ⊢
    obtain ⟨seen, superclass, hseen, hsuper, hvisible⟩ :=
      exists_visibility_of_analyze hanalyze honce hclass.kind hfind
    refine ⟨seen, superclass, hseen, hsuper, fun hothers => ?_⟩
    refine (findsDefault_iff_of_nil (constructorOverloads_eq_nil hanalyze hothers) hfind).trans ?_
    rw [hvisible]
    cases call.node.modifiers.isPublic <;> simp [Context.ofUnit]

end

/-- `new Leaf()`. -/
def leafCreation : Node :=
  .plain 35 .objectCreation none "new Leaf()"
    [.plain 36 .typeIdentifier (some "type") "Leaf" [],
     .plain 37 (.other "argument_list") (some "arguments") "" []]

/-- The class `Leaf extends Base` with a method `make` that creates one. -/
def creatorClass (isPublic : Bool) : Node :=
  .plainClass 1
    (if isPublic then
      [.tree 4 .modifiers [.leaf 5 .publicWord "public"]]
    else [])
    "Leaf" (extending 20 "Base")
    [.plainMethod 30 "make" [] [.tree 34 .returnStatement [leafCreation]]]

/-- The class `Leaf` and the abstract class `Base`. -/
def creatorUnit (isPublic : Bool) : CompilationUnit :=
  .ofTypes
    [creatorClass isPublic, .plainClass 40 (abstractModifiers 43) "Base" [] []]

def creatorCall (isPublic : Bool) : Call :=
  firstCall (creatorUnit isPublic) (creatorClass isPublic)

def creatorShape (isPublic : Bool) : ClassShape where
  node := creatorClass isPublic
  javaName := "Leaf"
  name := "Leaf"
  isPublic := true
  typeParams := []
  superclass := some "Base"
  ancestry := [{ name := "Base" }]

lemma creatorCall_declaresClass (isPublic : Bool) :
    (creatorCall isPublic).DeclaresClass (creatorUnit isPublic).context
      (creatorShape isPublic) where
  body := ⟨(creatorClass isPublic).height, rfl⟩
  kind := rfl
  concrete := by cases isPublic <;> decide +kernel
  shape := by cases isPublic <;> with_unfolding_all rfl

lemma leafCreation_plain (isPublic : Bool) :
    PlainCreation (creatorUnit isPublic).context.toTypeContext leafCreation "Leaf" "Leaf" where
  kind := rfl
  bodiless := rfl
  type := ⟨_, rfl, rfl, by cases isPublic <;> with_unfolding_all rfl⟩
  arguments := ⟨_, rfl, rfl⟩

/-- The class is public: `new Leaf()` calls the constructor of the file. -/
theorem leaf_creation_meets :
    (convert .strict (creatorUnit true)).outcome = .ok ()
      ∧ (convert .strict (creatorUnit true)).draft.diagnostics = []
      ∧ creatorCall true ∈ (creatorUnit true).calls
      ∧ (creatorCall true).DeclaresClass (creatorUnit true).context (creatorShape true)
      ∧ ∃ f lowered t', .function f ∈ (convert .strict (creatorUnit true)).draft.file.functions
          ∧ (Lower.expression leafCreation).runAt (creatorUnit true).context {} = (.ok lowered, t')
          ∧ lowered.value = .callNamed f.name [] false := by
  have hok : (convert .strict (creatorUnit true)).outcome = .ok () :=
    ok_of_isOk (by decide +kernel)
  have hclean : (convert .strict (creatorUnit true)).draft.diagnostics = [] := by
    decide +kernel
  have hmem : creatorCall true ∈ (creatorUnit true).calls :=
    firstCall_mem (by decide +kernel) rfl
  have hmembers : ∀ m ∈ (creatorCall true).node.bodyMembers,
      m.kind ≠ .constructorDeclaration := by
    decide +kernel
  obtain ⟨f, hf, hdefault, hcreations, seen, superclass, -, -, hmeets⟩ :=
    default_creation_meets_iff hok hclean hmem (creatorCall_declaresClass true) hmembers
      (by with_unfolding_all rfl) rfl
  have hothers : ∀ javaName, (creatorUnit true).root.HasConstructor javaName →
      (creatorUnit true).context.mapName javaName ≠ (creatorShape true).name := by
    intro javaName hconstructor
    cases hconstructor with
    | declared hn | record hn => cases hn
  have hfinds := (hmeets hothers).2 (.inl (by decide +kernel))
  obtain ⟨lowered, t', hrun, hvalue⟩ := hcreations (creatorUnit true).context
    leafCreation "Leaf" {} ⟨rfl, rfl, rfl⟩ (leafCreation_plain true)
  exact ⟨hok, hclean, hmem, creatorCall_declaresClass true, f, lowered, t', hf, hrun,
    hvalue.2 ⟨by decide +kernel, hfinds⟩⟩

def functionName? : Decl → Option String
  | .function f => some f.name
  | _ => none

/-- The class is not public: the constructor is `newLeaf`, and `new Leaf()` calls `NewLeaf`. -/
theorem leaf_creation_misses :
    (convert .strict (creatorUnit false)).outcome = .ok ()
      ∧ (convert .strict (creatorUnit false)).draft.diagnostics = []
      ∧ creatorCall false ∈ (creatorUnit false).calls
      ∧ (creatorCall false).DeclaresClass (creatorUnit false).context (creatorShape false)
      ∧ (∀ m ∈ (creatorCall false).node.bodyMembers, m.kind ≠ .constructorDeclaration)
      ∧ ((creatorUnit false).root.typeDeclarations.filter fun t => t.javaName? == some "Leaf")
          = [(creatorCall false).node]
      ∧ (creatorUnit false).settings.typeMappings.find? "Leaf" = none
      ∧ (convert .strict (creatorUnit false)).draft.file.functions.map functionName?
          = [some "newLeaf"]
      ∧ ∃ lowered t',
          (Lower.expression leafCreation).runAt (creatorUnit false).context {} = (.ok lowered, t')
          ∧ lowered.value = .callNamed "NewLeaf" [] false := by
  have hok : (convert .strict (creatorUnit false)).outcome = .ok () :=
    ok_of_isOk (by decide +kernel)
  have hmem : creatorCall false ∈ (creatorUnit false).calls :=
    firstCall_mem (by decide +kernel) rfl
  obtain ⟨lowered, t', hrun, -, hvalue⟩ := exists_of_plainCreation (leafCreation_plain false) {}
  have hname : ((creatorUnit false).context.symbols.resolveConstructor
      ((creatorUnit false).context.mapName "Leaf") "Leaf" 0).name = "NewLeaf" := by
    decide +kernel
  rw [hname] at hvalue
  exact ⟨hok, by decide +kernel, hmem, creatorCall_declaresClass false, by decide +kernel,
    by with_unfolding_all rfl, rfl, by decide +kernel, lowered, t', hrun,
    hvalue (by decide +kernel)⟩

end JavaToGo
