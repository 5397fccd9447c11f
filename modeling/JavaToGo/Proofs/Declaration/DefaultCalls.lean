import JavaToGo.Proofs.Declaration.Listings

/-!
# When calls in default methods are defined

A method of an interface without a body is listed in the Go interface, one with a
body becomes a function.  In a default method a call by name alone becomes a call
on the instance either way.
-/

namespace JavaToGo

open Code (Decl MethodSpec)
open JavaToGo.Tree (Node)
open List

section

/-- A call by name alone. -/
structure Tree.Node.BareCall (node : Node) (name : String) (args : List Node) : Prop where
  kind : node.kind = .methodInvocation
  name : node.requireText "name" = .ok name
  bare : node.fieldChild? "object" = none
  arguments : ∃ list, node.require "arguments" = .ok list ∧ list.operands = args

def Lower.argumentsOf (node : Node) (args : List Node) : Lower LoweredList :=
  lowerAll (expressionWithin (Node.heightAll node.children)) args

/-- What a call becomes in a default method of an interface. -/
def defaultCall (o : Overload) (args : List Expr) : Expr :=
  if o.isStatic then .callNamed (Code.withVisibility o.name o.isPublic) args false
  else .call (.field (.var "this") (Code.exported o.name)) args false

variable {c : Context} {shape : InterfaceShape} {node : Node}
namespace Lower

lemma returns_selfCall (hreceiver : c.receiver = shape.receiver) (o : Overload)
    (values : List Expr) :
    (selfCall node ⟨o.name, some o, false⟩ name values).Returns c t (defaultCall o values) := by
  refine returns_receiver.bind ?_
  rw [hreceiver]
  rw [if_neg (by simp [InterfaceShape.receiver])]
  unfold defaultCall
  cases hstatic : o.isStatic with
  | true =>
    rw [if_pos (by simp [hstatic])]
    refine .bind ?_ (.pure _)
    exact returns_receiver.bind rfl
  | false =>
    rw [if_neg (by simp [hstatic, InterfaceShape.receiver, Receiver.hasSelf]),
      if_neg (by simp)]
    have hself : (selfExpr (some node)).Returns c t (.var "this") := by
      refine returns_receiver.bind ?_
      rw [hreceiver]
      rfl
    refine hself.bind (.bind ?_ (.pure _))
    refine returns_receiver.bind ?_
    rw [hreceiver]
    rfl

lemma runAt_bareCall (hreceiver : c.receiver = shape.receiver) (hcall : node.BareCall name args)
    {o : Overload} (hresolves : c.symbols.resolveMethod name args.length = ⟨o.name, some o, false⟩)
    (hargs : (argumentsOf node args).runAt c t = (.ok values, t₁)) :
    (expression node).runAt c t = (.ok ⟨defaultCall o values.values, values.before⟩, t₁) := by
  obtain ⟨list, hlist, hoperands⟩ := hcall.arguments
  rw [expression_eq_step]
  simp only [expressionStep, hcall.kind, methodInvocation]
  have hidiom : (idiom (expressionWithin (Node.heightAll node.children)) none name args).Returns c t
      none := rfl
  have hsymbols : symbols.Returns c t₁ c.symbols := rfl
  rw [(Returns.lift hcall.name).runAt_bind, (Returns.lift hlist).runAt_bind, hcall.bare, hoperands,
    hidiom.runAt_bind, plainCall, runAt_bind]
  rw [argumentsOf] at hargs
  rw [hargs]
  dsimp only
  rw [hsymbols.runAt_bind, length_lowerAll hargs, hresolves]
  -- The call is not ambiguous, so that nothing is noted and no comment is put in front.
  have hnote : (noteAll []).Returns c t₁ () := by
    change (Except.ok (), { t₁ with log := t₁.log ++ [] }) = _
    rw [append_nil]
  refine hnote.bind (Returns.bind (returns_selfCall hreceiver o values.values) ?_)
  rfl

end Lower

end

section

/-- A call of a method on the instance that the interface lists, or of a function of the file. -/
inductive CallDefined (file : Code.SourceFile) (i : Code.Interface) : Expr → Prop
  | method {name : String} (args : List Expr) (h : name ∈ i.methods.map MethodSpec.name) :
      CallDefined file i (.call (.field (.var "this") name) args false)
  | function {f : Code.Function} (args : List Expr) (h : .function f ∈ file.functions) :
      CallDefined file i (.callNamed f.name args false)

variable {o : Overload}

lemma callDefined_static_iff (hstatic : o.isStatic = true) :
    CallDefined file i (defaultCall o args) ↔
      ∃ f, .function f ∈ file.functions ∧ f.name = Code.withVisibility o.name o.isPublic := by
  rw [defaultCall, if_pos hstatic]
  constructor
  · intro h
    generalize hname : Code.withVisibility o.name o.isPublic = name at h
    cases h with
    | function _ hf => exact ⟨_, hf, rfl⟩
  · rintro ⟨f, hf, hname⟩
    exact hname ▸ .function args hf

lemma callDefined_instance_iff (hinstance : o.isStatic = false) :
    CallDefined file i (defaultCall o args) ↔
      Code.exported o.name ∈ i.methods.map MethodSpec.name := by
  rw [defaultCall, if_neg (by simp [hinstance])]
  constructor
  · rintro (⟨-, hlisted⟩ | -)
    exact hlisted
  · exact .method args

end

namespace Build

/-- The function that a member of an interface becomes. -/
def bodyRecord (s : Symbols) (m : Node) : Option MethodRecord :=
  if (m.fieldChild? "body").isSome then instanceRecord s m else none

variable {go : Node → Build Unit}

lemma exists_added_of_bodyRecord {call : Call}
    (hbody : call.body = ⟨Unit, interfaceMember go shape place call.node⟩)
    (hreturned : call.Returned c) {record : MethodRecord}
    (hrecord : bodyRecord c.symbols call.node = some record) :
    ∃ f : Code.Function, f.name = shape.name ++ c.symbols.emittedName true record
      ∧ call.added c .functions = [.function f] := by
  unfold bodyRecord at hrecord
  split at hrecord
  · next hdefault =>
      obtain ⟨hkind, hfind, hinstance⟩ := instanceRecord_eq_some_iff.1 hrecord
      obtain ⟨u, d', hrun, hafter⟩ := hreturned.exists_run hbody
      simp only [interfaceMember, hkind] at hrun
      obtain ⟨t, f, rfl, hname⟩ := (listedAs_of_record hfind hinstance).default rfl hdefault hrun
      refine ⟨f, ?_, Call.added_eq ?_⟩
      · rw [hname, Symbols.emittedName, Bool.or_true]
        rfl
      · rw [hafter, Draft.standing_add_eq_append, if_pos rfl, Draft.standing_withTrail,
          Draft.standing_openMember]
  · cases hrecord

end Build

section

variable {mode : Mode} {unit : CompilationUnit} {call : Call} {shape : InterfaceShape}

namespace Call.DeclaresInterface

variable (h : call.DeclaresInterface unit.context shape)
variable (hclean : (convert .tolerant unit).draft.diagnostics = [])
variable (hcall : call ∈ unit.calls)
include h hclean hcall

lemma exists_listed :
    ∃ i : Code.Interface, .interface i ∈ (convert .tolerant unit).draft.file.interfaces
      ∧ i.name = shape.name
      ∧ i.methods.map MethodSpec.name
        = (call.node.bodyMembers.filterMap (Build.signatureRecord unit.context.symbols)).map
          (unit.context.symbols.emittedName true) := by
  have hreturned := returned_of_diagnostics_eq_nil hclean
  obtain ⟨height, hbody⟩ := h.exists_interface (hreturned call hcall)
  obtain ⟨i, hname, hi, hmethods⟩ :=
    Build.exists_listed_of_interface (Build.convertsTypes_free _ height) hbody h.shape
      (hreturned call hcall) fun k hk => hreturned k (mem_calls_of_mem_own hcall hk)
  have hfile := getElem?_file_of_call hclean hcall (Nat.le_refl _) hi
  exact ⟨i, mem_of_getElem? hfile, hname, hmethods⟩

lemma exists_function (hm : m ∈ call.node.bodyMembers)
    (hrecord : Build.bodyRecord unit.context.symbols m = some record) :
    ∃ f : Code.Function, .function f ∈ (convert .tolerant unit).draft.file.functions
      ∧ f.name = shape.name ++ unit.context.symbols.emittedName true record := by
  have hreturned := returned_of_diagnostics_eq_nil hclean
  obtain ⟨height, hbody⟩ := h.exists_interface (hreturned call hcall)
  obtain ⟨u, d', hrun, -⟩ := (hreturned call hcall).exists_run hbody
  obtain ⟨embeds, -, hconverts⟩ := Build.exists_of_interface hrun h.shape
  rw [← Build.Converts.map_node hconverts] at hm
  obtain ⟨k, hk, rfl⟩ := mem_map.1 hm
  have hmem : k ∈ unit.calls := by
    refine mem_calls_of_mem_own hcall ?_
    rwa [Call.own_of_body hbody]
  obtain ⟨f, hname, hadded⟩ := Build.exists_added_of_bodyRecord
    (Build.Converts.body_of_mem hconverts hk) (hreturned k hmem) hrecord
  exact ⟨f, mem_file_of_added hclean hmem (hadded ▸ mem_cons_self), hname⟩

end Call.DeclaresInterface

/-- Let a unit be converted without diagnostics.  Then the Go interface of each of its interfaces
lists the methods without a body that are not static, and the file has a function for each default
method.  A call by name alone that refers to an overload without ambiguity is lowered as soon as its
arguments are.  If the overload is that of a method of instances, the call is defined exactly when a
method without a body has its Go name; if it is static, exactly when the file has a function of that
name. -/
theorem self_call_defined_iff (hok : (convert mode unit).outcome = .ok ())
    (hclean : (convert mode unit).draft.diagnostics = []) (hcall : call ∈ unit.calls)
    (hinterface : call.DeclaresInterface unit.context shape) :
    ∃ i : Code.Interface, .interface i ∈ (convert mode unit).draft.file.interfaces
      ∧ i.name = shape.name
      ∧ i.methods.map MethodSpec.name
        = (call.node.bodyMembers.filterMap (Build.signatureRecord unit.context.symbols)).map
          (unit.context.symbols.emittedName true)
      ∧ (∀ record ∈ call.node.bodyMembers.filterMap (Build.bodyRecord unit.context.symbols),
          ∃ f : Code.Function, .function f ∈ (convert mode unit).draft.file.functions
            ∧ f.name = shape.name ++ unit.context.symbols.emittedName true record)
      ∧ ∀ (record : MethodRecord) (k : Context) (t t₁ : Trail) (node : Node) (args : List Node)
          (values : LoweredList),
          k.receiver = shape.receiver → k.symbols = unit.context.symbols →
          node.BareCall record.javaName args →
          k.symbols.resolveMethod record.javaName args.length
            = ⟨k.symbols.methodName record, some (k.symbols.methodOverload record), false⟩ →
          (Lower.argumentsOf node args).runAt k t = (.ok values, t₁) →
          ∃ value, (Lower.expression node).runAt k t = (.ok ⟨value, values.before⟩, t₁)
            ∧ ((k.symbols.methodOverload record).isStatic = false →
                (CallDefined (convert mode unit).draft.file i value ↔
                  ∃ r ∈ call.node.bodyMembers.filterMap (Build.signatureRecord k.symbols),
                    k.symbols.emittedName true r = k.symbols.emittedName true record))
            ∧ ((k.symbols.methodOverload record).isStatic = true →
                (CallDefined (convert mode unit).draft.file i value ↔
                  ∃ f : Code.Function, .function f ∈ (convert mode unit).draft.file.functions
                    ∧ f.name = k.symbols.emittedName false record)) := by
  rw [convert_eq_tolerant_of_ok hok] at hclean ⊢
  obtain ⟨i, hmem, hname, hmethods⟩ := hinterface.exists_listed hclean hcall
  refine ⟨i, hmem, hname, hmethods, ?_, ?_⟩
  · intro record hrecord
    obtain ⟨m, hm, hbody⟩ := List.mem_filterMap.1 hrecord
    exact hinterface.exists_function hclean hcall hm hbody
  · intro record k t t₁ node args values hreceiver hsymbols hbare hresolves hargs
    have hrun := Lower.runAt_bareCall hreceiver hbare hresolves hargs
    refine ⟨_, hrun, fun hinstance => ?_, fun hstatic => ?_⟩
    · rw [callDefined_instance_iff hinstance, hmethods, List.mem_map, ← hsymbols]
      simp only [Symbols.emittedName, Bool.or_true]
      rfl
    · rw [callDefined_static_iff hstatic]
      simp only [Symbols.emittedName, Bool.or_false]
      rfl

end

def stringMethod (number : Nat) (modifiers : List Node) (name : String) (body : List Node) : Node :=
  .tree number .methodDeclaration
    (modifiers
      ++ [.plain (number + 1) .typeIdentifier (some "type") "String" [],
          .called (number + 2) name,
          .parameterList (number + 3) []]
      ++ body)

def returning (number : Nat) (value : Node) : List Node :=
  [.body number
    [.tree (number + 1) .returnStatement [value]]]

def defaultModifiers (number : Nat) : List Node :=
  [.tree number .modifiers [.leaf (number + 1) .defaultWord "default"]]

def nameCall : Node :=
  .tree 40 .methodInvocation
    [.called 41 "name",
     .plain 42 (.other "argument_list") (some "arguments") "" []]

lemma nameCall_bare : nameCall.BareCall "name" [] where
  kind := rfl
  name := rfl
  bare := rfl
  arguments := ⟨_, rfl, rfl⟩

/-- `name` with a body. -/
def defaultName : Node :=
  stringMethod 10 (defaultModifiers 15) "name"
    (returning 20 (.leaf 22 .stringLiteral "\"x\""))

/-- `name` without a body. -/
def abstractName : Node :=
  stringMethod 10 [] "name" []

/-- The interface `Greeter` with the method `name`, and a default method `greet` that calls it. -/
def greeterInterface (name : Node) : Node :=
  .tree 1 .interfaceDeclaration
    [.called 2 "Greeter",
     .plain 3 (.other "interface_body") (some "body") ""
       [name, stringMethod 30 (defaultModifiers 34) "greet" (returning 36 nameCall)]]

def greetingUnit (name : Node) : CompilationUnit :=
  .ofTypes [greeterInterface name]

def greeterCall (name : Node) : Call :=
  firstCall (greetingUnit name) (greeterInterface name)

def greeterShape : InterfaceShape where
  name := "Greeter"
  typeParams := []

/-- What is known in the body of `greet`. -/
def greetContext (name : Node) : Context :=
  { (greetingUnit name).context with receiver := greeterShape.receiver }

/-- What is known about `name`. -/
def nameRecord (isAbstract : Bool) : MethodRecord :=
  { javaName := "name", params := [], result := some "string", isPublic := true,
    isAbstract := isAbstract, isDefault := !isAbstract, owner := "Greeter",
    valueType := some "string" }

/-- The overload under which `name` is filed. -/
def nameOverload : Overload where
  name := "name"
  argumentTypes := []
  isPublic := true

lemma abstractName_declares :
    (greeterCall abstractName).DeclaresInterface (greetingUnit abstractName).context
      greeterShape where
  body := ⟨(greeterInterface abstractName).height, rfl⟩
  kind := rfl
  shape := by with_unfolding_all rfl

lemma defaultName_declares :
    (greeterCall defaultName).DeclaresInterface (greetingUnit defaultName).context
      greeterShape where
  body := ⟨(greeterInterface defaultName).height, rfl⟩
  kind := rfl
  shape := by with_unfolding_all rfl

/-- A method without a body is called on the instance, and the interface lists it. -/
theorem abstract_name_call_defined :
    (convert .tolerant (greetingUnit abstractName)).outcome = .ok ()
      ∧ (convert .tolerant (greetingUnit abstractName)).draft.diagnostics = []
      ∧ greeterCall abstractName ∈ (greetingUnit abstractName).calls
      ∧ (greeterCall abstractName).DeclaresInterface
          (greetingUnit abstractName).context greeterShape
      ∧ ∃ i value,
          .interface i ∈ (convert .tolerant (greetingUnit abstractName)).draft.file.interfaces
          ∧ (Lower.expression nameCall).runAt (greetContext abstractName) {} = (.ok ⟨value, []⟩, {})
          ∧ CallDefined (convert .tolerant (greetingUnit abstractName)).draft.file i value := by
  have hok : (convert .tolerant (greetingUnit abstractName)).outcome = .ok () :=
    ok_of_isOk (by decide +kernel)
  have hclean : (convert .tolerant (greetingUnit abstractName)).draft.diagnostics = [] := by
    decide +kernel
  have hmem : greeterCall abstractName ∈ (greetingUnit abstractName).calls :=
    firstCall_mem (by decide +kernel) rfl
  obtain ⟨i, hi, -, -, -, hcalls⟩ :=
    self_call_defined_iff hok hclean hmem abstractName_declares
  obtain ⟨value, hrun, hdefined, -⟩ := hcalls (nameRecord true) (greetContext abstractName) {} {}
    nameCall [] {} rfl rfl nameCall_bare (by decide +kernel) rfl
  refine ⟨hok, hclean, hmem, abstractName_declares, i, value, hi, hrun,
    (hdefined (by decide +kernel)).2 ⟨nameRecord true, ?_, rfl⟩⟩
  change nameRecord true ∈ (greeterInterface abstractName).bodyMembers.filterMap _
  decide +kernel

/-- A method with a body becomes a function, but it is called on the instance, and the interface
does not list it. -/
theorem default_name_call_undefined :
    (convert .tolerant (greetingUnit defaultName)).outcome = .ok ()
      ∧ (convert .tolerant (greetingUnit defaultName)).draft.diagnostics = []
      ∧ greeterCall defaultName ∈ (greetingUnit defaultName).calls
      ∧ (greeterCall defaultName).DeclaresInterface (greetingUnit defaultName).context greeterShape
      ∧ nameRecord false ∈ (greeterInterface defaultName).bodyMembers.filterMap
          (Build.instanceRecord (greetContext defaultName).symbols)
      ∧ (greetContext defaultName).symbols.methodOverload (nameRecord false) = nameOverload
      ∧ (greetContext defaultName).symbols.resolveMethod "name" 0
          = ⟨nameOverload.name, some nameOverload, false⟩
      ∧ (Lower.expression nameCall).runAt (greetContext defaultName) {}
          = (.ok ⟨.call (.field (.var "this") "Name") [] false, []⟩, {})
      ∧ (convert .tolerant (greetingUnit defaultName)).draft.file.interfaces.map Decl.text
          = ["type Greeter interface \x7b\x7d"]
      ∧ (convert .tolerant (greetingUnit defaultName)).draft.file.functions.map Decl.text
          = ["func GreeterName(this Greeter) string \x7b\n\t// migrated from :1:1\n"
               ++ "\treturn \"x\"\n\x7d",
             "func GreeterGreet(this Greeter) string \x7b\n\t// migrated from :1:1\n"
               ++ "\treturn this.Name()\n\x7d"]
      ∧ ∃ i, .interface i ∈ (convert .tolerant (greetingUnit defaultName)).draft.file.interfaces
          ∧ i.name = "Greeter"
          ∧ ¬ CallDefined (convert .tolerant (greetingUnit defaultName)).draft.file i
              (.call (.field (.var "this") "Name") [] false) := by
  have hok : (convert .tolerant (greetingUnit defaultName)).outcome = .ok () :=
    ok_of_isOk (by decide +kernel)
  have hclean : (convert .tolerant (greetingUnit defaultName)).draft.diagnostics = [] := by
    decide +kernel
  have hmem : greeterCall defaultName ∈ (greetingUnit defaultName).calls :=
    firstCall_mem (by decide +kernel) rfl
  obtain ⟨i, hi, hname, hmethods⟩ := defaultName_declares.exists_listed hclean hmem
  have hnone : i.methods.map MethodSpec.name = [] := by
    rw [hmethods]
    decide +kernel
  have hresolves : (greetContext defaultName).symbols.resolveMethod "name" 0
      = ⟨nameOverload.name, some nameOverload, false⟩ := by
    decide +kernel
  have hreceiver : (greetContext defaultName).receiver = greeterShape.receiver := rfl
  have hargs : (Lower.argumentsOf nameCall []).runAt (greetContext defaultName) {} = (.ok {}, {}) :=
    rfl
  refine ⟨hok, hclean, hmem, defaultName_declares, by decide +kernel, by decide +kernel, hresolves,
    Lower.runAt_bareCall hreceiver nameCall_bare hresolves hargs, by decide +kernel,
    by decide +kernel, i, hi, hname, ?_⟩
  rintro (⟨-, hlisted⟩ | -)
  rw [hnone] at hlisted
  cases hlisted

end JavaToGo
