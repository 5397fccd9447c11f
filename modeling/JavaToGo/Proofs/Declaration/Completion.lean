import JavaToGo.Proofs.Declaration.EmittedMethods

/-!
# Classes below abstract ones are complete

A method of an abstract class above is provided by the class itself, by a wrapper
around an inherited default method, or by a body that panics.
-/

namespace JavaToGo

open List

/-- A method with this receiver and the name of the record is written. -/
def Provided (s : Symbols) (receiverType : String) (methods : List Code.Decl)
    (record : MethodRecord) : Prop :=
  ∃ f, .function f ∈ methods ∧ f.receiver.map Code.Param.type = some receiverType
    ∧ f.name = Code.exported (s.methodName record)
    ∧ paramTypes f.params = paramTypes record.params

lemma Provided.mono (h : Provided s receiverType methods record)
    (hsub : ∀ f, .function f ∈ methods → .function f ∈ methods') :
    Provided s receiverType methods' record := by
  obtain ⟨f, hf, hrest⟩ := h
  exact ⟨f, hsub f hf, hrest⟩

lemma Provided.of_key (h : Provided s receiverType methods r) (hfiled : s.MethodsFiled root)
    (hr : s.methodRecords.find? number = some r) (hr' : s.methodRecords.find? number' = some r')
    (hkey : Build.methodKey r' = Build.methodKey r) : Provided s receiverType methods r' := by
  obtain ⟨f, hf, hreceiver, hname, hparams⟩ := h
  obtain ⟨hjava, htypes⟩ := Prod.mk.inj hkey
  have hoverload := (hfiled.shares hr hr' hjava.symm htypes.symm).2
  refine ⟨f, hf, hreceiver, ?_, hparams.trans htypes.symm⟩
  rw [hname, Symbols.methodName, Symbols.methodName, hoverload]

namespace Build

/-- The class declares a static method with this key. -/
def HasStatic (c : Context) (node : Node) (key : MethodKey) : Prop :=
  ∃ m ∈ node.bodyMembers, m.kind = .methodDeclaration
    ∧ ∃ own, c.symbols.methodRecords.find? m.id = some own ∧ own.isStatic = true
      ∧ methodKey own = key

lemma hasStatic_of_mem {c : Context} (hown : own ∈ methodRecordsOf c.symbols node)
    (hstatic : own.isStatic = true) : HasStatic c node (methodKey own) := by
  obtain ⟨m, hm, hfind⟩ := mem_filterMap.1 hown
  split at hfind
  · next hkind => exact ⟨m, hm, hkind, own, hfind, hstatic, rfl⟩
  · cases hfind

variable {go : Node → Build Unit}

lemma provided_of_concreteClass (hgo : ConvertsTypes (.free c) go) {call : Call}
    (hbody : call.body = ⟨Unit, concreteClass go call.node⟩)
    (hshape : ClassShape.ofNode c.toTypeContext call.node = .ok shape) (hreturned : call.Returned c)
    (hown : ∀ k ∈ call.own c, k.Returned c) (hfiled : c.symbols.MethodsFiled root)
    (hlayout : layout ∈ shape.ancestry)
    (hnumber : number ∈ layout.defaultMethods ++ layout.abstractMethods) :
    ∃ record, c.symbols.methodRecords.find? number = some record
      ∧ (HasStatic c call.node (methodKey record)
          ∨ Provided c.symbols ("*" ++ shape.structType) (call.added c .methods) record) := by
  obtain ⟨own, rest, hrecorded, hwritten, hperm⟩ :=
    exists_perm_of_concreteClass hgo hbody hshape hreturned hown
  have hpassed : number ∈ passedNumbers shape.ancestry := mem_flatMap.2 ⟨layout, hlayout, hnumber⟩
  obtain ⟨record, hfind⟩ := hrecorded number hpassed
  refine ⟨record, hfind, ?_⟩
  have hextends : shape.extendsAbstract = true := by
    simpa [ClassShape.extendsAbstract] using ne_nil_of_mem hlayout
  -- What is written for a record provides every method with its key.
  have hprovides : ∀ other ∈ writtenRecords c.symbols shape, methodKey other = methodKey record →
      Provided c.symbols ("*" ++ shape.structType) (call.added c .methods) record := by
    intro other hother hkey
    obtain ⟨f, hf, hname, hreceiver, hparams⟩ := exists_writtenAs hwritten hother
    obtain ⟨number', hfind'⟩ := exists_find?_of_mem_writtenRecords hother
    rw [hextends, Symbols.emittedName, Bool.or_true] at hname
    refine Provided.of_key ⟨f, hperm.mem_iff.2 ?_, hreceiver, hname, by rw [hparams]⟩ hfiled hfind'
      hfind hkey.symm
    exact mem_append_left _ (mem_map_of_mem hf)
  have hkey : methodKey record ∈ (methodRecordsOf c.symbols shape.node).map methodKey
      ++ (takenOver _ (passedRecords c.symbols shape.ancestry)).map methodKey :=
    mem_keys_takenOver (mem_filterMap.2 ⟨number, hpassed, hfind⟩)
  rcases mem_append.1 hkey with hdeclared | htaken
  · obtain ⟨other, hother, hsame⟩ := mem_map.1 hdeclared
    cases hstatic : other.isStatic with
    | true =>
      rw [(eq_of_ofNode hshape).1] at hother
      exact .inl (hsame ▸ hasStatic_of_mem hother hstatic)
    | false =>
      refine .inr (hprovides other (mem_append_left _ ?_) hsame)
      exact mem_filter.2 ⟨hother, by simp [hstatic]⟩
  · obtain ⟨other, hother, hsame⟩ := mem_map.1 htaken
    exact .inr (hprovides other (mem_append_right _ hother) hsame)

end Build

/-- The call converts a class that is not abstract and reports nothing. -/
structure Call.ConvertsClass (c : Context) (call : Call) (shape : ClassShape) : Prop
    extends call.DeclaresClass c shape where
  silent : (call.after c).diagnostics = call.before.diagnostics

lemma Call.ConvertsClass.provided {c : Context} {call : Call} {shape : ClassShape}
    (h : call.ConvertsClass c shape) (hfiled : c.symbols.MethodsFiled root) {layout : Layout}
    (habove : Above c.symbols.layouts shape.superclass layout) {number : Nat}
    (hnumber : number ∈ layout.defaultMethods ++ layout.abstractMethods) :
    ∃ record, c.symbols.methodRecords.find? number = some record
      ∧ (Build.HasStatic c call.node (Build.methodKey record)
          ∨ Provided c.symbols ("*" ++ shape.structType) (call.added c .methods) record) := by
  obtain ⟨hreturned, hinside⟩ := Call.returned_of_silent h.silent
  obtain ⟨height, hbody⟩ := h.toDeclaresClass.exists_concreteClass hreturned
  have hlayout : layout ∈ shape.ancestry := by
    rw [(Build.eq_of_ofNode h.shape).2]
    exact mem_ancestry_iff.2 habove
  exact Build.provided_of_concreteClass (Build.convertsTypes_free _ height) hbody h.shape hreturned
    (fun k hk => hinside k (Call.own_subset_calls.1 hk)) hfiled hlayout hnumber

/-- Let the call that converts a class report nothing and stand in no call that fails: then every
method of every abstract class above it has a record, and the file holds a method with the receiver
of the class, its exported name and its parameter types, unless the class itself has a static method
with that Java name and these parameter types. -/
theorem subclass_provides_methods_above {mode : Mode} {unit : CompilationUnit}
    (hok : (convert mode unit).outcome = .ok ()) {call : Call}
    (hcall : call ∈ unit.keptCalls) {shape : ClassShape}
    (hclass : call.ConvertsClass unit.context shape) {layout : Layout}
    (habove : Above unit.context.symbols.layouts shape.superclass layout) {number : Nat}
    (hnumber : number ∈ layout.defaultMethods ++ layout.abstractMethods) :
    ∃ record, unit.context.symbols.methodRecords.find? number = some record
      ∧ (¬ Build.HasStatic unit.context call.node (Build.methodKey record) →
          Provided unit.context.symbols ("*" ++ shape.structType)
            (convert mode unit).draft.file.methods record) := by
  obtain ⟨record, hfind, hprovided⟩ :=
    hclass.provided (methodsFiled_analyze .tolerant unit []) habove hnumber
  refine ⟨record, hfind, ?_⟩
  intro hstatic
  rw [convert_eq_tolerant_of_ok hok]
  rcases hprovided with hexcused | hprovided
  · exact absurd hexcused hstatic
  · exact hprovided.mono fun f hf =>
      List.mem_of_mem_drop ((added_isPrefix_convert hcall .methods).subset hf)

/-- The class `abstract class Task` with a method `run`. -/
def taskClass : Node :=
  .plainClass 10 (abstractModifiers 13) "Task" []
    [.plainMethod 15 "run" [] []]

/-- The class `Job extends Task` without members. -/
def jobClass : Node :=
  .plainClass 20 [] "Job"
    [.plain 23 (.other "superclass") (some "superclass") ""
      [.leaf 24 .typeIdentifier "Task"]] []

/-- The clause `implements Queue<String, Integer>`; a queue takes only one type. -/
def queueOfTwo : Node :=
  .plain 30 (.other "super_interfaces") (some "interfaces") ""
    [.tree 31 .typeList
      [.plain 32 .genericType none "Queue<String, Integer>"
        [.leaf 33 .typeIdentifier "Queue",
         .tree 34 .typeArguments
           [.leaf 35 .typeIdentifier "String",
            .leaf 36 .typeIdentifier "Integer"]]]]

/-- The class `Job` inside a class `Jobs` with the given clauses. -/
def jobsUnit (clauses : List Node) : CompilationUnit :=
  .ofTypes [taskClass, .plainClass 40 [] "Jobs" clauses [jobClass]]

def taskLayout : Layout :=
  { name := "Task", defaultMethods := [15] }

def jobShape : ClassShape where
  node := jobClass
  javaName := "Job"
  name := "Job"
  isPublic := true
  typeParams := []
  superclass := some "Task"
  ancestry := [taskLayout]

def runRecord : MethodRecord :=
  { javaName := "run", params := [], result := none, isPublic := true, owner := "Task" }

lemma not_hasStatic_of_isEmpty {node : Node} (hempty : node.bodyMembers.isEmpty = true)
    (c : Context) (key : Build.MethodKey) : ¬ Build.HasStatic c node key := by
  rintro ⟨m, hm, -⟩
  rw [List.isEmpty_iff.1 hempty] at hm
  cases hm

/-- The call that converts the class `Job` where nothing around it fails. -/
def keptJobCall : Call :=
  (jobsUnit []).keptCalls.get ⟨4, by decide +kernel⟩

lemma keptJobCall_convertsClass :
    keptJobCall.ConvertsClass (jobsUnit []).context jobShape where
  body := ⟨4, by with_unfolding_all rfl⟩
  kind := by decide +kernel
  concrete := by decide +kernel
  shape := by with_unfolding_all rfl
  silent := by decide +kernel

theorem keptJob_provides_run :
    keptJobCall ∈ (jobsUnit []).keptCalls
      ∧ keptJobCall.ConvertsClass (jobsUnit []).context jobShape
      ∧ Provided (jobsUnit []).context.symbols "*Job"
          (convert .strict (jobsUnit [])).draft.file.methods runRecord := by
  have hok : (convert .strict (jobsUnit [])).outcome = .ok () :=
    ok_of_isOk (by decide +kernel)
  have hmem : keptJobCall ∈ (jobsUnit []).keptCalls := List.get_mem _ _
  have habove : Above (jobsUnit []).context.symbols.layouts jobShape.superclass taskLayout :=
    .here (by decide +kernel)
  have hrun : (jobsUnit []).context.symbols.methodRecords.find? 15 = some runRecord := by
    decide +kernel
  obtain ⟨record, hfind, hprovided⟩ :=
    subclass_provides_methods_above hok hmem keptJobCall_convertsClass habove List.mem_cons_self
  obtain rfl : runRecord = record := Option.some.inj (hrun.symm.trans hfind)
  have hempty : keptJobCall.node.bodyMembers.isEmpty = true := by decide +kernel
  have hstatic := not_hasStatic_of_isEmpty hempty (jobsUnit []).context (Build.methodKey runRecord)
  exact ⟨hmem, keptJobCall_convertsClass, hprovided hstatic⟩

/-- The call that converts the class `Job` in a class that cannot be converted. -/
def droppedJobCall : Call :=
  (jobsUnit [queueOfTwo]).calls.get ⟨4, by decide +kernel⟩

lemma droppedJobCall_convertsClass :
    droppedJobCall.ConvertsClass (jobsUnit [queueOfTwo]).context jobShape where
  body := ⟨5, by with_unfolding_all rfl⟩
  kind := by decide +kernel
  concrete := by decide +kernel
  shape := by with_unfolding_all rfl
  silent := by decide +kernel

def receiverType? : Code.Decl → Option String
  | .function f => f.receiver.map Code.Param.type
  | _ => none

/-- What a class provides goes with the class around it. -/
theorem droppedJob_lacks_run :
    ∃ call ∈ (jobsUnit [queueOfTwo]).calls, ∃ shape layout number record,
      call.ConvertsClass (jobsUnit [queueOfTwo]).context shape
        ∧ Above (jobsUnit [queueOfTwo]).context.symbols.layouts shape.superclass layout
        ∧ number ∈ layout.defaultMethods ++ layout.abstractMethods
        ∧ (jobsUnit [queueOfTwo]).context.symbols.methodRecords.find? number = some record
        ∧ ¬ Build.HasStatic (jobsUnit [queueOfTwo]).context call.node (Build.methodKey record)
        ∧ (convert .tolerant (jobsUnit [queueOfTwo])).outcome = .ok ()
        ∧ ¬ Provided (jobsUnit [queueOfTwo]).context.symbols ("*" ++ shape.structType)
            (convert .tolerant (jobsUnit [queueOfTwo])).draft.file.methods record := by
  have habove : Above (jobsUnit [queueOfTwo]).context.symbols.layouts
      jobShape.superclass taskLayout :=
    .here (by decide +kernel)
  have hreceivers : (convert .tolerant (jobsUnit [queueOfTwo])).draft.file.methods.all
      (fun d => receiverType? d != some "*Job") = true := by
    decide +kernel
  refine ⟨droppedJobCall, List.get_mem _ _, jobShape, taskLayout, 15, runRecord,
    droppedJobCall_convertsClass, habove, List.mem_cons_self, by decide +kernel,
    ?_, ok_of_isOk (by decide +kernel), ?_⟩
  · exact not_hasStatic_of_isEmpty (by decide +kernel) _ _
  · rintro ⟨f, hf, hreceiver, -⟩
    have hne := List.all_eq_true.1 hreceivers _ hf
    simp only [receiverType?, hreceiver] at hne
    exact absurd hne (by decide +kernel)

end JavaToGo
