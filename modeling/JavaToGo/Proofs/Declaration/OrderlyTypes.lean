import JavaToGo.Proofs.Declaration.Lookups
import JavaToGo.Proofs.Declaration.MethodNames
import JavaToGo.Proofs.Declaration.Orderly

/-!
# The conversion of declarations is orderly

A type makes grow only what it has put down itself, and its members only what the
type hands to them.
-/

namespace JavaToGo

open Code (Stmt)
open List Lower

variable (fields : List DeclaredField) (typeParams : List String)

namespace Lower

lemma apart_method {node : Node} {c : Context} (hkind : node.kind = .methodDeclaration)
    (h : ∀ p ∈ param, ∀ record, Build.instanceRecord c.symbols node = some record →
      ∀ q ∈ record.params, q.name ≠ p.name)
    (hrun : (method node r param exports).runAt c t = (.ok f, t')) : f.Apart := by
  simp only [method, runAt_bind_eq_ok, runAt_lift_eq_ok] at hrun
  obtain ⟨s, t₁, ⟨⟩, record, t₂, ⟨hrecord, -⟩, hbody⟩ := hrun
  have hfind := Symbols.find?_of_recorded hrecord
  cases hparam : if record.isStatic then none else param with
  | none =>
    rw [hparam] at hbody
    exact .of_none (gives_staticMethod node record _ _ _ _ _ _ hbody).2
  | some p =>
    rw [hparam] at hbody
    obtain ⟨hstatic, rfl⟩ : record.isStatic = false ∧ param = some p := by
      cases hstatic : record.isStatic <;> simp_all
    obtain ⟨-, hparams, hreceiver⟩ := gives_instanceMethod node record _ _ r p _ _ _ _ hbody
    intro q hq
    obtain rfl := Option.some.inj (hreceiver.symm.trans hq)
    rw [hparams]
    exact h p rfl record (Build.instanceRecord_eq_some_iff.2 ⟨hkind, hfind, hstatic⟩)

lemma gives_receiver_constructor (node : Node) (structType : String) (r : Receiver) :
    (constructor node structType r fields typeParams).Gives fun f => f.receiver = none :=
  .bind fun _ _ _ _ _ => .bind fun _ _ _ _ _ => .bind fun _ _ _ _ _ => .bind fun _ _ _ _ _ =>
    .bind fun _ _ _ _ _ => .pure rfl

lemma gives_receiver_defaultConstructor (javaName structType : String) (r : Receiver)
    (isPublic : Bool) :
    (defaultConstructor javaName structType r fields isPublic typeParams).Gives
      fun f => f.receiver = none :=
  .bind fun _ _ _ _ _ => .bind fun _ _ _ _ _ => .pure rfl

lemma gives_receiver_staticInitializer (node : Node) :
    (staticInitializer node).Gives fun f => f.receiver = none := by
  unfold staticInitializer
  split
  · intro c t f t' hrun
    cases hrun
  · exact .bind fun _ _ _ _ _ => .bind fun _ _ _ _ _ => .pure rfl

end Lower

namespace Build

/-- Below the node everything that is looked up has a record or a refusal, no try has several final
blocks, and no parameter the name of a receiver, as far as the terms ask for it. -/
structure Proper (T : Terms) (node : Node) : Prop where
  recorded : node.Everywhere (Recorded T.lost T.context)
  finals : T.single → node.SingleFinally
  apart : T.apart → node.Everywhere fun n => namedApart T.context n = true

variable {T : Terms} {node : Node} {held : Held}

variable (T) in
def MethodApart (name : String) (m : Node) : Prop :=
  T.apart → ∀ record, instanceRecord T.context.symbols m = some record →
    ∀ q ∈ record.params, q.name ≠ name

lemma MethodApart.of_spares {name : String} {nodes : List Node} {more : List MethodRecord}
    (h : T.apart →
      spares name (nodes.filterMap (instanceRecord T.context.symbols) ++ more) = true) {m : Node}
    (hm : m ∈ nodes) : MethodApart T name m :=
  fun hapart _ hrecord => ne_of_spares (h hapart)
    (mem_append_left _ (mem_filterMap.2 ⟨m, hm, hrecord⟩))

namespace Proper

lemma free (c : Context) (node : Node) : Proper (.free c) node :=
  ⟨fun _ _ => ⟨fun _ => .inl trivial, fun _ => .inl trivial, fun _ _ _ => .inl trivial⟩,
    False.elim, False.elim⟩

section

variable (h : Proper T node)
include h

lemma child (hn : n ∈ node.children) : Proper T n :=
  ⟨h.recorded.child hn, fun hsingle => (h.finals hsingle).child hn,
    fun hapart => (h.apart hapart).child hn⟩

lemma member {n : Node} (hn : n ∈ node.bodyMembers) : Proper T n :=
  ⟨h.recorded.member hn, fun hsingle => (h.finals hsingle).member hn,
    fun hapart => (h.apart hapart).member hn⟩

lemma addMethod (hkind : node.kind = .methodDeclaration) (r : Receiver)
    (exports : Bool) (hapart : ∀ p ∈ param, MethodApart T p.name node) :
    (lower (method node r param exports) >>= addFunction).Conforms T held :=
  .lowerFunction
    (.function (written_method (h.recorded.here.method hkind) h.finals r param exports))
    fun _ _ _ hrun hnamed => apart_method hkind (fun p hp => hapart p hp hnamed) hrun

lemma addMethodWithin (hkind : node.kind = .methodDeclaration)
    (typeParams : List String) (r : Receiver) (exports : Bool)
    (hapart : ∀ p ∈ param, MethodApart T p.name node) :
    (lower (withTypeParams typeParams (method node r param exports))
      >>= addFunction).Conforms T held := by
  refine .lowerFunction (.function (.withReader (written_method ?_ h.finals r param exports)))
    fun _ _ _ hrun hnamed => ?_
  · exact h.recorded.here.method hkind
  · let inner : Context :=
      { T.context with toTypeContext := T.context.toTypeContext.withTypeParams typeParams }
    exact apart_method (c := inner) hkind (fun p hp => hapart p hp hnamed) hrun

lemma addConstructor (hkind : node.kind = .constructorDeclaration)
    (structType : String) (r : Receiver) (fields : List DeclaredField) (typeParams : List String) :
    (lower (constructor node structType r fields typeParams) >>= addFunction).Conforms T
      held :=
  .lowerFunction (.function (written_constructor (h.recorded.here.constructor hkind) h.finals
    structType r fields typeParams)) fun _ _ _ hrun _ =>
      .of_none (gives_receiver_constructor _ _ _ _ _ _ _ _ _ hrun)

lemma addStaticInitializer : (lower (staticInitializer node) >>= addFunction).Conforms T held :=
  .lowerFunction (.function (written_staticInitializer h.finals)) fun _ _ _ hrun _ =>
    .of_none (gives_receiver_staticInitializer _ _ _ _ _ hrun)

end

end Proper

lemma conforms_addFieldVariable (f : DeclaredField) {next : Build Unit}
    (hnext : next.Conforms T held) :
    (do addVars [← lower (fieldVariable f)]; next).Conforms T held :=
  .lower (.value (.field f)) fun v => .bind (.addVar v) fun _ => hnext

lemma conforms_addFieldVariables (fields : List DeclaredField) :
    (addFieldVariables fields).Conforms T held := by
  induction fields with
  | nil => rfl
  | cons f fields ih => exact conforms_addFieldVariable f ih

lemma conforms_addStaticFields : (addStaticFields fields).Conforms T held := by
  induction fields with
  | nil => rfl
  | cons f fields ih =>
    rw [addStaticFields]
    split
    · exact conforms_addFieldVariable f ih
    · exact ih

lemma conforms_constantFields (node : Node) :
    (lower (declaredFields node) >>= addFieldVariables).Conforms T held :=
  .lower (.asks (asks_declaredFields node)) conforms_addFieldVariables

lemma handed_structFields {place : Place} (hplace : held .types place) (node : Node) :
    Handed T held node (structFields (some place) node) := by
  refine ⟨.inl (growsLast_structFields place node), ?_⟩
  refine .lower (.asks (asks_declaredFields node)) fun fields => ?_
  exact .bind (conforms_addStaticFields fields) fun _ => .bind (.addFields hplace _) fun _ => rfl

lemma conforms_addInterfaceChecks (node : Node) (value : String) :
    (addInterfaceChecks node value).Conforms T held := by
  refine .bind (.context ?_) fun interfaces => .addPlainVars fun v hv => ?_
  · have h := faults_implementedInterfaces T.context.toTypeContext node
    revert h
    cases implementedInterfaces T.context.toTypeContext node with
    | ok => exact fun _ => rfl
    | error => exact fun h f hf => .inr (h f (congrArg Except.error hf))
  · obtain ⟨i, -, rfl⟩ := mem_map.1 hv
    rfl

lemma conforms_checkStruct (node : Node) (structName : String) (typeParams : List String) :
    (checkStruct node structName typeParams).Conforms T held := by
  unfold checkStruct
  split
  · exact conforms_addInterfaceChecks node _
  · rfl

lemma conforms_eachMember {α : Type} {owner : String} {convert : Node → Build α}
    {nodes : List Node} (h : ∀ node ∈ nodes, Handed T held node (convert node)) :
    (eachMember owner convert nodes).Conforms T held := by
  induction nodes with
  | nil => rfl
  | cons node nodes ih =>
    obtain ⟨hnode, hrest⟩ := forall_mem_cons.1 h
    refine .lift (faults_memberLocation owner node) fun location _ => ?_
    exact .member hnode fun converted => .bind (ih hrest) fun rest => rfl

variable (T) in
def ConvertsTypes (go : Node → Build Unit) : Prop :=
  ∀ node, Proper T node → ∀ held, (go node).Conforms T held

section

variable (hnumbers : NumbersRecorded T.lost T.context)

lemma orderly_methodNumbered {f : MethodRecord × String → Build (List MethodKey)}
    (h : ∀ node, T.context.unit.root.find? number = some node →
      T.lost ∨ Faults Fault.IsOther (T.context.symbols.requireMethod node))
    (hf : ∀ record name, T.context.symbols.methodRecords.find? number = some record →
      (f (record, name)).Conforms T held) : (methodNumbered number >>= f).Conforms T held := by
  refine .contextThen ?_
  split
  · intro f hf
    cases hf
    exact .inr (by simp [Fault.IsOther, Fault.kind])
  · rename_i node hnode
    refine .lookupThen (h node hnode) fun record hrecord => hf record _ ?_
    rw [← Tree.Node.id_of_find? hnode]
    exact Symbols.find?_of_recorded hrecord

lemma conforms_addInherited {make : String → MethodRecord → Code.Function}
    (hmake : ∀ name record, (make name record).marks = 0)
    (h : ∀ number ∈ numbers, ∀ node, T.context.unit.root.find? number = some node →
      T.lost ∨ Faults Fault.IsOther (T.context.symbols.requireMethod node))
    (hapart : T.apart → ∀ number ∈ numbers, ∀ record,
      T.context.symbols.methodRecords.find? number = some record →
        ∀ name, (make name record).Apart) (declared : List MethodKey) :
    (addInherited make declared numbers).Conforms T held := by
  induction numbers generalizing declared with
  | nil => rfl
  | cons number numbers ih =>
    obtain ⟨hnumber, hrest⟩ := forall_mem_cons.1 h
    have hmore := fun hnamed => (forall_mem_cons.1 (hapart hnamed)).2
    refine orderly_methodNumbered hnumber fun record name hfind => ?_
    dsimp only
    split
    · exact ih hrest hmore declared
    · refine .bind (.addPlainFunction (hmake _ _) fun hnamed => ?_) fun _ => ih hrest hmore _
      exact hapart hnamed number mem_cons_self record hfind _

lemma marks_delegation (shape : ClassShape) (self holder name : String) (record : MethodRecord) :
    (delegation shape self holder name record).marks = 0 := by
  simp only [delegation]
  split <;> rfl

lemma conforms_addAncestry
    (h : ∀ layout ∈ layouts, ∀ number ∈ layout.abstractMethods ++ layout.defaultMethods,
      ∀ node, T.context.unit.root.find? number = some node →
        T.lost ∨ Faults Fault.IsOther (T.context.symbols.requireMethod node))
    (hapart : T.apart → spares self (passedRecords T.context.symbols layouts) = true)
    (declared : List MethodKey) : (addAncestry shape self declared layouts).Conforms T held := by
  induction layouts generalizing declared with
  | nil => rfl
  | cons layout layouts ih =>
    obtain ⟨hlayout, hrest⟩ := forall_mem_cons.1 h
    have hpassed : passedRecords T.context.symbols (layout :: layouts)
        = (layout.defaultMethods ++ layout.abstractMethods).filterMap
            T.context.symbols.methodRecords.find? ++ passedRecords T.context.symbols layouts := by
      rw [passedRecords, flatMap_cons, filterMap_append]
      rfl
    simp only [hpassed, spares, List.all_append, Bool.and_eq_true] at hapart
    have hnames : T.apart → ∀ number ∈ layout.defaultMethods ++ layout.abstractMethods, ∀ record,
        T.context.symbols.methodRecords.find? number = some record →
          ∀ q ∈ record.params, q.name ≠ self := fun hnamed number hnumber record hfind =>
      ne_of_spares (hapart hnamed).1 (mem_filterMap.2 ⟨number, hnumber, hfind⟩)
    refine .bind (conforms_addInherited (marks_delegation _ _ _) (fun n hn => ?_)
      (fun hnamed n hn record hfind _ r hr => ?_) declared) fun declared => ?_
    · exact hlayout n (mem_append_right _ hn)
    · cases hr
      exact hnames hnamed n (mem_append_left _ hn) record hfind
    refine .bind (conforms_addInherited (fun _ _ => rfl) (fun n hn => ?_)
      (fun hnamed n hn record hfind _ r hr => ?_) declared)
      fun declared => ih hrest (fun hnamed => (hapart hnamed).2) declared
    · exact hlayout n (mem_append_left _ hn)
    · cases hr
      exact hnames hnamed n (mem_append_right _ hn) record hfind

include hnumbers in
lemma conforms_completeAbstract (hnode : Proper T node) {shape : ClassShape}
    (hshape : ClassShape.ofNode T.context.toTypeContext node = .ok shape)
    (hapart : T.apart → ∀ self, shape.selfName = .ok self →
      spares self (passedRecords T.context.symbols shape.ancestry) = true) :
    (completeAbstract shape).Conforms T held := by
  obtain ⟨hsame, hancestry⟩ := eq_of_ofNode hshape
  refine .lift (faults_selfName shape) fun self hself => .after (.context ?_) fun declared => ?_
  · refine .lookup ?_ fun records _ => rfl
    by_cases hlost : T.lost
    · exact .inl hlost
    refine .inr (Faults.mapM fun m hm => ?_)
    rw [hsame] at hm
    obtain ⟨hmember, hkind⟩ := mem_filter.1 hm
    have hrecorded := (hnode.member hmember).recorded.here.method (by simpa using hkind)
    exact hrecorded.resolve_left hlost
  · refine .bind (conforms_addAncestry (fun layout hlayout => ?_)
      (fun hnamed => hapart hnamed self hself) declared) fun _ => ?_
    · rw [hancestry, mem_ancestry_iff] at hlayout
      obtain ⟨goName, hfind⟩ := hlayout.exists_find?
      exact hnumbers goName layout hfind
    · split
      · refine .addPlainVars fun v hv => ?_
        obtain ⟨base, -, rfl⟩ := mem_map.1 hv
        rfl
      · rfl

lemma conforms_classDefaultConstructor (shape : ClassShape) (fields : List DeclaredField) :
    (classDefaultConstructor shape fields).Conforms T held :=
  .lift (faults_selfName shape) fun _ _ =>
    .lowerFunction (.function (written_defaultConstructor _ _ _ _ _ _)) fun _ _ _ hrun _ =>
      .of_none (gives_receiver_defaultConstructor _ _ _ _ _ _ _ _ _ _ hrun)

lemma conforms_ensureConstructor {shape : ClassShape} {fields : List DeclaredField}
    {members : List Node} : (ensureConstructor shape fields members).Conforms T held := by
  unfold ensureConstructor
  split
  · rfl
  · exact .member (.confined (conforms_classDefaultConstructor shape fields)) fun _ => rfl

variable {go : Node → Build Unit} (hgo : ConvertsTypes T go)
include hgo

lemma conforms_classMember (hnode : Proper T node) (shape : ClassShape)
    (fields : List DeclaredField)
    (hapart : ∀ self, shape.selfName = .ok self → MethodApart T self node) :
    (classMember go shape fields node).Conforms T held := by
  unfold classMember
  split
  · rename_i hkind
    refine .lift (faults_selfName shape) fun self hself => hnode.addMethodWithin hkind _ _ _ ?_
    rintro _ ⟨⟩
    exact hapart self hself
  · rename_i hkind
    exact .lift (faults_selfName shape) fun _ _ => hnode.addConstructor hkind _ _ _ _
  · exact hnode.addStaticInitializer
  · rfl
  · split
    · exact hgo node hnode held
    · exact .refuse _

include hnumbers in
lemma conforms_concreteClass (hnode : Proper T node)
    (hapart : T.apart → ∀ shape, ClassShape.ofNode T.context.toTypeContext node = .ok shape →
      ∀ self, shape.selfName = .ok self →
        spares self (node.bodyMembers.filterMap (instanceRecord T.context.symbols)
          ++ passedRecords T.context.symbols shape.ancestry) = true) :
    (concreteClass go node).Conforms T held := by
  refine .context (.lift (faults_classShape _ node) fun shape hshape =>
    .addType nofun fun place => ?_)
  refine .bind (conforms_eachMember fun n _ => handed_structFields (held.mem_adding _ _ _) n)
    fun fields => ?_
  refine .bind (conforms_eachMember fun n hn => .confined (conforms_classMember hgo
    (hnode.member (mem_filter.1 hn).1) shape _ fun self hself => ?_)) fun _ => ?_
  · exact .of_spares (fun hnamed => hapart hnamed shape hshape self hself) (mem_filter.1 hn).1
  refine .bind conforms_ensureConstructor fun _ => .bind ?_ fun _ => conforms_checkStruct node _ _
  unfold ensureAbstractBase
  split
  · refine .member (.confined (conforms_completeAbstract hnumbers hnode hshape
      fun hnamed self hself => ?_)) fun _ => rfl
    have hall := hapart hnamed shape hshape self hself
    rw [spares, List.all_append, Bool.and_eq_true] at hall
    exact hall.2
  · rfl

end

section

lemma marksAll_storeComponents (shape : RecordShape) : Stmt.marksAll shape.storeComponents = 0 := by
  unfold RecordShape.storeComponents
  induction shape.parts with
  | nil => rfl
  | cons part parts ih => simpa using ih

lemma orderly_compactBody (shape : RecordShape) (hcompact : ∀ node ∈ compact, Proper T node) :
    (compactBody shape compact).Orderly T held 0 fun result => Stmt.marksAll result.1 := by
  cases compact with
  | none => rfl
  | some node =>
    refine .lower (.asks (asks_provenanceComments node)) fun comments => ?_
    refine .lower (.function (.withReader (.withReader (Lower.Kept.scoped (.lift (.require node _)
      fun body hbody => kept_block fun h => ?_) _ _)))) fun body => (Nat.zero_add _).symm
    exact ((hcompact node rfl).finals h).part hbody

lemma conforms_canonicalConstructor {shape : RecordShape} {compact : Option Node}
    (hrecord : T.lost ∨ Faults Fault.IsOther
      (T.context.symbols.requireConstructor (compact.getD shape.node)))
    (hcompact : ∀ node ∈ compact, Proper T node) :
    (canonicalConstructor shape compact).Conforms T held := by
  refine .context (.lookup hrecord fun record _ => ?_)
  refine .bind (orderly_compactBody shape hcompact) fun result => ?_
  obtain ⟨body, comments⟩ := result
  have hmarks : ∀ f : Code.Function, f.receiver = none → f.marks = Stmt.marksAll body →
      (addFunction f).Orderly T held (Stmt.marksAll body) fun _ => 0 := by
    intro f hnone hf
    rw [← hf, ← Nat.zero_add f.marks]
    exact .addFunction fun _ => .of_none hnone
  refine hmarks _ rfl ?_
  simp [Code.Function.marks, newValue, returnSelf, marksAll_storeComponents]

variable {go : Node → Build Unit} (hgo : ConvertsTypes T go) (hnode : Proper T node)
include hgo hnode

lemma conforms_recordMember (shape : RecordShape) (hapart : MethodApart T "this" node) :
    (recordMember go shape node).Conforms T held := by
  unfold recordMember
  split
  · rename_i hkind
    refine hnode.addMethodWithin hkind _ _ _ ?_
    rintro _ ⟨⟩
    exact hapart
  · rename_i hkind
    exact hnode.addConstructor hkind _ _ _ _
  · exact conforms_constantFields node
  · exact hnode.addStaticInitializer
  · rfl
  · split
    · exact hgo node hnode held
    · exact .refuse _

lemma conforms_recordMembers (hkind : node.kind = .recordDeclaration)
    (hshape : RecordShape.ofNode T.context.toTypeContext node = .ok shape)
    (hapart : ∀ m ∈ node.bodyMembers, MethodApart T "this" m) :
    (do
      ensureCanonical shape node.bodyMembers
      let _ ← eachMember shape.owner (recordMember go shape)
        (node.bodyMembers.filter fun m => !isCompact m)
      checkStruct node shape.name shape.typeParams).Conforms T held := by
  have hsought := hnode.recorded.here.canonical hkind shape hshape
  obtain rfl : shape.node = node := node_of_recordShape hshape
  refine .bind (.context ?_) fun _ => .bind (conforms_eachMember fun n hn => .confined ?_) fun _ =>
    conforms_checkStruct _ _ _
  · split
    · rfl
    · refine .member (.confined (conforms_canonicalConstructor hsought fun n hn => ?_)) fun _ => rfl
      exact hnode.member (mem_filter.1 (mem_of_getLast? hn)).1
  · have hmember := (mem_filter.1 hn).1
    exact conforms_recordMember hgo (hnode.member hmember) shape (hapart n hmember)

lemma conforms_record (hkind : node.kind = .recordDeclaration)
    (hapart : ∀ m ∈ node.bodyMembers, MethodApart T "this" m) :
    (record go node).Conforms T held :=
  .context (.lift (faults_recordShape _ node) fun _ hshape => .addType nofun fun _ =>
    conforms_recordMembers hgo hnode hkind hshape hapart)

end

section

section

variable (shape : EnumShape)

lemma conforms_rejectConstantBody (constant : Node) :
    (rejectConstantBody shape constant).Conforms T held :=
  .lift (faults_constantName shape constant) fun _ _ => .refuse _

lemma conforms_reject_bind (constant : Node) (f : Unit → Build Unit) :
    (rejectConstantBody shape constant >>= f).Conforms T held := by
  have h := faults_constantName shape constant
  unfold rejectConstantBody
  revert h
  cases shape.constantName constant with
  | ok => exact fun _ => .refuse _
  | error => exact fun h fault hfault => .inr (h fault (congrArg Except.error hfault))

lemma conforms_reportConstants (constants : List Node) :
    (reportConstants shape constants).Conforms T held := by
  induction constants with
  | nil => rfl
  | cons constant constants ih =>
    refine .after ?_ fun _ => .after ?_ fun _ => ih
    · unfold reportArguments
      split
      · exact .lift (faults_constantName shape constant) fun _ _ => .note rfl
      · rfl
    · unfold reportBody
      split
      · refine .lift (faults_memberLocation shape.owner constant) fun _ _ => ?_
        exact .member (.confined (conforms_rejectConstantBody shape constant)) fun _ => rfl
      · rfl

lemma marks_nameMethod (constants : List (String × String)) :
    (nameMethod shape constants).marks = 0 := by
  simp only [nameMethod, Code.Function.marks, Stmt.totalAll_cons, Stmt.total_switch,
    List.flatMap_map, Code.SwitchClause.body]
  induction constants with
  | nil => rfl
  | cons first rest ih => simpa using ih

lemma conforms_simpleConstants (constants : List Node) :
    (simpleConstants shape constants).Conforms T held := by
  unfold simpleConstants
  split
  · rfl
  refine .lift (Faults.mapM fun n _ => faults_constantName shape n) fun goNames _ => ?_
  refine .lift (Faults.mapM fun n _ => .requireText n _) fun javaNames _ => ?_
  refine .after ⟨0, rfl, ⟨nofun, by simp⟩, fun _ => rfl⟩ fun _ => ?_
  exact .bind (conforms_reportConstants shape constants) fun _ =>
    .addPlainFunction (marks_nameMethod shape _) fun _ _ _ q hq => (nomatch hq)

lemma conforms_statefulConstant (fields : List DeclaredField)
    (constant : Node) : (statefulConstant shape fields constant).Conforms T held := by
  have hrest : ∀ name value, (addVars [{ name := name, value := value }]).Conforms T held :=
    fun _ _ => .addPlainVars (by simp)
  unfold statefulConstant
  dsimp only
  split
  · exact conforms_reject_bind shape constant _
  split
  · refine .lift (faults_constantName shape constant) fun name _ => ?_
    split
    · exact .bind (.note rfl) fun _ => hrest _ _
    · exact hrest _ _
  · refine .lower (.value (.constant _)) fun values => ?_
    exact .lift (faults_constantName shape constant) fun name _ => hrest _ _

end

variable {go : Node → Build Unit} (hgo : ConvertsTypes T go) (hnode : Proper T node)
include hgo hnode

lemma conforms_enumMember (shape : EnumShape) (fields : List DeclaredField)
    (hapart : MethodApart T "this" node) : (enumMember go shape fields node).Conforms T held := by
  unfold enumMember
  split
  · rename_i hkind
    refine hnode.addMethod hkind _ _ ?_
    rintro _ ⟨⟩
    exact hapart
  · exact .note rfl
  · exact hnode.addStaticInitializer
  · rfl
  · split
    · exact hgo node hnode held
    · exact .refuse _

variable (hapart : ∀ m ∈ node.bodyMembers, MethodApart T "this" m)
include hapart

lemma conforms_enumMembers (shape : EnumShape) (fields : List DeclaredField)
    (hmembers : ∀ m ∈ members, m ∈ node.bodyMembers) :
    (eachMember shape.owner (enumMember go shape fields) members >>= fun _ =>
      addInterfaceChecks node ("new(" ++ shape.name ++ ")")).Conforms T held :=
  .bind (conforms_eachMember fun m hm => .confined
      (conforms_enumMember hgo (hnode.member (hmembers m hm)) shape _ (hapart m (hmembers m hm))))
    fun _ => conforms_addInterfaceChecks node _

lemma conforms_enumeration : (enumeration go node).Conforms T held := by
  refine .context (.lift (faults_enumShape _ node) fun shape _ => .addType (fun f => ?_)
    fun place => ?_)
  · unfold EnumShape.typeDecl
    split <;> exact nofun
  refine .bind (conforms_eachMember fun n _ => handed_structFields (held.mem_adding _ _ _) n)
    fun fields => ?_
  refine .lift ((Faults.require node _).bind fun _ _ => .ok _) fun constants _ => ?_
  refine .after ?_ fun _ => conforms_enumMembers hgo hnode hapart shape _
    fun m hm => (mem_filter.1 (mem_filter.1 hm).1).1
  unfold addConstants
  split
  · exact conforms_simpleConstants shape constants
  · exact .bind (conforms_eachMember fun n _ => .confined
      (conforms_statefulConstant shape _ n)) fun _ => rfl

end

section

variable {place : Place}

lemma conforms_addDefaultMethod (hnode : Proper T node) (name : String) (record : MethodRecord) :
    (addDefaultMethod shape name record node).Conforms T held := by
  refine .lower (.function (.withReader (written_methodBody hnode.finals record _))) fun body => ?_
  exact .lower (.asks (asks_provenanceComments node)) fun comments =>
    .addFunction fun _ => .of_none rfl

variable (hplace : held .interfaces place) (hnode : Proper T node)
include hplace hnode

lemma conforms_interfaceMethod (hkind : node.kind = .methodDeclaration) :
    (interfaceMethod shape place node).Conforms T held := by
  refine .context (.lookup (hnode.recorded.here.method hkind) fun record _ => ?_)
  split
  · exact hnode.addMethodWithin hkind _ _ _ nofun
  split
  · exact .addSpec hplace _
  · exact conforms_addDefaultMethod hnode _ record

lemma handed_interfaceMember {go : Node → Build Unit} (hgo : ConvertsTypes T go) :
    Handed T held node (interfaceMember go shape place node) := by
  unfold interfaceMember
  split
  · rename_i hkind
    exact ⟨.inl (growsLast_interfaceMethod node), conforms_interfaceMethod hplace hnode hkind⟩
  · exact .confined (conforms_constantFields node)
  · exact .confined (conforms_constantFields node)
  · exact .confined rfl
  · split
    · exact .confined (hgo node hnode _)
    · exact .confined (.refuse _)

omit hplace in
lemma conforms_interface {go : Node → Build Unit} (hgo : ConvertsTypes T go) :
    (interface go node).Conforms T held := by
  refine .context (.lift (faults_interfaceShape _ node) fun shape _ => ?_)
  refine .lift (faults_extendedInterfaces _ node) fun embeds _ => .addInterface fun place => ?_
  refine .bind (conforms_eachMember fun n hn => ?_) fun _ => rfl
  exact handed_interfaceMember (held.mem_adding _ _ _) (hnode.member hn) hgo

end

section

variable {shape : AbstractShape} {places : AbstractPlaces}

lemma conforms_addAccessors (hdata : held .interfaces places.data)
    (hbase : held .types places.base) (f : DeclaredField) (hapart : T.apart → f.name ≠ "b") :
    (addAccessors shape places f).Conforms T held := by
  refine .after ?_ fun _ => ?_
  · unfold noteInitializer
    split
    · exact .note rfl
    · rfl
  refine .bind (.addSpec hdata _) fun _ => .bind (.addSpec hdata _) fun _ => ?_
  refine .bind (.addFields hbase _) fun _ => ?_
  refine .bind (.addPlainFunction rfl fun _ _ _ q hq => (nomatch hq)) fun _ =>
    .addPlainFunction rfl fun hnamed r hr q hq => ?_
  cases hr
  rw [mem_singleton.1 hq]
  exact hapart hnamed

lemma conforms_abstractField (hdata : held .interfaces places.data)
    (hbase : held .types places.base) (node : Node)
    (hapart : T.apart → "b" ∉ node.instanceFieldNames.map Code.avoidReserved) :
    (abstractField shape places node).Conforms T held := by
  refine ⟨_, .asks (asks_declaredFields node), fun fields t t' hrun => ?_⟩
  have hfields := gives_declaredFields node _ _ _ _ hrun
  change (addAbstractFields shape places fields).Conforms T held
  clear hrun
  induction fields with
  | nil => rfl
  | cons f fields ih =>
    obtain ⟨⟨hstatic, hname⟩, hrest⟩ := forall_mem_cons.1 hfields
    rw [addAbstractFields]
    split
    · exact conforms_addFieldVariable f (ih hrest)
    · refine .bind (conforms_addAccessors hdata hbase f fun hnamed hb => ?_) fun _ => ih hrest
      rename_i hinstance
      obtain ⟨n, hn, htext⟩ := hname
      refine hapart hnamed (mem_map.2 ⟨f.javaName, ?_, hb⟩)
      rw [Tree.Node.instanceFieldNames, ← hstatic, if_neg hinstance]
      exact mem_filterMap.2 ⟨n, hn, by rw [htext]; rfl⟩

variable (hinterface : held .interfaces places.interface) (hnode : Proper T node)
include hinterface hnode

lemma conforms_abstractMethod (hkind : node.kind = .methodDeclaration)
    (hapart : node.modifiers.isAbstract = false → MethodApart T "m" node) :
    (abstractMethod shape places node).Conforms T held := by
  refine .context (.lookup (hnode.recorded.here.method hkind) fun record _ => ?_)
  split
  · exact hnode.addMethodWithin hkind _ _ _ nofun
  · refine .context (.bind (.addSpec hinterface _) fun _ => ?_)
    unfold addDefaultBody
    split
    · rfl
    · rename_i hdefault
      refine hnode.addMethod hkind _ _ ?_
      rintro _ ⟨⟩
      exact hapart (by simpa using hdefault)

variable {go : Node → Build Unit} (hgo : ConvertsTypes T go)
include hgo

section

variable (hapart : node.modifiers.isAbstract = false → MethodApart T "m" node)
include hapart

lemma conforms_abstractMember : (abstractMember go shape places node).Conforms T held := by
  unfold abstractMember
  split
  · rename_i hkind
    exact conforms_abstractMethod hinterface hnode hkind hapart
  · exact .note rfl
  · exact hnode.addStaticInitializer
  · rfl
  · split
    · exact hgo node hnode held
    · exact .refuse _

lemma handed_abstractMember : Handed T held node (abstractMember go shape places node) := by
  refine ⟨?_, conforms_abstractMember hinterface hnode hgo hapart⟩
  by_cases hkind : node.kind = .methodDeclaration
  · by_cases hlists : ∃ record, T.context.symbols.requireMethod node = .ok record
        ∧ record.isStatic = false
    · obtain ⟨record, hrecord, hstatic⟩ := hlists
      exact .inr (.inr ⟨go, shape, places, record, rfl, hkind, hrecord, hstatic, hinterface⟩)
    · refine .inl (abstractMember_of_method hkind ▸ growsLast_abstractMethod ?_)
      intro record hrecord
      cases hstatic : record.isStatic with
      | true => rfl
      | false => exact absurd ⟨record, hrecord, hstatic⟩ hlists
  · refine .inr (.inl ?_)
    unfold abstractMember
    split
    · exact absurd ‹_› hkind
    · exact .note rfl
    · exact hnode.addStaticInitializer
    · rfl
    · split
      · exact hgo node hnode _
      · exact .refuse _

end

lemma conforms_abstractMembers (hdata : held .interfaces places.data)
    (hbase : held .types places.base)
    (hmethods : ∀ m ∈ node.bodyMembers, m.modifiers.isAbstract = false → MethodApart T "m" m)
    (hfields : T.apart → "b" ∉ node.ownFieldNames.map Code.avoidReserved) :
    (do
      let _ ← eachMember shape.owner (abstractField shape places)
        (node.bodyMembers.filter isFieldMember)
      let _ ← eachMember shape.owner (abstractMember go shape places)
        (node.bodyMembers.filter fun m => !isFieldMember m)).Conforms T held := by
  refine .after (conforms_eachMember fun n hn => ⟨.inl (growsLast_abstractField n),
    conforms_abstractField hdata hbase n fun hnamed hb => ?_⟩) fun _ =>
      .after (conforms_eachMember fun n hn => ?_) fun _ => rfl
  · obtain ⟨field, hfield, hname⟩ := mem_map.1 hb
    exact hfields hnamed (mem_map.2 ⟨field, mem_flatMap.2 ⟨n, hn, hfield⟩, hname⟩)
  · have hmember := (mem_filter.1 hn).1
    exact handed_abstractMember hinterface (hnode.member hmember) hgo (hmethods n hmember)

omit hinterface in
lemma conforms_abstractClass
    (hmethods : ∀ m ∈ node.bodyMembers, m.modifiers.isAbstract = false → MethodApart T "m" m)
    (hfields : T.apart → "b" ∉ node.ownFieldNames.map Code.avoidReserved) :
    (abstractClass go node).Conforms T held := by
  refine .context (.lift (faults_abstractShape _ node) fun shape _ => ?_)
  refine .lift (faults_implementedInterfaces _ node) fun interfaces _ => ?_
  -- The four types are put down one after the other; the places of three are handed on.
  refine ⟨0, rfl, ⟨fun _ => ⟨_, rfl⟩, by simp⟩, fun data => ⟨0, rfl, ⟨fun _ => ⟨_, rfl⟩, by simp⟩,
    fun interface => ⟨0, rfl, ⟨nofun, by simp⟩, fun base => ⟨0, rfl, ⟨nofun, by simp⟩,
      fun methods => ?_⟩⟩⟩⟩
  refine conforms_abstractMembers ?_ hnode hgo ?_ ?_ hmethods hfields
  · exact .inl (.inl (Held.mem_adding _ _ _ _))
  · exact .inl (.inl (.inl (held.mem_adding _ _ _)))
  · exact .inl (Held.mem_adding _ _ _ _)

end

section

variable (hnumbers : NumbersRecorded T.lost T.context)
include hnumbers

lemma conforms_typeDeclarationWithin (height : Nat) :
    ConvertsTypes T (typeDeclarationWithin height) := by
  induction height with
  | zero =>
    intro node _ held f hf
    cases hf
    exact .inr (by simp [Fault.IsOther, Fault.kind])
  | succ height ih =>
    intro node hnode held
    rw [typeDeclarationWithin]
    unfold typeDeclarationStep
    have hhere := fun hnamed => (hnode.apart hnamed).here
    split
    · rename_i hkind
      split
      · rename_i habstract
        simp only [namedApart, hkind, habstract, if_true, Bool.and_eq_true] at hhere
        refine conforms_abstractClass hnode ih (fun m hm hdefault hnamed record hrecord => ?_)
          fun hnamed => ?_
        · refine ne_of_spares (hhere hnamed).1 (mem_filterMap.2 ⟨m, hm, ?_⟩)
          rw [defaultRecord, hdefault]
          exact hrecord
        · simpa using (hhere hnamed).2
      · rename_i hconcrete
        refine conforms_concreteClass hnumbers ih hnode fun hnamed shape hshape self hself => ?_
        have hspares := hhere hnamed
        simpa [namedApart, hkind, hconcrete, hshape, hself, Except.toOption] using hspares
    · exact conforms_interface hnode ih
    · rename_i hkind
      simp only [namedApart, hkind] at hhere
      rw [← append_nil (node.bodyMembers.filterMap _)] at hhere
      exact conforms_enumeration ih hnode fun m hm => .of_spares hhere hm
    · rename_i hkind
      simp only [namedApart, hkind] at hhere
      rw [← append_nil (node.bodyMembers.filterMap _)] at hhere
      exact conforms_record ih hnode hkind fun m hm => .of_spares hhere hm
    · exact .refuse _

lemma conforms_wholeUnit (h : Proper T T.context.unit.root) : wholeUnit.Conforms T held := by
  have hdeclarations : ∀ nodes : List Node, (∀ node ∈ nodes, Proper T node) →
      (declarations nodes).Conforms T held := by
    intro nodes hnodes
    induction nodes with
    | nil => rfl
    | cons node nodes ih =>
      obtain ⟨hnode, hrest⟩ := forall_mem_cons.1 hnodes
      exact .member (.confined (conforms_typeDeclarationWithin hnumbers node.height node hnode _))
        fun _ => ih hrest
  exact .context (hdeclarations _ fun _ hn => h.child (mem_filter.1 hn).1)

end

variable (c : Context)

lemma numbersRecorded_free : NumbersRecorded True c :=
  fun _ _ _ _ _ _ _ => .inl trivial

lemma convertsTypes_free (height : Nat) : ConvertsTypes (.free c) (typeDeclarationWithin height) :=
  conforms_typeDeclarationWithin (numbersRecorded_free c) height

lemma conforms_wholeUnit_free : wholeUnit.Conforms (.free c) Held.none :=
  conforms_wholeUnit (numbersRecorded_free c) (.free c _)

end Build

end JavaToGo
