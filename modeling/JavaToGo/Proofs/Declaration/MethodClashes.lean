import JavaToGo.Proofs.Declaration.EmittedMethods

/-!
# When the methods of a type have distinct names

Overloads of one Java name are told apart; methods with different Java names are
not compared.  An overload named after its argument types can meet a method that
is called so in Java.
-/

namespace JavaToGo

open List

section

/-- Methods with different Java names have different Go names. -/
def Symbols.NamesApart (s : Symbols) (exports : Bool) (records : List MethodRecord) : Prop :=
  ∀ r ∈ records, ∀ r' ∈ records, r.javaName ≠ r'.javaName →
    s.emittedName exports r ≠ s.emittedName exports r'

variable {s : Symbols}

lemma nodup_emittedNames_iff (hfiled : s.MethodsFiled root)
    (hrecorded : ∀ r ∈ records, ∃ number, s.methodRecords.find? number = some r)
    (hkeys : (records.map Build.methodKey).Nodup) :
    (records.map (s.emittedName exports)).Nodup ↔ s.NamesApart exports records := by
  constructor
  · intro hnodup r hr r' hr' hjava hname
    exact hjava (congrArg MethodRecord.javaName (inj_on_of_nodup_map hnodup hr hr' hname))
  · intro hapart
    refine List.Nodup.map_on ?_ (List.Nodup.of_map _ hkeys)
    intro r hr r' hr' hname
    have hjava : r.javaName = r'.javaName := by
      by_contra hne
      exact hapart r hr r' hr' hne hname
    -- Overloads of one Java name differ whatever their visibility.
    have htypes : paramTypes r.params = paramTypes r'.params := by
      by_contra hne
      obtain ⟨number, hfind⟩ := hrecorded r hr
      obtain ⟨number', hfind'⟩ := hrecorded r' hr'
      exact hfiled.visible_ne hfind hfind' hjava hne _ _ hname
    exact inj_on_of_nodup_map hkeys hr hr' (Prod.ext hjava htypes)

end

lemma Build.instanceRecord_of_defaultRecord {s : Symbols} {m : Node} {record : MethodRecord}
    (h : Build.defaultRecord s m = some record) : Build.instanceRecord s m = some record := by
  unfold Build.defaultRecord at h
  split at h
  · cases h
  · exact h

lemma Build.filterMap_defaultRecord_sublist (s : Symbols) (members : List Node) :
    (members.filterMap (Build.defaultRecord s)).Sublist
      (members.filterMap (Build.instanceRecord s)) := by
  have hfilter : members.filterMap (Build.defaultRecord s)
      = (members.filter fun m => !m.modifiers.isAbstract).filterMap (Build.instanceRecord s) := by
    rw [filterMap_filter]
    congr 1
    funext m
    unfold Build.defaultRecord
    cases m.modifiers.isAbstract <;> simp
  rw [hfilter]
  exact filter_sublist.filterMap _

/-- The call converts an abstract class of this shape. -/
structure Call.DeclaresAbstract (c : Context) (call : Call) (shape : AbstractShape) : Prop
    extends call.Declares .classDeclaration where
  abstract : call.node.modifiers.isAbstract = true
  shape : AbstractShape.ofNode c.symbols call.node = .ok shape

lemma Call.DeclaresAbstract.exists_abstractClass {c : Context} {call : Call}
    {shape : AbstractShape} (h : call.DeclaresAbstract c shape) (hreturned : call.Returned c) :
    ∃ height, call.body
      = ⟨Unit, Build.abstractClass (Build.typeDeclarationWithin height) call.node⟩ := by
  simpa [Build.typeDeclarationStep, h.kind, h.abstract] using hreturned.exists_step h.body

/-- The call converts a class that writes methods with a receiver type, for the given records. -/
inductive Call.Emits (c : Context) (call : Call) : String → Bool → List MethodRecord → Prop
  | concrete {shape : ClassShape} (h : call.DeclaresClass c shape) :
      Emits c call ("*" ++ shape.structType) shape.extendsAbstract
        (Build.writtenRecords c.symbols shape)
  | abstract {shape : AbstractShape} (h : call.DeclaresAbstract c shape) :
      Emits c call ("*" ++ shape.part "Methods") true
        ((call.node.bodyMembers.filter fun m => !isFieldMember m).filterMap
          (Build.defaultRecord c.symbols))

namespace Call.Emits

variable {c : Context} {call : Call} {receiverType : String} {exports : Bool}
variable {records : List MethodRecord} (h : call.Emits c receiverType exports records)
include h

lemma nodup_keys
    (hdistinct : ((Build.methodRecordsOf c.symbols call.node).map Build.methodKey).Nodup) :
    (records.map Build.methodKey).Nodup := by
  cases h with
  | concrete h =>
    rename_i shape
    rw [← (Build.eq_of_ofNode h.shape).1] at hdistinct
    rw [Build.writtenRecords, map_append]
    have hall := Build.nodup_takenOver hdistinct (Build.passedRecords c.symbols shape.ancestry)
    refine hall.sublist ?_
    exact (filter_sublist.map Build.methodKey).append (.refl _)
  | abstract =>
    refine hdistinct.sublist (List.Sublist.map _ ?_)
    refine List.Sublist.trans ?_ (filter_sublist (p := fun record => !record.isStatic))
    rw [← Build.filterMap_instanceRecord]
    exact Build.filterMap_defaultRecord_sublist _ _

lemma exists_find? (hrecord : record ∈ records) :
    ∃ number, c.symbols.methodRecords.find? number = some record := by
  cases h with
  | concrete => exact Build.exists_find?_of_mem_writtenRecords hrecord
  | abstract =>
    obtain ⟨m, -, hm⟩ := mem_filterMap.1 hrecord
    exact ⟨m.id,
      (Build.instanceRecord_eq_some_iff.1 (Build.instanceRecord_of_defaultRecord hm)).2.1⟩

/-- A class without failures adds its methods, each once, and what is declared inside it. -/
lemma exists_perm (hreturned : call.Returned c) (hown : ∀ k ∈ call.own c, k.Returned c) :
    ∃ own rest, Build.Written c.symbols exports receiverType records own
      ∧ (call.added c .methods).Perm (own.map .function ++ rest) := by
  cases h with
  | concrete h =>
    obtain ⟨height, hbody⟩ := h.exists_concreteClass hreturned
    obtain ⟨own, rest, -, hwritten, hperm⟩ := Build.exists_perm_of_concreteClass
      (Build.convertsTypes_free _ height) hbody h.shape hreturned hown
    exact ⟨own, rest, Build.written_of_forall₂ hwritten, hperm⟩
  | abstract h =>
    obtain ⟨height, hbody⟩ := h.exists_abstractClass hreturned
    obtain ⟨own, rest, hwritten, hperm⟩ := Build.exists_perm_of_abstractClass
      (Build.convertsTypes_free _ height) hbody h.shape hreturned hown
    exact ⟨own, rest, Build.written_of_forall₂ hwritten, hperm⟩

end Call.Emits

section

def methodOf? (receiverType : String) : Decl → Option Code.Function
  | .function f => if f.receiver.map Code.Param.type = some receiverType then some f else none
  | _ => none

def methodsOf (receiverType : String) (decls : List Decl) : List Code.Function :=
  decls.filterMap (methodOf? receiverType)

lemma methodsOf_map_function (h : ∀ f ∈ own, f.receiver.map Code.Param.type = some receiverType) :
    methodsOf receiverType (own.map .function) = own := by
  induction own with
  | nil => rfl
  | cons f own ih =>
    obtain ⟨hf, hown⟩ := forall_mem_cons.1 h
    have hfirst : methodOf? receiverType (.function f) = some f := if_pos hf
    rw [methodsOf, map_cons, filterMap_cons_some hfirst]
    exact congrArg _ (ih hown)

variable {mode : Mode} {unit : CompilationUnit} {call : Call}

lemma Call.Emits.exists_perm_methodsOf
    (h : call.Emits unit.context receiverType exports records)
    (hclean : (convert .tolerant unit).draft.diagnostics = [])
    (hcall : call ∈ unit.calls) :
    ∃ own others,
      Build.Written unit.context.symbols exports receiverType records own
        ∧ (methodsOf receiverType (convert .tolerant unit).draft.file.methods).Perm
          (own ++ others) := by
  have hreturned := returned_of_diagnostics_eq_nil hclean
  obtain ⟨own, rest, hwritten, hperm⟩ := h.exists_perm (hreturned call hcall) fun k hk =>
    hreturned k (mem_calls_of_mem_own hcall hk)
  rw [← keptCalls_eq hclean] at hcall
  obtain ⟨after, hafter⟩ := added_isPrefix_convert hcall .methods
  generalize hfile : (convert .tolerant unit).draft.file.methods = methods
  have hmethods : methods = methods.take (call.before.count .methods)
      ++ (call.added unit.context .methods ++ after) := by
    rw [hafter, ← hfile]
    exact (take_append_drop _ _).symm
  let elsewhere := methods.take (call.before.count .methods) ++ (rest ++ after)
  have hparts : methods.Perm (own.map .function ++ elsewhere) := by
    have hinner := (hperm.append_right after).append_left
      (methods.take (call.before.count .methods))
    rw [← hmethods, append_assoc] at hinner
    exact hinner.trans (perm_append_comm_assoc _ _ _)
  refine ⟨own, methodsOf receiverType elsewhere, hwritten, ?_⟩
  have hall := hparts.filterMap (methodOf? receiverType)
  rw [filterMap_append] at hall
  rwa [← methodsOf, ← methodsOf, methodsOf_map_function hwritten.receivers] at hall

/-- Let a unit be converted without diagnostics, and let the methods of a class differ in their Java
names or in the types of their parameters.  Then the class writes one method for each of its methods
and for each that it takes over; and the names of all methods of its receiver type are distinct
exactly when no two methods with different Java names are given one name, and the methods that come
from elsewhere are apart from these and from each other. -/
theorem method_names_distinct_iff (hok : (convert mode unit).outcome = .ok ())
    (hclean : (convert mode unit).draft.diagnostics = []) (hcall : call ∈ unit.calls)
    {receiverType : String} {exports : Bool} {records : List MethodRecord}
    (hclass : call.Emits unit.context receiverType exports records)
    (hdistinct : ((Build.methodRecordsOf unit.context.symbols call.node).map
      Build.methodKey).Nodup) :
    ∃ own others,
      Build.Written unit.context.symbols exports receiverType records own
        ∧ (methodsOf receiverType (convert mode unit).draft.file.methods).Perm (own ++ others)
        ∧ (((methodsOf receiverType (convert mode unit).draft.file.methods).map
              Code.Function.name).Nodup ↔
            unit.context.symbols.NamesApart exports records
            ∧ (others.map Code.Function.name).Nodup
            ∧ ∀ f ∈ own, ∀ g ∈ others, f.name ≠ g.name) := by
  rw [convert_eq_tolerant_of_ok hok] at hclean ⊢
  obtain ⟨own, others, hwritten, hperm⟩ := hclass.exists_perm_methodsOf hclean hcall
  refine ⟨own, others, hwritten, hperm, ?_⟩
  have hown : (own.map Code.Function.name).Nodup ↔
      unit.context.symbols.NamesApart exports records := by
    rw [hwritten.names]
    exact nodup_emittedNames_iff (methodsFiled_analyze .tolerant unit [])
      (fun r => hclass.exists_find?) (hclass.nodup_keys hdistinct)
  rw [(hperm.map _).nodup_iff, List.map_append, List.nodup_append, hown]
  simp only [List.forall_mem_map]

end

/-- The class `Meter` with the methods `read()`, `read(int)` and a third one without parameters. -/
def meterClass (third : String) : Node :=
  .plainClass 1 [] "Meter" []
    [.plainMethod 10 "read" [] [],
     .plainMethod 20 "read"
       [.tree 24 .formalParameter
         [intType, .called 25 "x"]] [],
     .plainMethod 30 third [] []]

def meterUnit (third : String) : CompilationUnit :=
  .ofTypes [meterClass third]

def meterCall (third : String) : Call :=
  firstCall (meterUnit third) (meterClass third)

def meterShape (third : String) : ClassShape where
  node := meterClass third
  javaName := "Meter"
  name := "meter"
  isPublic := false
  typeParams := []
  superclass := none
  ancestry := []

lemma resetCall_declaresClass :
    (meterCall "reset").DeclaresClass (meterUnit "reset").context (meterShape "reset") where
  body := ⟨(meterClass "reset").height, rfl⟩
  kind := rfl
  concrete := by decide +kernel
  shape := by with_unfolding_all rfl

/-- The overloads of `read` and another method are told apart. -/
theorem meter_names_distinct :
    (convert .tolerant (meterUnit "reset")).outcome = .ok ()
      ∧ (convert .tolerant (meterUnit "reset")).draft.diagnostics = []
      ∧ meterCall "reset" ∈ (meterUnit "reset").calls
      ∧ (meterCall "reset").DeclaresClass (meterUnit "reset").context (meterShape "reset")
      ∧ ((methodsOf "*meter" (convert .tolerant (meterUnit "reset")).draft.file.methods).map
          Code.Function.name).Nodup := by
  have hok : (convert .tolerant (meterUnit "reset")).outcome = .ok () :=
    ok_of_isOk (by decide +kernel)
  have hclean : (convert .tolerant (meterUnit "reset")).draft.diagnostics = [] := by decide +kernel
  have hmem : meterCall "reset" ∈ (meterUnit "reset").calls :=
    firstCall_mem (by decide +kernel) rfl
  obtain ⟨own, others, hwritten, hperm, hdistinct⟩ :=
    method_names_distinct_iff hok hclean hmem (.concrete resetCall_declaresClass)
      (by decide +kernel)
  -- The class has three methods and the file has no more for this type.
  have hnone : others = [] := by
    have hlength := congrArg List.length hwritten.names
    have hall := hperm.length_eq
    have hthree : (Build.writtenRecords (meterUnit "reset").context.symbols
        (meterShape "reset")).length = 3 := by decide +kernel
    have hfile : (methodsOf ("*" ++ (meterShape "reset").structType)
        (convert .tolerant (meterUnit "reset")).draft.file.methods).length = 3 := by decide +kernel
    rw [List.length_map, List.length_map, hthree] at hlength
    rw [hfile, List.length_append, hlength] at hall
    exact List.eq_nil_of_length_eq_zero (by omega)
  have hapart : (meterUnit "reset").context.symbols.NamesApart
      (meterShape "reset").extendsAbstract
      (Build.writtenRecords (meterUnit "reset").context.symbols (meterShape "reset")) := by
    unfold Symbols.NamesApart
    decide +kernel
  exact ⟨hok, hclean, hmem, resetCall_declaresClass, hdistinct.2 ⟨hapart, by simp [hnone]⟩⟩

/-- `read(int)` is named after its parameter, and meets the method that is called so. -/
theorem meter_names_meet :
    (convert .tolerant (meterUnit "readWithInt")).outcome = .ok ()
      ∧ (convert .tolerant (meterUnit "readWithInt")).draft.diagnostics = []
      ∧ meterCall "readWithInt" ∈ (meterUnit "readWithInt").calls
      ∧ (meterCall "readWithInt").DeclaresClass (meterUnit "readWithInt").context
          (meterShape "readWithInt")
      ∧ ((Build.methodRecordsOf (meterUnit "readWithInt").context.symbols
          (meterClass "readWithInt")).map Build.methodKey)
        = [("read", []), ("read", ["int"]), ("readWithInt", [])]
      ∧ (methodsOf "*meter" (convert .tolerant (meterUnit "readWithInt")).draft.file.methods).map
          Code.Function.name = ["read", "readWithInt", "readWithInt"] := by
  have hok : (convert .tolerant (meterUnit "readWithInt")).outcome = .ok () :=
    ok_of_isOk (by decide +kernel)
  have hmem : meterCall "readWithInt" ∈ (meterUnit "readWithInt").calls :=
    firstCall_mem (by decide +kernel) rfl
  exact ⟨hok, by decide +kernel, hmem,
    ⟨⟨⟨(meterClass "readWithInt").height, rfl⟩, rfl⟩, by decide +kernel,
      by with_unfolding_all rfl⟩,
    by decide +kernel, by decide +kernel⟩

end JavaToGo
