import JavaToGo.Conversion
import JavaToGo.Proofs.Declaration.Ancestry
import JavaToGo.Proofs.Lowering.Asks

/-!
# Where declarations look up records

Inherited methods are looked up by the numbers in shapes, and the constructor of
a record under its last compact constructor, else under the record itself.
Records may be counted as lost: then failures for want of one are of no concern.
-/

namespace JavaToGo

def Tree.Node.instanceFieldNames (m : Node) : List String :=
  if m.modifiers.isStatic then []
  else (m.fieldChildren "declarator").filterMap fun n => (n.requireText "name").toOption

def Tree.Node.ownFieldNames (node : Node) : List String :=
  (node.bodyMembers.filter isFieldMember).flatMap Tree.Node.instanceFieldNames

namespace Build

variable (c : TypeContext) (s : Symbols) (node : Node)

lemma faults_listedTypes : Faults Fault.IsOther (listedTypes c node) :=
  (Faults.mapM fun n _ => faults_tryType c n.blamed_isOther).bind fun _ _ => .ok _

lemma faults_implementedInterfaces : Faults Fault.IsOther (implementedInterfaces c node) := by
  unfold implementedInterfaces
  split
  · exact .ok _
  · exact faults_listedTypes c _

lemma faults_extendedInterfaces : Faults Fault.IsOther (extendedInterfaces c node) :=
  (Faults.mapM fun n _ => faults_listedTypes c n).bind fun _ _ => .ok _

lemma faults_requireDeclared (javaName : String) :
    Faults Fault.IsOther (s.requireType javaName) := by
  unfold Symbols.requireType
  split
  · exact .ok _
  · exact .fault (by simp [Fault.IsOther, Fault.kind])

lemma faults_requireLayout (goName : String) : Faults Fault.IsOther (s.requireLayout goName) := by
  unfold Symbols.requireLayout
  split
  · exact .ok _
  · exact .fault (by simp [Fault.IsOther, Fault.kind])

lemma faults_memberLocation (owner : String) (node : Node) :
    Faults Fault.IsOther (memberLocation owner node) := by
  refine .bind ?_ fun label _ => .ok _
  unfold Tree.Node.memberLabel
  split
  · exact .ok _
  · split
    · exact .ok _
    · exact (Faults.mapM fun n _ => .requireText n _).bind fun _ _ => .ok _

lemma faults_selfName (shape : ClassShape) : Faults Fault.IsOther shape.selfName := by
  unfold ClassShape.selfName
  split
  · split
    · exact .fault (by simp [Fault.IsOther, Fault.kind])
    · exact .ok _
  · exact .ok _

lemma faults_constantName (shape : EnumShape) (constant : Node) :
    Faults Fault.IsOther (shape.constantName constant) :=
  (Faults.requireText constant _).bind fun _ _ => .ok _

lemma faults_classShape : Faults Fault.IsOther (ClassShape.ofNode c node) := by
  refine (Faults.requireText node _).bind fun javaName _ => ?_
  refine (faults_requireDeclared c.symbols javaName).bind fun declared _ => ?_
  exact (faults_superclassOf _ node.blamed_isOther).bind fun superclass _ => .ok _

lemma faults_abstractShape : Faults Fault.IsOther (AbstractShape.ofNode s node) := by
  refine (Faults.requireText node _).bind fun javaName _ => ?_
  refine (faults_requireDeclared s javaName).bind fun declared _ => ?_
  exact (faults_requireLayout s declared.goName).bind fun layout _ => .ok _

lemma faults_interfaceShape : Faults Fault.IsOther (InterfaceShape.ofNode s node) := by
  refine (Faults.requireText node _).bind fun javaName _ => ?_
  exact (faults_requireDeclared s javaName).bind fun declared _ => .ok _

lemma faults_enumShape : Faults Fault.IsOther (EnumShape.ofNode s node) := by
  refine (Faults.requireText node _).bind fun javaName _ => ?_
  refine (faults_requireDeclared s javaName).bind fun declared _ => ?_
  exact (((Faults.require node _).bind fun _ _ => .ok _)).bind fun isSimple _ => .ok _

lemma faults_recordShape : Faults Fault.IsOther (RecordShape.ofNode c node) := by
  refine (Faults.requireText node _).bind fun javaName _ => ?_
  refine (faults_requireDeclared c.symbols javaName).bind fun declared _ => ?_
  refine (Faults.require node _).bind fun list _ => ?_
  refine (faults_parameters _ list.blamed_isOther).bind fun components _ => ?_
  exact (Faults.mapM fun p _ => .requireText p _).bind fun names _ => .ok _

/-- The node under which the constructor of a record that takes every component is looked up. -/
def soughtNode (node : Node) : Node :=
  (node.bodyMembers.filter isCompact).getLast?.getD node

/-- What is looked up for a node has a record or a refusal, unless records are lost. -/
structure Recorded (lost : Prop) (c : Context) (node : Node) : Prop where
  method : node.kind = .methodDeclaration →
    lost ∨ Faults Fault.IsOther (c.symbols.requireMethod node)
  constructor : node.kind = .constructorDeclaration →
    lost ∨ Faults Fault.IsOther (c.symbols.requireConstructor node)
  canonical : node.kind = .recordDeclaration →
    ∀ shape, RecordShape.ofNode c.toTypeContext node = .ok shape →
      lost ∨ Faults Fault.IsOther (c.symbols.requireConstructor (soughtNode node))

/-- The methods that shapes number are recorded, or lost. -/
def NumbersRecorded (lost : Prop) (c : Context) : Prop :=
  ∀ goName layout, c.symbols.layouts.find? goName = some layout →
    ∀ number ∈ layout.abstractMethods ++ layout.defaultMethods,
      ∀ node, c.unit.root.find? number = some node →
        lost ∨ Faults Fault.IsOther (c.symbols.requireMethod node)

def instanceRecord (s : Symbols) (m : Node) : Option MethodRecord :=
  if m.kind = .methodDeclaration then
    (s.methodRecords.find? m.id).filter fun record => !record.isStatic
  else none

lemma instanceRecord_eq_some_iff {s : Symbols} {m : Node} {record : MethodRecord} :
    instanceRecord s m = some record ↔ m.kind = .methodDeclaration
      ∧ s.methodRecords.find? m.id = some record ∧ record.isStatic = false := by
  unfold instanceRecord
  split
  · next hkind => simp [hkind]
  · next hkind => simp [hkind]

def defaultRecord (s : Symbols) (m : Node) : Option MethodRecord :=
  if m.modifiers.isAbstract then none else instanceRecord s m

def passedRecords (s : Symbols) (layouts : List Layout) : List MethodRecord :=
  (layouts.flatMap fun layout => layout.defaultMethods ++ layout.abstractMethods).filterMap
    s.methodRecords.find?

/-- No parameter of these methods has the name. -/
def spares (name : String) (records : List MethodRecord) : Bool :=
  records.all fun record => record.params.all fun q => q.name != name

lemma ne_of_spares {name : String} {records : List MethodRecord} (h : spares name records = true)
    {record : MethodRecord} (hrecord : record ∈ records) : ∀ q ∈ record.params, q.name ≠ name :=
  fun q hq => by simpa using List.all_eq_true.1 (List.all_eq_true.1 h record hrecord) q hq

/-- No parameter of a method that a type writes has the name of the receiver. -/
def namedApart (c : Context) (node : Node) : Bool :=
  let own := node.bodyMembers.filterMap (instanceRecord c.symbols)
  match node.kind with
  | .classDeclaration =>
    if node.modifiers.isAbstract then
      spares "m" (node.bodyMembers.filterMap (defaultRecord c.symbols))
        && !(node.ownFieldNames.map Code.avoidReserved).contains "b"
    else
      (ClassShape.ofNode c.toTypeContext node).toOption.all fun shape =>
        shape.selfName.toOption.all fun self =>
          spares self (own ++ passedRecords c.symbols shape.ancestry)
  | .enumDeclaration | .recordDeclaration => spares "this" own
  | _ => true

lemma node_of_recordShape {c : TypeContext} {node : Node}
    (h : RecordShape.ofNode c node = .ok shape) :
    shape.node = node := by
  simp only [RecordShape.ofNode, Outcome.bind_eq_ok] at h
  obtain ⟨javaName, -, declared, -, list, -, components, -, names, -, ⟨⟩⟩ := h
  rfl

end Build
end JavaToGo
