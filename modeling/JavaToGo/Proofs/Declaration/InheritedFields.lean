import JavaToGo.Proofs.Declaration.Accessors

/-!
# Fields that an abstract class inherits

The receiver of a default method knows the fields of its own class only.  A name
that it does not know is taken for a plain one.
-/

namespace JavaToGo

open JavaToGo.Tree (Node)
open List Outcome Analysis

def Tree.Node.declaredFieldNames (node : Node) : List String :=
  (((node.fieldChild? "body").map namedChildren).getD []).flatMap fun m =>
    if m.kind = .fieldDeclaration then m.instanceFieldNames else []

namespace Analysis

lemma eq_of_mapM_requireText {nodes : List Node}
    (h : nodes.mapM (Node.requireText · "name") = .ok names) :
    nodes.filterMap (fun n => (n.requireText "name").toOption) = names := by
  induction nodes generalizing names with
  | nil =>
    cases h
    rfl
  | cons node nodes ih =>
    simp only [mapM_cons, bind_eq_ok] at h
    obtain ⟨name, hname, rest, hrest, ⟨⟩⟩ := h
    rw [filterMap_cons, hname, ih hrest]
    rfl

lemma fields_layoutMember (h : layoutMember layout member = .ok layout') :
    layout'.fields = layout.fields
      ++ if member.kind = .fieldDeclaration then member.instanceFieldNames else [] := by
  unfold layoutMember at h
  unfold Node.instanceFieldNames
  split at h
  · rename_i hkind
    rw [if_pos hkind]
    split at h
    · cases h
      simp_all
    · rename_i hinstance
      obtain ⟨names, hnames, ⟨⟩⟩ := exists_of_bind h
      rw [if_neg hinstance, eq_of_mapM_requireText hnames]
  · rename_i hkind
    rw [if_neg (by rw [hkind]; decide), append_nil]
    repeat' split at h
    all_goals
      cases h
      rfl
  · rename_i hother _
    cases h
    rw [if_neg hother, append_nil]

lemma fields_layoutOf (h : layoutOf goName node = .ok layout) :
    layout.fields = node.declaredFieldNames := by
  have hfold : ∀ (members : List Node) (first last : Layout),
      members.foldlM layoutMember first = .ok last →
      last.fields = first.fields ++ members.flatMap fun m =>
        if m.kind = .fieldDeclaration then m.instanceFieldNames else [] := by
    intro members
    induction members with
    | nil =>
      intro first last h
      cases h
      simp
    | cons m members ih =>
      intro first last h
      obtain ⟨next, hnext, h⟩ := exists_of_bind h
      rw [ih next last h, fields_layoutMember hnext, flatMap_cons, append_assoc]
  exact hfold _ _ _ h

end Analysis

section

variable {k : Context} {t : Trail} {shape : AbstractShape} {field : String} {node : Node}

def setterCall (field : String) (value : Code.Expr) : Code.Expr :=
  .call (.field (.var "m.Self") ("Set" ++ Code.exported field)) [value] false

/-- What a name is written as that is neither a local nor a field. -/
def plainName (s : Symbols) (name : String) : String :=
  (s.enumConstants.find? name).getD (Code.avoidReserved name)

namespace Lower

variable (hreceiver : k.receiver = shape.receiver) (hfree : inScopes t.scopes field = false)
include hreceiver hfree

lemma returns_resolveName :
    (resolveName field).Returns k t
      (if field ∈ shape.layout.fields then getterCall field
        else .var (plainName k.symbols field)) := by
  refine (returns_isLocal field).bind ?_
  rw [hfree]
  refine returns_receiver.bind ?_
  by_cases hfield : field ∈ shape.layout.fields
  · rw [if_pos hfield, hreceiver, shape.contains_receiver_iff.2 hfield]
    exact returns_selfField hreceiver hfield
  · rw [if_neg hfield, hreceiver,
      Bool.eq_false_iff.2 (mt shape.contains_receiver_iff.1 hfield), plainName]
    refine Returns.bind (a := k.symbols) rfl ?_
    cases k.symbols.enumConstants.find? field <;> exact .pure _

variable (hkind : node.kind = .identifier) (htext : node.text = field) {go : Node → Lower Lowered}
include hkind htext

lemma returns_identifier :
    (expressionStep go node).Returns k t
      { value := if field ∈ shape.layout.fields then getterCall field
          else .var (plainName k.symbols field) } := by
  simp only [expressionStep, hkind, htext]
  exact (returns_resolveName hreceiver hfree).bind (.pure _)

lemma returns_fieldSetter :
    (fieldSetter? node).Returns k t
      (if field ∈ shape.layout.fields
        then some (.field (.var "m.Self") ("Set" ++ Code.exported field)) else none) := by
  have hassigned : (assignedField node).Returns k t (some field) := by
    simp only [assignedField, hkind, htext]
    refine (returns_isLocal field).bind ?_
    rw [hfree]
    exact .pure _
  have hself : (selfExpr none).Returns k t (.var "m.Self") := by
    refine returns_receiver.bind ?_
    rw [hreceiver]
    exact .pure _
  refine returns_receiver.bind ?_
  rw [hreceiver]
  refine hassigned.bind ?_
  dsimp only
  by_cases hfield : field ∈ shape.layout.fields
  · rw [if_pos hfield, shape.contains_receiver_iff.2 hfield]
    exact hself.bind (.pure _)
  · rw [if_neg hfield, Bool.eq_false_iff.2 (mt shape.contains_receiver_iff.1 hfield)]
    exact .pure _

lemma returns_assignTo (value : Code.Expr) :
    (assignTo (expressionStep go) node value).Returns k t
      [if field ∈ shape.layout.fields then .call (setterCall field value)
        else .assign (.var (plainName k.symbols field)) value] := by
  have hsetter := returns_fieldSetter hreceiver hfree hkind htext
  have hplace : (expressionStep go node).Returns k t _ :=
    returns_identifier hreceiver hfree hkind htext
  refine hsetter.bind ?_
  by_cases hfield : field ∈ shape.layout.fields
  · rw [if_pos hfield, if_pos hfield]
    exact .pure _
  · rw [if_neg hfield] at hplace
    rw [if_neg hfield, if_neg hfield]
    exact hplace.bind (.pure _)

end Lower

end

section

variable {unit : CompilationUnit} {call : Call} {shape : AbstractShape} {layout : Layout}

lemma fields_of_find? (hcall : call ∈ unit.calls)
    (hfind : unit.context.symbols.layouts.find? name = some layout) :
    ∃ node ∈ unit.root.walk, layout.fields = node.declaredFieldNames := by
  obtain ⟨findings, hanalyze, hcontext, -⟩ := exists_analyze_of_mem_calls hcall
  obtain ⟨s₁, s₂, s₃, s₄, s₅, hpasses, hsymbols⟩ := exists_passes_of_wholeUnit hanalyze
  rw [hcontext] at hfind
  rw [hsymbols] at hfind
  refine forall_layouts_of_passes
    (P := fun _ layout => ∃ node ∈ unit.root.walk, layout.fields = node.declaredFieldNames)
    ?_ ?_ hpasses name layout hfind
  · intro node hnode goName layout hlayout
    exact ⟨node, hnode, fields_layoutOf hlayout⟩
  · exact fun _ _ _ hlayout => hlayout

lemma Call.DeclaresAbstract.find?_layout (h : call.DeclaresAbstract c shape) :
    c.symbols.layouts.find? shape.name = some shape.layout := by
  have hshape := h.shape
  simp only [AbstractShape.ofNode, bind_eq_ok] at hshape
  obtain ⟨javaName, -, declared, -, layout, hlayout, ⟨⟩⟩ := hshape
  unfold Symbols.requireLayout at hlayout
  split at hlayout
  · cases hlayout
    assumption
  · cases hlayout

/-- Let a field be declared by an abstract class or by one above it.  Where no local has its name,
the name alone is read by calling the getter on the whole instance, and written by calling the
setter, exactly when the class itself declares the field.  Otherwise it is the plain name of
something outside the class. -/
theorem own_fields_behind_accessors (hcall : call ∈ unit.calls)
    (hclass : call.DeclaresAbstract unit.context shape)
    (habove : Above unit.context.symbols.layouts (some shape.name) layout) :
    Above unit.context.symbols.layouts (some shape.name) shape.layout
      ∧ (∃ node ∈ unit.root.walk, layout.fields = node.declaredFieldNames)
      ∧ ∀ field ∈ layout.fields, ∀ (k : Context) (t : Trail) (node : Node),
        k.receiver = shape.receiver → inScopes t.scopes field = false →
        node.kind = .identifier → node.text = field →
        (Lower.expression node).runAt k t
            = (.ok { value := if field ∈ shape.layout.fields then getterCall field
                else .var (plainName k.symbols field) }, t)
          ∧ ∀ (value : Code.Expr) (height : Nat),
            (Lower.assignTo (Lower.expressionWithin (height + 1)) node value).runAt k t
              = (.ok [if field ∈ shape.layout.fields then .call (setterCall field value)
                  else .assign (.var (plainName k.symbols field)) value], t) := by
  obtain ⟨name, hfind⟩ := habove.exists_find?
  refine ⟨.here hclass.find?_layout, fields_of_find? hcall hfind, ?_⟩
  intro field hfield k t node hreceiver hfree hkind htext
  obtain ⟨go, hgo⟩ := Lower.exists_expression_eq node
  rw [hgo]
  exact ⟨Lower.returns_identifier hreceiver hfree hkind htext, fun value height =>
    Lower.returns_assignTo hreceiver hfree hkind htext value⟩

end

/-- The abstract class `Base` with the field `int x`. -/
def baseClass : Node :=
  .plainClass 1 (abstractModifiers 4) "Base" []
    [plainField 10 [.intType 11] ["x"]]

/-- The abstract class `Mid` below it, with a method that returns `x`. -/
def midClass : Node :=
  .plainClass 30 (abstractModifiers 34) "Mid" (extending 40 "Base")
    [.tree 50 .methodDeclaration
      [.intType 51,
       .called 52 "read",
       .parameterList 53 [],
       .body 54
         [.tree 55 .returnStatement [.leaf 56 .identifier "x"]]]]

def midUnit : CompilationUnit :=
  .ofTypes [baseClass, midClass]

def baseLayout : Layout where
  name := "Base"
  fields := ["x"]

def baseShape : AbstractShape where
  node := baseClass
  name := "Base"
  layout := baseLayout
  typeParams := []

/-- The default methods of `Base` read and write `x` through its accessors. -/
theorem base_field_behind_accessors :
    firstCall midUnit baseClass ∈ midUnit.calls
      ∧ (firstCall midUnit baseClass).DeclaresAbstract midUnit.context baseShape
      ∧ (Lower.expression (.leaf 20 .identifier "x")).runAt
          { receiver := baseShape.receiver } {} = (.ok { value := getterCall "x" }, {})
      ∧ (Lower.assignTo (Lower.expressionWithin 1) (.leaf 20 .identifier "x")
            (.var "v")).runAt { receiver := baseShape.receiver } {}
          = (.ok [.call (setterCall "x" (.var "v"))], {}) := by
  have hcall : firstCall midUnit baseClass ∈ midUnit.calls :=
    firstCall_mem (by decide +kernel) rfl
  have hclass : (firstCall midUnit baseClass).DeclaresAbstract midUnit.context baseShape :=
    ⟨⟨⟨baseClass.height, rfl⟩, rfl⟩, by decide +kernel, by with_unfolding_all rfl⟩
  have habove : Above midUnit.context.symbols.layouts (some "Base") baseLayout :=
    .here (by with_unfolding_all rfl)
  obtain ⟨-, -, hfields⟩ := own_fields_behind_accessors hcall hclass habove
  obtain ⟨hread, hwrite⟩ := hfields "x" List.mem_cons_self { receiver := baseShape.receiver } {}
    (.leaf 20 .identifier "x") rfl rfl rfl rfl
  exact ⟨hcall, hclass, hread, hwrite (.var "v") 0⟩

/-- The default method of `Mid` does not read the field `x` of `Base`, but a name outside. -/
theorem inherited_field_read_plainly :
    (convert .tolerant midUnit).outcome = .ok ()
      ∧ (convert .tolerant midUnit).draft.diagnostics = []
      ∧ Above midUnit.context.symbols.layouts (some "Mid") baseLayout
      ∧ baseLayout.fields = ["x"]
      ∧ ((methodsOf "*MidMethods" (convert .tolerant midUnit).draft.file.methods).map
            fun f => (f.name, Code.Stmt.blockLines f.body)) = [("Read", ["\treturn x"])] := by
  have hmid : midUnit.context.symbols.layouts.find? "Mid"
      = some { name := "Mid", superclass := some "Base", defaultMethods := [50] } := by
    with_unfolding_all rfl
  have habove : Above midUnit.context.symbols.layouts (some "Mid") baseLayout :=
    .up hmid (.here (by with_unfolding_all rfl))
  exact ⟨ok_of_isOk (by decide +kernel), by decide +kernel, habove, rfl, by decide +kernel⟩

end JavaToGo
