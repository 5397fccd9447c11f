import JavaToGo.Proofs.Tree.Numbers
import JavaToGo.Proofs.TypeMapping.Faults

/-!
# The steps of the analysis

For each step one theorem lists all the ways in which it can end, with what the
tree has answered by then.  What a step leaves alone, what it files and what it
fails with is read off from there.
-/

namespace JavaToGo

open JavaToGo.Tree (Node)

namespace Tree.Node

/-- Whether the methods of a type are listed in a Go interface. -/
def listsMethods (owner : Node) : Bool :=
  owner.kind == .interfaceDeclaration
    || (owner.kind == .classDeclaration && owner.modifiers.isAbstract)

def isAbstractClass (node : Node) : Bool :=
  node.kind = .classDeclaration && node.modifiers.isAbstract

end Tree.Node

namespace AnalysisContext

variable (c : AnalysisContext) (s : Symbols)

/-- How types are mapped outside the declaration. -/
def outer : TypeContext :=
  ⟨c.unit.settings, s, c.typeParams⟩

/-- How types are mapped inside the declaration at a node. -/
def around (node : Node) : TypeContext :=
  ⟨c.unit.settings, s, c.unit.root.enclosingTypeParameters node :: c.typeParams⟩

end AnalysisContext

namespace Symbols

/-- The symbols with a method filed and recorded; the record keeps the place that filing gives. -/
def withMethod (s : Symbols) (node : Node) (record : MethodRecord) : Symbols :=
  let filed :=
    s.addMethod record.javaName (paramTypes record.params) record.isPublic record.isStatic
  { filed.2 with
    methodRecords := s.methodRecords.insert node.id { record with entry := filed.1 } }

def withType (s : Symbols) (d : DeclaredType) (constants : Table String String) : Symbols :=
  { s with declaredTypes := s.declaredTypes.insert d.javaName d, enumConstants := constants }

def withSuperclass (s : Symbols) (goName : String) (layout : Layout)
    (superclass : Option String) : Symbols :=
  { s with layouts := s.layouts.insert goName { layout with superclass := superclass } }

/-- The symbols with a constructor filed and recorded. -/
def withConstructor (s : Symbols) (overloads : List Overload) (number : Nat)
    (record : ConstructorRecord) : Symbols :=
  { s with constructors := s.constructors.insert record.typeName overloads,
           constructorRecords := s.constructorRecords.insert number record }

end Symbols

namespace Analysis

section

variable {α β : Type} (c : AnalysisContext) (s : Findings)

/-- What a computation returns, and the findings that it leaves. -/
def runFrom (x : Analysis α) (c : AnalysisContext) (s : Findings) :
    Except Failure α × Findings :=
  (x.run c).run.run s

lemma runFrom_bind (x : Analysis α) (f : α → Analysis β) :
    (x >>= f).runFrom c s
      = match x.runFrom c s with
        | (.ok a, s') => (f a).runFrom c s'
        | (.error failure, s') => (.error failure, s') := by
  simp only [runFrom, ReaderT.run_bind, ExceptT.run_bind, StateT.run_bind]
  rcases (x.run c).run.run s with ⟨outcome, s'⟩
  cases outcome <;> rfl

lemma runFrom_tryCatch (x : Analysis α) (handle : Failure → Analysis α) :
    (tryCatch x handle).runFrom c s
      = match x.runFrom c s with
        | (.ok a, s') => (.ok a, s')
        | (.error failure, s') => (handle failure).runFrom c s' := by
  change (ExceptT.tryCatch (x.run c) fun e => (handle e).run c).run.run s = _
  simp only [runFrom, ExceptT.tryCatch, ExceptT.mk, ExceptT.run, StateT.run_bind]
  rcases StateT.run (x.run c) s with ⟨outcome, s'⟩
  cases outcome <;> rfl

lemma runFrom_guarded (mode : Mode) (step : Node → Analysis Unit) (node : Node) :
    (guarded mode step node).runFrom c s
      = match (step node).runFrom c s with
        | (.ok a, s') => (.ok a, s')
        | (.error (.fault f), s') => (.error (.fault f), s')
        | (.error (.refusal r), s') =>
          match mode with
          | .strict => (.error (.refusal r), s')
          | .tolerant => (fileRefusal node r).runFrom c s' := by
  rw [guarded, runFrom_tryCatch]
  rcases (step node).runFrom c s with ⟨outcome, s'⟩
  rcases outcome with (_ | _) | _ <;> cases mode <;> rfl

section

variable {c s} {Q : Findings → Prop}

lemma findings_bind {x : Analysis α} {f : α → Analysis β} (hx : Q (x.runFrom c s).2)
    (hf : ∀ a s', Q s' → Q ((f a).runFrom c s').2) : Q ((x >>= f).runFrom c s).2 := by
  rw [runFrom_bind]
  revert hx
  rcases x.runFrom c s with ⟨_ | a, s'⟩
  · exact id
  · exact hf a s'

lemma findings_guarded {step : Node → Analysis Unit} (mode : Mode)
    (hstep : Q ((step n).runFrom c s).2)
    (hfile : ∀ r s', Q s' → Q ((fileRefusal n r).runFrom c s').2) :
    Q ((guarded mode step n).runFrom c s).2 := by
  rw [runFrom_guarded]
  revert hstep
  rcases (step n).runFrom c s with ⟨(r | f) | a, s'⟩
  · cases mode with
    | strict => exact id
    | tolerant => exact hfile r s'
  · exact id
  · exact id

end

lemma runFrom_lift (x : Outcome α) : (liftM x : Analysis α).runFrom c s = (x, s) := by
  cases x <;> rfl

end

section

variable {α β : Type} {c : AnalysisContext} {s : Findings} {node : Node}
variable {P : Except Failure α → Symbols → Prop}

/-- A run that logs nothing, with the given outcome and symbols at its end. -/
def Ends (c : AnalysisContext) (s : Findings) (P : Except Failure α → Symbols → Prop)
    (x : Analysis α) : Prop :=
  (x.runFrom c s).2.log = s.log ∧ P (x.runFrom c s).1 (x.runFrom c s).2.symbols

/-- A refusal, or a fault that a node of the tree or below the given one is to blame for. -/
def Blames (c : AnalysisContext) (node : Node) (failure : Failure) : Prop :=
  ∀ p, c.unit.root.Blamed p → node.Blamed p → Faults p (.error failure : Outcome Unit)

namespace Ends

lemma root_bind {f : Node → Analysis α} (hf : Ends c s P (f c.unit.root)) :
    Ends c s P (root >>= f) :=
  hf

lemma types_bind (hf : Ends c s P (f ⟨c.unit.settings, s.symbols, typeParams :: c.typeParams⟩)) :
    Ends c s P (types typeParams >>= f) :=
  hf

lemma outerTypes_bind (hf : Ends c s P (f (c.outer s.symbols))) : Ends c s P (outerTypes >>= f) :=
  hf

lemma ok_bind {x : Outcome β} {b : β} (hx : x = .ok b) (hf : Ends c s P (f b)) :
    Ends c s P ((liftM x : Analysis β) >>= f) := by
  subst hx
  exact hf

lemma modifySymbols_bind {g : Symbols → Symbols} {f : Unit → Analysis α}
    (hf : Ends c { s with symbols := g s.symbols } P (f ())) :
    Ends c s P (modifySymbols g >>= f) :=
  hf

lemma file_bind {g : Symbols → Nat × Symbols} {f : Nat → Analysis α}
    (hf : Ends c { s with symbols := (g s.symbols).2 } P (f (g s.symbols).1)) :
    Ends c s P (file g >>= f) :=
  hf

lemma bind {Q : Except Failure β → Symbols → Prop} (hx : Ends c s Q x)
    (herror : ∀ failure s', Q (.error failure) s' → P (.error failure) s')
    (hok : ∀ b s', Q (.ok b) s' → Ends c { s with symbols := s' } P (f b)) :
    Ends c s P (x >>= f) := by
  unfold Ends at hx ⊢
  rw [runFrom_bind]
  revert hx
  rcases x.runFrom c s with ⟨outcome, symbols, log⟩
  rintro ⟨rfl, hx⟩
  cases outcome with
  | ok b => exact hok b symbols hx
  | error failure => exact ⟨rfl, herror failure symbols hx⟩

lemma of_run (h : Ends c s P x) (hrun : x.runFrom c s = (outcome, s')) : P outcome s'.symbols := by
  have hend := h.2
  rwa [hrun] at hend

variable (hfail : ∀ failure, Blames c node failure → P (.error failure) s.symbols)
  {f : TypeContext → Analysis α} {f : β → Analysis α}
include hfail

lemma ask_bind (hx : ∀ p, c.unit.root.Blamed p → node.Blamed p → Faults p x)
    (hf : ∀ b, x = .ok b → Ends c s P (f b)) : Ends c s P (liftM x >>= f) := by
  unfold Ends
  cases hcase : x with
  | ok b => exact hf b hcase
  | error failure =>
    refine ⟨rfl, hfail failure fun p hroot hnode fault hfault => ?_⟩
    cases hfault
    exact hx p hroot hnode fault hcase

lemma methodIsPublic_bind {f : Bool → Analysis α}
    (hf : ∀ isPublic, (∀ owner, c.unit.root.enclosingType? node = some owner →
      owner.listsMethods = true → isPublic = true) → Ends c s P (f isPublic)) :
    Ends c s P (methodIsPublic node >>= f) := by
  unfold methodIsPublic
  split
  · exact hf true fun _ _ _ => rfl
  rw [bind_assoc]
  refine .root_bind ?_
  cases howner : c.unit.root.enclosingType? node with
  | none =>
    refine hf false fun owner hsome => ?_
    rw [howner] at hsome
    cases hsome
  | some owner =>
    -- An owner that lists no methods leaves the choice open.
    have hopen : owner.listsMethods = false → ∀ isPublic, Ends c s P (f isPublic) := by
      refine fun hnot isPublic => hf isPublic fun owner' hsome hlists => ?_
      rw [howner] at hsome
      cases hsome
      exact absurd (hnot.symm.trans hlists) Bool.false_ne_true
    dsimp only
    split
    · exact hf true fun _ _ _ => rfl
    · next hkind =>
      split
      · exact hf true fun _ _ _ => rfl
      · next habstract =>
        rw [bind_assoc]
        refine .outerTypes_bind ?_
        rw [bind_assoc]
        refine .ask_bind hfail (fun p hroot _ => faults_superclassOf _ fun n hn => ?_) fun _ _ => ?_
        · exact hroot n (Node.mem_walk_trans hn (Node.mem_walk_of_enclosingType? howner))
        · exact hopen (by simpa [Node.listsMethods, hkind] using habstract) _
    · next hinterface hclass =>
      have hnot : owner.listsMethods = false := by
        unfold Node.listsMethods
        rw [beq_false_of_ne hinterface, beq_false_of_ne hclass]
        rfl
      exact hopen hnot false

end Ends

end

variable {c : AnalysisContext} {s : Findings} {node : Node}
variable {P : Except Failure Unit → Symbols → Prop}

lemma faults_layoutMember {p : Fault → Prop} (layout : Layout) (member : Node) :
    Faults p (layoutMember layout member) := by
  unfold layoutMember
  split
  · split
    · exact .ok _
    · exact (Faults.mapM fun n _ => .requireText n "name").bind fun _ _ => .ok _
  · split
    · exact .ok _
    split
    · exact .ok _
    · exact .ok _
  · exact .ok _

lemma faults_valueTypeOf {p : Fault → Prop} (types : TypeContext) (h : node.Blamed p) :
    Faults p (valueTypeOf types node) := by
  unfold valueTypeOf
  split
  · exact .ok none
  · next htype => exact (faults_tryType types (h.part? htype)).bind fun found _ => .ok _

lemma ends_recordConstants
    (h : ∀ outcome table, (∀ failure, outcome = .error failure → Blames c node failure) →
      P outcome { s.symbols with enumConstants := table }) :
    Ends c s P (recordConstants goName constants) := by
  induction constants generalizing s with
  | nil => exact ⟨rfl, h (.ok ()) s.symbols.enumConstants nofun⟩
  | cons constant constants ih =>
    refine .ask_bind
      (fun failure (hblames : Blames c node failure) => h _ s.symbols.enumConstants ?_)
      (fun _ _ _ => .requireText constant "name") fun name _ => .modifySymbols_bind (ih ?_)
    · rintro _ ⟨⟩
      exact hblames
    · exact fun outcome table => h outcome table

lemma runFrom_recordSuperclass (c : AnalysisContext) (s : Findings) (node : Node)
    (goName : String) :
    (recordSuperclass goName node).runFrom c s
      = match s.symbols.layouts.find? goName with
        | none => (.ok (), s)
        | some layout =>
          match superclassOf (c.around s.symbols node) node with
          | .error failure => (.error failure, s)
          | .ok superclass =>
            (.ok (), { s with symbols := s.symbols.withSuperclass goName layout superclass }) := by
  unfold recordSuperclass
  change (match s.symbols.layouts.find? goName with
    | none => _
    | some layout => _ : Analysis Unit).runFrom c s = _
  cases s.symbols.layouts.find? goName with
  | none => rfl
  | some =>
    change ((liftM (superclassOf (c.around s.symbols node) node) : Analysis _) >>= _).runFrom c s
      = _
    cases superclassOf (c.around s.symbols node) node with
    | error failure => rfl
    | ok superclass => rfl

variable (hfail : ∀ failure, Blames c node failure → P (.error failure) s.symbols)
include hfail

lemma ends_recordSuperclass (hnone : s.symbols.layouts.find? goName = none → P (.ok ()) s.symbols)
    (hok : ∀ layout superclass, s.symbols.layouts.find? goName = some layout →
      superclassOf (c.around s.symbols node) node = .ok superclass →
      P (.ok ()) (s.symbols.withSuperclass goName layout superclass)) :
    Ends c s P (recordSuperclass goName node) := by
  unfold Ends
  rw [runFrom_recordSuperclass]
  cases hfind : s.symbols.layouts.find? goName with
  | none => exact ⟨rfl, hnone hfind⟩
  | some layout =>
    cases hsuper : superclassOf (c.around s.symbols node) node with
    | ok superclass => exact ⟨rfl, hok layout superclass hfind hsuper⟩
    | error failure =>
      refine ⟨rfl, hfail failure fun p _ hnode fault hfault => ?_⟩
      cases hfault
      exact faults_superclassOf _ hnode fault hsuper

lemma ends_recordType
    (hrecorded : ∀ d constants, node.requireText "name" = .ok d.javaName →
      declaredGoName (c.outer s.symbols) node = .ok d.goName →
      typeIsPublic (c.outer s.symbols) node = .ok d.isPublic → d.kind = node.kind →
      (∀ failure, Blames c node failure → P (.error failure) (s.symbols.withType d constants))
        ∧ (s.symbols.layouts.find? d.goName = none → P (.ok ()) (s.symbols.withType d constants))
        ∧ ∀ layout superclass, s.symbols.layouts.find? d.goName = some layout →
          superclassOf (c.around (s.symbols.withType d constants) node) node = .ok superclass →
          P (.ok ()) ((s.symbols.withType d constants).withSuperclass d.goName layout superclass)) :
    Ends c s P (recordType node) := by
  refine .ask_bind hfail (fun _ _ _ => .requireText node "name") fun javaName hname => ?_
  refine .outerTypes_bind ?_
  refine .ask_bind hfail (fun _ _ hnode => faults_declaredGoName _ hnode) fun goName hgo => ?_
  refine .ask_bind hfail (fun _ _ hnode => faults_typeIsPublic _ hnode) fun isPublic hpublic => ?_
  refine .modifySymbols_bind ?_
  let d : DeclaredType := ⟨javaName, goName, isPublic, node.kind⟩
  have hlast := fun constants => hrecorded d constants hname hgo hpublic rfl
  have hrest : ∀ constants, Ends c { s with symbols := s.symbols.withType d constants } P
      (recordSuperclass goName node) := fun constants =>
    ends_recordSuperclass (hlast constants).1 (hlast constants).2.1 (hlast constants).2.2
  split
  · refine .ask_bind (hlast s.symbols.enumConstants).1 (fun _ _ _ => .require node "body")
      fun body _ => ?_
    refine .bind (Q := fun outcome s' => ∃ constants, s' = s.symbols.withType d constants
      ∧ ∀ failure, outcome = .error failure → Blames c node failure)
      (ends_recordConstants fun outcome constants h => ⟨constants, rfl, h⟩) ?_ ?_
    · rintro failure _ ⟨constants, rfl, hblames⟩
      exact (hlast constants).1 failure (hblames failure rfl)
    · rintro _ _ ⟨constants, rfl, -⟩
      exact hrest constants
  · exact hrest s.symbols.enumConstants

lemma ends_recordAbstract (hother : node.isAbstractClass = false → P (.ok ()) s.symbols)
    (hnoted : ∀ failure goName, Blames c node failure →
      P (.error failure) (s.symbols.addAbstractType goName))
    (hok : ∀ goName layout, node.isAbstractClass = true →
      declaredGoName (c.outer s.symbols) node = .ok goName → layoutOf goName node = .ok layout →
      P (.ok ()) { s.symbols.addAbstractType goName with
        layouts := (s.symbols.addAbstractType goName).layouts.insert goName layout }) :
    Ends c s P (recordAbstract node) := by
  unfold recordAbstract
  split
  · next habstract =>
    refine .outerTypes_bind ?_
    refine .ask_bind hfail (fun _ _ hnode => faults_declaredGoName _ hnode) fun goName hgo => ?_
    refine .modifySymbols_bind (.ask_bind (fun failure => hnoted failure goName) (fun _ _ _ => ?_)
      fun layout hlayout => ⟨rfl, hok goName layout habstract hgo hlayout⟩)
    exact Faults.foldlM (fun layout member _ => faults_layoutMember layout member) _
  · next hnot => exact ⟨rfl, hother (Bool.eq_false_iff.2 hnot)⟩

lemma ends_recordMethod
    (hfiled : ∀ failure javaName types isPublic isStatic, Blames c node failure →
      P (.error failure) (s.symbols.addMethod javaName types isPublic isStatic).2)
    (hok : ∀ record : MethodRecord, (∃ types, valueTypeOf types node = .ok record.valueType) →
      record.throws = (node.childOfKind? .throws).isSome →
      record.result = foldThrows record.valueType record.throws →
      (∀ owner, c.unit.root.enclosingType? node = some owner → owner.listsMethods = true →
        record.isPublic = true) → P (.ok ()) (s.symbols.withMethod node record)) :
    Ends c s P (recordMethod node) := by
  refine .ask_bind hfail (fun _ _ _ => .requireText node "name") fun javaName _ => ?_
  refine .root_bind (.root_bind (.types_bind ?_))
  refine .ask_bind hfail (fun _ _ _ => .require node "parameters") fun list hlist => ?_
  refine .ask_bind hfail (fun _ _ hnode => faults_parameters _ (hnode.part hlist))
    fun params _ => ?_
  refine .ask_bind hfail (fun _ _ hnode => faults_valueTypeOf _ hnode) fun valueType hvalue => ?_
  refine .methodIsPublic_bind hfail fun isPublic hpublic => .file_bind ?_
  cases c.unit.root.enclosingType? node with
  | none =>
    exact ⟨rfl, hok ⟨javaName, params, _, isPublic, node.modifiers.isStatic, _, _, _, _, _, _, 0⟩
      ⟨_, hvalue⟩ rfl rfl hpublic⟩
  | some owner =>
    refine .ask_bind (fun failure => hfiled failure _ _ _ _)
      (fun _ _ _ => .requireText owner "name") fun ownerName _ => ?_
    exact ⟨rfl, hok ⟨javaName, params, _, isPublic, node.modifiers.isStatic, _, _, _, _, _, _, 0⟩
      ⟨_, hvalue⟩ rfl rfl hpublic⟩

lemma ends_recordConstructor
    (hok : ∀ owner javaName types list params isPublic entry overloads,
      c.unit.root.enclosingType? node = some owner → owner.requireText "name" = .ok javaName →
      node.require "parameters" = .ok list → parameters types list = .ok params →
      P (.ok ()) (s.symbols.withConstructor overloads node.id
        ⟨(c.outer s.symbols).mapName javaName, params, isPublic, entry⟩)) :
    Ends c s P (recordConstructor node) := by
  refine .root_bind ?_
  cases howner : c.unit.root.enclosingType? node with
  | none => exact ⟨rfl, hfail _ fun _ _ _ => .refusal _⟩
  | some owner =>
    refine .ask_bind hfail (fun _ _ _ => .requireText owner "name") fun javaName hname => ?_
    refine .outerTypes_bind (.root_bind (.types_bind ?_))
    refine .ask_bind hfail (fun _ _ _ => .require node "parameters") fun list hlist => ?_
    refine .ask_bind hfail (fun _ _ hnode => faults_parameters _ (hnode.part hlist)) ?_
    exact fun params hparams =>
      ⟨rfl, hok owner javaName _ list params _ _ _ howner hname hlist hparams⟩

omit hfail in
/-- The node under which the constructor of a record is recorded that takes every component. -/
def canonicalNode (node : Node) : Node :=
  ((node.fieldChild? "body").bind (·.childOfKind? .compactConstructorDeclaration)).getD node

lemma ends_recordCanonicalConstructor
    (hok : ∀ javaName types list params isPublic entry overloads,
      node.requireText "name" = .ok javaName → node.require "parameters" = .ok list →
      parameters types list = .ok params →
      P (.ok ()) (s.symbols.withConstructor overloads (canonicalNode node).id
        ⟨(c.outer s.symbols).mapName javaName, params, isPublic, entry⟩)) :
    Ends c s P (recordCanonicalConstructor node) := by
  refine .ask_bind hfail (fun _ _ _ => .requireText node "name") fun javaName hname => ?_
  refine .outerTypes_bind (.root_bind (.types_bind ?_))
  refine .ask_bind hfail (fun _ _ _ => .require node "parameters") fun list hlist => ?_
  refine .ask_bind hfail (fun _ _ hnode => faults_parameters _ (hnode.part hlist)) ?_
  exact fun params hparams => ⟨rfl, hok javaName _ list params _ _ _ hname hlist hparams⟩

end Analysis
end JavaToGo
