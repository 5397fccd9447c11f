import JavaToGo.Proofs.Lowering.Emits

/-!
# The accounts of expressions

An ambiguous call adds a comment, a pattern the binding of its name, an assignment
and an update the statements that they become.  Whether a call is one that Go
writes differently is decided before anything is lowered.
-/

namespace JavaToGo

open JavaToGo.Tree (Node)
open List

namespace Lower

/-- What is asked of a node whose rule is to keep its accounts. -/
structure Admits (S : Scale) (p : Setting) (value : Node → Lower Lowered) (node : Node) : Prop where
  named : node.kind = .instanceOf → ∀ name, node.fieldChild? "name" = some name → S.named name.text
  asked : ∀ n ∈ node :: node.children, n.kind = .identifier → S.asked n.text
  settable : ∀ target ∈ Part.places p.types.symbols node, Settable S p value target
  writes : node.kind = .assignment ∨ node.kind = .update → S.writes

variable {node target : Node}

lemma Admits.asked_part {value : Node → Lower Lowered} (h : Admits S p value node)
    (htarget : node.fieldChild? field = some target) :
    target.kind = .identifier → S.asked target.text :=
  h.asked target (mem_cons_of_mem _ (Node.mem_children_of_fieldChild? htarget))

lemma Admits.within {value : Node → Lower Lowered} (h : Admits S p value node) (b : Bool) :
    Admits S (p.within b) value node :=
  ⟨h.named, h.asked, h.settable, h.writes⟩

variable {S : Scale} {value : Node → Lower Lowered} {code : Node → Lower (List Stmt)} {p : Setting}
  {held : Nat} {β : Type} {parts : List Part} {total : β → Nat}

lemma emits_lowerAll (nodes : List Node) :
    Emits S value code p (nodes.map .value) held (lowerAll value nodes)
      fun a => held + S.all a.before := by
  induction nodes generalizing held with
  | nil => exact .done rfl
  | cons node nodes ih =>
    exact (Emits.value node).step fun first => ih.last fun rest =>
      .done (by simp [Nat.add_assoc])

lemma emits_assignTo (hwrites : S.writes)
    (hasked : target.kind = .identifier → S.asked target.text)
    (hsettable : Settable S p value target)
    (htarget : EmitsValue S value code p parts held (value target)) (expr : Expr) :
    EmitsCode S value code p parts held (assignTo value target expr) := by
  rw [← append_nil parts]
  refine .place rfl hsettable hasked htarget (fun hkind setter => ?_) fun place hplace => ?_
  · exact .behind hkind (nil_subset _) (.pure 0 1 (by simp) (.inr hwrites))
  · exact .pure 0 1 (by simp [hplace, Nat.add_assoc]) (.inr hwrites)

lemma emits_fieldOf (htarget : EmitsValue S value code p parts held (value target))
    (field : String) : EmitsValue S value code p parts held (fieldOf value target field) := by
  refine htarget.last fun a => ?_
  split
  · exact .done rfl
  · exact .done rfl

lemma emits_fieldAccess (hnode : Admits S p value node) :
    EmitsValue S value code p (Part.holder (node.fieldChild? "object")) held
      (fieldAccess value node) := by
  refine .require fun target htarget => .requireText fun field _ => ?_
  rw [htarget]
  split
  · rw [Part.holder, if_pos (.inl ‹_›)]
    exact .ask (asks_selfField _) fun self => .done rfl
  · rw [Part.holder, if_pos (.inr ‹_›)]
    exact .ask (asks_selfExpr _) fun self => .done rfl
  · rename_i hkind
    rw [Part.holder, if_neg (by simp [hkind]), Part.object, if_pos hkind]
    refine .ask (asks_declaredKind? (hnode.asked_part htarget hkind)) fun kind => ?_
    split
    · exact .unused target (.types (.done rfl))
    · exact .unused target (.done rfl)
    · exact emits_fieldOf (.maybe target) _
  · rename_i hself hsuper hname
    rw [Part.holder, if_neg (not_or.2 ⟨hself, hsuper⟩), Part.object, if_neg hname]
    exact emits_fieldOf (.value target) _

lemma emits_arrayAccess (node : Node) :
    EmitsValue S value code p (Part.fields node ["array", "index"]) held (arrayAccess value node) :=
  .field fun array => .field fun index => .done (by simp [Nat.add_assoc])

lemma emits_lengthOf (target : Node) :
    EmitsValue S value code p [.value target] held (lengthOf value target) :=
  (Emits.value target).last fun _ => .done rfl

section

variable {k : Option Lowered → Lower β}
  (hsome : ∀ a : Lowered, Emits S value code p [] (held + S.all a.before) (k (some a)) total)
  (hnone : Emits S value code p parts held (k none) total)
include hsome hnone

omit hsome in
lemma emits_unless {c : Prop} [Decidable c] {nodes : List Node}
    (hx : Emits S value code p (nodes.map .value) held (x >>= k) total) :
    Emits S value code p ((if c then none else some nodes).elim parts (List.map .value)) held
      ((if c then pure none else x) >>= k) total := by
  by_cases hc : c
  · rw [if_pos hc, if_pos hc]
    exact hnone
  · rw [if_neg hc, if_neg hc]
    exact hx

lemma emits_valueIdiom (target : Node) (name : String) (args : List Node) :
    Emits S value code p
      ((Part.valueIdiom p.types.symbols target name args).elim parts (List.map .value)) held
      (valueIdiom value target name args >>= k) total := by
  have hone : ∀ {x : Lower Lowered} (g : Lowered → Lowered), (∀ a, (g a).before = a.before) →
      (EmitsValue S value code p [.value target] held x) →
      Emits S value code p [.value target] held (x >>= fun a => k (some (g a))) total :=
    fun g hg hx => hx.last fun a => by simpa [hg] using hsome (g a)
  have hpair : ∀ (arg : Node) (g : Lowered → Lowered → Expr),
      Emits S value code p [.value target, .value arg] held
        (value target >>= fun a => value arg >>= fun b =>
          k (some ⟨g a b, a.before ++ b.before⟩)) total := fun arg g =>
    (Emits.value target).step fun a => (Emits.value arg).last fun b => by
      simpa [Nat.add_assoc] using hsome ⟨g a b, a.before ++ b.before⟩
  unfold valueIdiom
  rw [bind_assoc]
  refine .symbols ?_
  split
  case h_1 =>
    simp only [bind_assoc]
    exact hpair _ _
  case h_8 =>
    -- What is none of these names on the one side is none on the other.
    have hpart : Part.valueIdiom p.types.symbols target name args = none := by
      unfold Part.valueIdiom
      all_goals simp_all
    rw [hpart]
    exact hnone
  all_goals
    refine emits_unless hnone ?_
    simp only [bind_assoc]
  case h_2 | h_3 => exact hone id (fun _ => rfl) (emits_lengthOf target)
  case h_4 => exact hone _ (fun _ => rfl) (emits_lengthOf target)
  case h_5 => exact hone id (fun _ => rfl) (.value target)
  case h_6 => exact hpair _ _
  case h_7 => exact hone _ (fun _ => rfl) (.value target)

lemma emits_libraryIdiom (target : Node) (name : String) (args : List Node) :
    Emits S value code p
      ((Part.libraryIdiom p.types.symbols target name args).elim parts (List.map .value)) held
      (libraryIdiom value target name args >>= k) total := by
  unfold libraryIdiom Part.libraryIdiom
  by_cases hlist : (target.text = "Arrays" && name = "asList") = true
  · rw [if_pos hlist, if_pos hlist]
    simp only [listLiteral, bind_assoc]
    exact (emits_lowerAll args).last fun values => .read fun c _ => hsome ⟨_, values.before⟩
  rw [if_neg hlist, if_neg hlist]
  by_cases hstream : (target.text = "System.out" || target.text = "System.err") = true
  · rw [if_pos hstream, hstream]
    cases printFunctions.lookup name with
    | none => exact emits_valueIdiom hsome hnone target name args
    | some =>
      simp only [printCall, bind_assoc]
      refine (emits_lowerAll args).last fun values => ?_
      refine (Emits.requireImport (.inl rfl)).last fun _ => ?_
      split
      · simp only [pure_bind]
        exact (Emits.requireImport (.inr rfl)).last fun _ => hsome ⟨_, values.before⟩
      · rw [pure_bind]
        exact hsome ⟨_, values.before⟩
  · rw [Bool.eq_false_iff.2 hstream]
    exact emits_valueIdiom hsome hnone target name args

lemma emits_idiom (target : Option Node) (name : String) (args : List Node) :
    Emits S value code p
      ((Part.idiom p.types.symbols target name args).elim parts (List.map .value)) held
      (idiom value target name args >>= k) total := by
  unfold idiom Part.idiom
  cases target with
  | none =>
    exact hnone
  | some target =>
    dsimp only
    by_cases hself : (target.kind = .self || target.kind = .super) = true
    · rw [if_pos hself, if_pos hself]
      exact hnone
    · rw [if_neg hself, if_neg hself]
      exact emits_libraryIdiom hsome hnone target name args

end

lemma emits_object (target : Node) :
    EmitsValue S value code p (Part.object target) held (value target) := by
  unfold Part.object
  split
  · exact .maybe target
  · exact .value target

lemma emits_targetCall (hasked : target.kind = .identifier → S.asked target.text)
    (resolution : Resolution) (args : LoweredList) :
    Emits S value code p (Part.object target) (held + S.all args.before)
      (targetCall value target resolution args) fun a => held + S.all a.before := by
  have hnames :
      (namesType target).Gives fun isType => isType = true → target.kind = .identifier := by
    intro c t isType t' hrun hisType
    by_cases hkind : target.kind = .identifier
    · exact hkind
    · rw [namesType, if_neg hkind] at hrun
      cases hrun
      cases hisType
  refine .askFor (asks_namesType hasked)
    (fun c t a t' _ => hnames c t a t') fun isType hisType => ?_
  split
  · rename_i hstatic
    rw [Part.object, if_pos (hisType (Bool.and_eq_true_iff.1 hstatic).1)]
    exact .unused target (.ask (asks_calledName resolution false) fun called => .done rfl)
  · refine (emits_object target).last fun a => ?_
    exact .ask (asks_calledName resolution false) fun called => .done (by simp; omega)

lemma emits_plainCall (node : Node) {target : Option Node}
    (hasked : ∀ t, target = some t → t.kind = .identifier → S.asked t.text) (name : String)
    (args : List Node) :
    EmitsValue S value code p (args.map .value ++ Part.holder target) held
      (plainCall value node target name args) := by
  refine (emits_lowerAll args).step fun lowered => .symbols ?_
  have hbefore : held + S.all lowered.before
      + S.logged ((p.types.symbols.resolveMethod name lowered.values.length).methodEvents name
          lowered.values.length)
      = held + S.all (withAmbiguity (p.types.symbols.resolveMethod name lowered.values.length) name
          lowered.values.length lowered.before) := by
    rw [Resolution.methodEvents, withAmbiguity]
    split
    · rw [← S.methodMark, S.all_cons]
      omega
    · simp
  refine (Emits.noteAll _).quietly fun _ => ?_
  rw [hbefore]
  cases target with
  | none => exact .ask (asks_selfCall _ _ _ _) fun called => .done rfl
  | some target =>
    dsimp only
    split
    · rw [Part.holder, if_pos (.inl ‹_›)]
      exact .ask (asks_selfCall _ _ _ _) fun called => .done rfl
    · rw [Part.holder, if_pos (.inr ‹_›)]
      exact .ask (asks_superCall _ _ _) fun called => .done rfl
    · rename_i hself hsuper
      rw [Part.holder, if_neg (not_or.2 ⟨hself, hsuper⟩)]
      exact emits_targetCall (hasked target rfl) _ ⟨lowered.values, _⟩

lemma emits_methodInvocation (hnode : Admits S p value node) :
    EmitsValue S value code p (Part.methodInvocation p.types.symbols node) held
      (methodInvocation value node) := by
  refine .requireText fun name hname => .require fun arguments harguments => ?_
  rw [Part.methodInvocation, Part.optional, hname]
  simp only [Part.optional, harguments]
  refine emits_idiom (fun a => ?_) ?_ _ _ _
  · exact .done rfl
  · exact emits_plainCall node (fun _ htarget => hnode.asked_part htarget) _ _

lemma emits_newList (type : String) (args : List Node) :
    EmitsValue S value code p ((args.take 1).map .value) held (newList value type args) := by
  cases args with
  | nil => exact .done rfl
  | cons first rest =>
    refine (Emits.value first).last fun arg => ?_
    split
    · exact .done rfl
    · exact .done rfl

lemma emits_constructorCall (type : Node) (args : List Node) :
    EmitsValue S value code p (args.map .value) held (constructorCall value type args) := by
  refine (emits_lowerAll args).last fun lowered => ?_
  refine .lift (faults_simpleTypeName type) fun javaName _ => .symbols (.types ?_)
  refine (Emits.noteAll _).quietly fun _ => .done ?_
  rw [Resolution.constructorEvents]
  split
  · rw [← S.constructorMark, S.all_cons]
    omega
  · simp

lemma emits_objectCreation (node : Node) :
    EmitsValue S value code p (Part.objectCreation p.types node) held
      (objectCreation value node) := by
  refine .require fun type htype => ?_
  split
  · exact .refuse _
  refine .types (.lift (faults_typeOf p.types type.blamed_isOther) fun goType hgoType => ?_)
  refine .require fun arguments harguments => ?_
  simp only [Part.objectCreation, Part.optional, htype, harguments, Option.elim_some, hgoType,
    Part.creationArguments]
  by_cases hslice : Code.isSliceType (some goType) = true
  · rw [if_pos hslice, if_pos hslice]
    exact .ask (asks_containerType goType) fun container => emits_newList _ _
  rw [if_neg hslice, if_neg hslice]
  by_cases hmap : Code.isMapType (some goType) = true
  · rw [if_pos hmap, if_pos hmap]
    exact .ask (asks_containerType goType) fun container => .done rfl
  · rw [if_neg hmap, if_neg hmap]
    exact emits_constructorCall type _

lemma emits_arrayInitializer (node : Node) :
    EmitsValue S value code p (node.operands.map .value) held (arrayInitializer value node) :=
  .read fun _ _ => ((emits_lowerAll _).expecting _).last fun _ => .done rfl

lemma emits_arrayCreation (node : Node) :
    EmitsValue S value code p (Part.arrayCreation node) held (arrayCreation value node) := by
  refine .types (.require fun type _ => ?_)
  refine .lift (faults_typeOf p.types type.blamed_isOther) fun element _ => ?_
  unfold Part.arrayCreation
  cases node.fieldChild? "value" with
  | some initializer => exact (emits_arrayInitializer initializer).expecting _
  | none =>
    dsimp only
    cases (arrayDimensions node).1 with
    | nil => exact .done rfl
    | cons first rest => exact (Emits.value first).last fun size => .done rfl

lemma emits_methodReference (node : Node) :
    EmitsValue S value code p [] held (methodReference node) := by
  unfold methodReference
  split
  · split
    · refine .types (.lift (faults_typeOf p.types (Node.blamed_isOther _)) fun goType _ => ?_)
      exact .done rfl
    · exact .refuse _
  · exact .refuse _

lemma emits_assignmentStmts (hkind : node.kind = .assignment) (hnode : Admits S p value node) :
    EmitsCode S value code p (Part.assignment node) held (assignmentStmts value node) := by
  refine .require fun left hleft => .requireText fun operator hoperator => ?_
  have hstored : ∀ held expr, EmitsCode S value code p [.value left] held
      (assignTo value left expr) := fun held expr =>
    emits_assignTo (hnode.writes (.inl hkind)) (hnode.asked_part hleft)
      (hnode.settable left (by simp [Part.places, hkind, hleft])) (.value left) expr
  have hparts : Part.assignment node = Part.field node "right"
      ++ ((if operator.text = "=" then [] else [.value left]) ++ [.value left]) := by
    simp [Part.assignment, Part.optional, Part.field, hleft, hoperator]
  rw [hparts]
  refine .field fun right => ?_
  by_cases hplain : operator.text = "="
  · rw [if_pos hplain, if_pos hplain]
    exact (hstored _ _).last fun stored => .done (by simp [Nat.add_assoc])
  · rw [if_neg hplain, if_neg hplain]
    refine (Emits.value left).step fun current => ?_
    exact (hstored _ _).last fun stored => .done (by simp [Nat.add_assoc])

lemma emits_assignmentValue (hkind : node.kind = .assignment) (hnode : Admits S p value node) :
    EmitsValue S value code p (Part.assignment node ++ Part.field node "left") held
      (assignmentValue value node) := by
  refine .require fun left hleft => ?_
  refine (emits_assignmentStmts hkind hnode).step fun statements => ?_
  rw [Part.field, Part.optional, hleft]
  exact (Emits.value left).last fun a => .done (by simp [Nat.add_assoc])

lemma emits_binaryExpression (node : Node) :
    EmitsValue S value code p (Part.fields node ["left", "right"]) held
      (binaryExpression value node) :=
  .field fun left => .field fun right => .requireText fun operator _ =>
    .done (by simp [Nat.add_assoc])

lemma emits_unaryExpression (node : Node) :
    EmitsValue S value code p (Part.fields node ["operand"]) held (unaryExpression value node) := by
  refine .field fun operand => .requireText fun operator _ => ?_
  split
  · exact .done rfl
  · exact .done rfl

lemma faults_updateParts (node : Node) : Faults Fault.IsOther node.updateParts := by
  unfold Node.updateParts
  dsimp only
  split
  · exact .ok _
  · exact .refusal _

lemma emits_updateStmts (hkind : node.kind = .update) (hnode : Admits S p value node) :
    EmitsCode S value code p (Part.update node) held (updateStmts value node) := by
  refine .lift (faults_updateParts node) fun parts hparts => ?_
  obtain ⟨operand, operator, isPrefix⟩ := parts
  have hasked : operand.kind = .identifier → S.asked operand.text :=
    hnode.asked operand (mem_cons_of_mem _ (Node.mem_children_of_updateParts hparts))
  have hsettable : Settable S p value operand :=
    hnode.settable operand (by simp [Part.places, hkind, hparts, Except.toOption])
  have hwrites := hnode.writes (.inr hkind)
  rw [Part.update, hparts]
  refine .place rfl hsettable hasked (.value operand) (fun hbehind _ => ?_) fun target hplace =>
    .pure 1 1 (by simp [hplace]; omega) (.inr hwrites)
  refine .behind hbehind ?_ ((Emits.value operand).step fun current =>
    (emits_assignTo hwrites hasked hsettable (.value operand) _).last fun stored =>
      .done (by simp [Nat.add_assoc]))
  simp

lemma emits_updateValue (hkind : node.kind = .update) (hnode : Admits S p value node) :
    EmitsValue S value code p (Part.updateValue node) held (updateValue value node) := by
  refine .lift (faults_updateParts node) fun parts hparts => ?_
  have hsplit : Part.updateValue node = Part.update node ++ [.value parts.1] := by
    simp [Part.updateValue, Part.update, hparts]
  rw [hsplit]
  dsimp only
  split
  · exact .refuse _
  refine (emits_updateStmts hkind hnode).step fun statements => ?_
  exact (Emits.value parts.1).last fun a => .done (by simp [Nat.add_assoc])

lemma emits_parenthesizedExpression (node : Node) :
    EmitsValue S value code p (Part.parenthesized node) held
      (parenthesizedExpression value node) := by
  unfold parenthesizedExpression Part.parenthesized
  cases node.operands with
  | nil => exact .refuse _
  | cons inner more =>
    cases more with
    | nil => exact .value inner
    | cons next rest => exact .refuse _

lemma emits_castExpression (node : Node) :
    EmitsValue S value code p (Part.fields node ["value"]) held (castExpression value node) := by
  refine .types (.require fun typeNode _ => ?_)
  refine .lift (faults_typeOf p.types typeNode.blamed_isOther) fun type _ => .field fun a => ?_
  split
  · exact .done rfl
  · exact .done rfl

lemma emits_instanceOfExpression
    (hnamed : ∀ name, node.fieldChild? "name" = some name → S.named name.text) :
    EmitsValue S value code p (Part.fields node ["left"]) held
      (instanceOfExpression value node) := by
  refine .field fun a => ?_
  split
  · exact .refuse _
  refine .types (.lift (faults_typeOf p.types (Node.blamed_isOther _)) fun type _ => ?_)
  split
  · exact .done rfl
  · rename_i name hname
    exact (Emits.declareLocal (hnamed name hname)).quietly fun _ => .done (by simp [Nat.add_assoc])

lemma emits_ternaryExpression (node : Node) :
    EmitsValue S value code p (Part.fields node ["condition", "consequence", "alternative"]) held
      (ternaryExpression value node) := by
  refine .field fun test => .field fun first => .field fun second => ?_
  split
  · exact .read fun c _ => .done (by simp [Nat.add_assoc])
  · exact .refuse _

lemma emits_expressionStep (hnode : Admits S p value node) :
    EmitsValue S value code p (Part.ofValue p.types node) held (expressionStep value node) := by
  unfold expressionStep
  split
  all_goals try rw [Part.ofValue, ‹node.kind = _›]
  case h_1 hkind =>
    exact .ask (asks_resolveName (hnode.asked node mem_cons_self hkind)) fun a => .done rfl
  case h_2 => exact .ask (asks_selfExpr _) fun a => .done rfl
  case h_3 => exact emits_fieldAccess hnode
  case h_4 => exact emits_arrayAccess node
  case h_5 => exact emits_methodInvocation hnode
  case h_6 => exact emits_objectCreation node
  case h_7 => exact emits_arrayCreation node
  case h_8 => exact emits_arrayInitializer node
  case h_9 => exact emits_methodReference node
  case h_10 hkind => exact emits_assignmentValue hkind hnode
  case h_11 => exact emits_binaryExpression node
  case h_12 => exact emits_unaryExpression node
  case h_13 hkind => exact emits_updateValue hkind hnode
  case h_14 => exact emits_parenthesizedExpression node
  case h_15 => exact emits_castExpression node
  case h_16 hkind => exact emits_instanceOfExpression (hnode.named hkind)
  case h_17 => exact emits_ternaryExpression node
  -- Literals are copied, and nothing else is an expression.
  all_goals first | exact .done rfl | exact .refuse _

end Lower

end JavaToGo
