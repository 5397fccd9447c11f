import JavaToGo.Proofs.Ambiguity.Simulation

/-!
# Expressions in a settled context

Settling takes the comments about ambiguous calls away from what an expression
needs before it, and changes nothing else.
-/

namespace JavaToGo

open Code (Stmt)
open List

variable (statements : List Stmt)

def Code.Stmt.isAmbiguityNote : Stmt → Bool
  | .comment comments => comments.any Code.isMark
  | _ => false

/-- The statements without the comments about ambiguous calls. -/
def settle (statements : List Stmt) : List Stmt :=
  statements.filter fun s => !s.isAmbiguityNote

@[simp] lemma isAmbiguityNote_of_ne {s : Stmt} (h : ∀ comments, s ≠ .comment comments) :
    s.isAmbiguityNote = false := by
  unfold Stmt.isAmbiguityNote
  split
  · exact absurd rfl (h _)
  · rfl

@[simp] lemma settle_nil : settle [] = [] :=
  rfl

@[simp] lemma settle_cons (s : Stmt) :
    settle (s :: statements)
      = if s.isAmbiguityNote then settle statements else s :: settle statements := by
  cases hnote : s.isAmbiguityNote with
  | true | false => simp [settle, hnote]

@[simp] lemma settle_append (more : List Stmt) :
    settle (statements ++ more) = settle statements ++ settle more :=
  filter_append ..

lemma isAmbiguityNote_of_marks (h : (Stmt.comment comments).marks = 1) :
    (Stmt.comment comments).isAmbiguityNote = true := by
  have hpos : 0 < comments.countP Code.isMark := by
    simp only [Stmt.total_simple, Stmt.ownMarks, Code.markCount] at h
    omega
  exact any_eq_true.2 (countP_pos_iff.1 hpos)

@[simp] lemma isAmbiguityNote_methodAmbiguity (name : String) (count : Nat) :
    (methodAmbiguity name count).isAmbiguityNote = true :=
  isAmbiguityNote_of_marks (marks_methodAmbiguity name count)

@[simp] lemma isAmbiguityNote_constructorAmbiguity (javaName : String) :
    (constructorAmbiguity javaName).isAmbiguityNote = true :=
  isAmbiguityNote_of_marks (marks_constructorAmbiguity javaName)

lemma isComment_of_isAmbiguityNote {s : Stmt} (h : s.isAmbiguityNote = true) :
    s.isComment = true := by
  cases s with
  | comment => rfl
  | _ => cases h

lemma all_isComment_settle :
    (settle statements).all Stmt.isComment = statements.all Stmt.isComment := by
  induction statements with
  | nil => rfl
  | cons s statements ih =>
    cases hnote : s.isAmbiguityNote with
    | true => simp [hnote, ih, isComment_of_isAmbiguityNote hnote]
    | false => simp [hnote, ih]

/-- The expression without the comments in front of it. -/
def Lowered.settled (a : Lowered) : Lowered :=
  { a with before := settle a.before }

/-- The expressions without the comments in front of them. -/
def LoweredList.settled (a : LoweredList) : LoweredList :=
  { a with before := settle a.before }

namespace Lower

variable (refused : Failure → Prop) (c : Context) (b : Buckets)

abbrev Settling (x : Lower Lowered) : Prop :=
  Parallel refused c b x x fun a a' => a' = a.settled

abbrev SettlingOption (x : Lower (Option Lowered)) : Prop :=
  Parallel refused c b x x fun a a' => a' = a.map Lowered.settled

/-- The same for statements that take the place of an expression. -/
abbrev SettlingStmts (x : Lower (List Stmt)) : Prop :=
  Parallel refused c b x x fun a a' => a' = settle a

variable {refused c b} {go : Node → Lower Lowered} {node : Node}

lemma settling_methodReference (node : Node) : Settling refused c b (methodReference node) := by
  unfold methodReference
  split
  · split
    · exact .types (.typeOf fun goType => .pure rfl)
    · exact .throw _
  · exact .throw _

lemma settle_withAmbiguity (resolution : Resolution) (name : String) (count : Nat)
    (before : List Stmt) :
    settle (withAmbiguity resolution name count before) = settle before := by
  unfold withAmbiguity
  split
  · simp
  · rfl

lemma settle_withConstructorAmbiguity (ambiguous : Bool) (javaName : String) (before : List Stmt) :
    settle (if ambiguous then constructorAmbiguity javaName :: before else before)
      = settle before := by
  cases ambiguous with
  | true => simp
  | false => rfl

section

variable (hgo : ∀ node, c.Settles b node → Settling refused c b (go node))
include hgo

lemma parallel_lowerAll : ∀ {nodes : List Node}, (∀ n ∈ nodes, c.Settles b n) →
    Parallel refused c b (lowerAll go nodes) (lowerAll go nodes)
      fun a a' => a' = a.settled ∧ a.values.length = nodes.length
  | [], _ => .pure ⟨rfl, rfl⟩
  | node :: nodes, h => by
    refine (hgo node (h node mem_cons_self)).step fun first => ?_
    refine (parallel_lowerAll fun n hn => h n (mem_cons_of_mem _ hn)).bind ?_
    rintro rest _ ⟨rfl, hlength⟩
    refine .pure ⟨?_, by simp [hlength]⟩
    simp [LoweredList.settled, Lowered.settled]

lemma settling_lowerAll (h : ∀ n ∈ nodes, c.Settles b n) :
    Parallel refused c b (lowerAll go nodes) (lowerAll go nodes) fun a a' => a' = a.settled :=
  (parallel_lowerAll hgo h).mono fun _ _ ha => ha.1

section

variable {target : Node} (htarget : c.Settles b target)
include htarget

lemma settling_assignTo (value : Expr) : SettlingStmts refused c b (assignTo go target value) := by
  refine (asks_fieldSetter? fun _ => trivial).same.step fun setter => ?_
  cases setter with
  | some => exact .pure (by simp)
  | none => exact (hgo target htarget).step fun place => .pure (by simp [Lowered.settled])

lemma settling_fieldOf (field : String) : Settling refused c b (fieldOf go target field) := by
  refine (hgo target htarget).step fun value => ?_
  split
  · exact .pure rfl
  · exact .pure rfl

lemma settling_lengthOf : Settling refused c b (lengthOf go target) :=
  (hgo target htarget).step fun _ => .pure rfl

lemma settling_targetCall (resolution : Resolution)
    (args : LoweredList) :
    Parallel refused c b (targetCall go target resolution args)
      (targetCall go target resolution args.settled) fun a a' => a' = a.settled := by
  refine (asks_namesType fun _ => trivial).same.step fun isType => ?_
  split
  · exact (asks_calledName resolution false).same.step fun called => .pure rfl
  · refine (hgo target htarget).step fun value => ?_
    refine (asks_calledName resolution false).same.step fun called => .pure ?_
    simp [Lowered.settled, LoweredList.settled]

variable {args : List Node} (hargs : ∀ n ∈ args, c.Settles b n)
include hargs

section

omit htarget

lemma settling_listLiteral : Settling refused c b (listLiteral go args) :=
  (settling_lowerAll hgo hargs).step fun _ => .read fun _ _ => .pure rfl

lemma settling_printCall (toError : Bool) (functions : String × String) :
    Settling refused c b (printCall go toError functions args) := by
  refine (settling_lowerAll hgo hargs).step fun values => ?_
  refine (same_requireImport _).step fun _ => ?_
  split
  · exact (same_requireImport _).step fun _ => .pure rfl
  · exact .pure rfl

lemma settling_newList (type : String) : Settling refused c b (newList go type args) := by
  cases args with
  | nil => exact .pure rfl
  | cons first args =>
    refine (hgo first (hargs first mem_cons_self)).step fun arg => ?_
    split
    · exact .pure rfl
    · exact .pure rfl

end

variable (hsite : Site.Settled c.symbols b (.call name args.length))
include hsite

lemma settling_valueIdiom : SettlingOption refused c b (valueIdiom go target name args) := by
  have hlisted : (c.symbols.withBuckets b).methods.contains name
      = c.symbols.methods.contains name := hsite.2
  refine .symbols ?_
  dsimp only
  rw [hlisted]
  split
  · refine (hgo target htarget).step fun value => ?_
    refine (hgo _ (hargs _ mem_cons_self)).step fun other => .pure ?_
    simp [Lowered.settled]
  · rw [hsite.any_isEmpty]
    split
    · exact .pure rfl
    · exact (settling_lengthOf hgo htarget).step fun length => .pure rfl
  · split
    · exact .pure rfl
    · exact (settling_lengthOf hgo htarget).step fun length => .pure rfl
  · split
    · exact .pure rfl
    · exact (settling_lengthOf hgo htarget).step fun length => .pure rfl
  · split
    · exact .pure rfl
    · exact (hgo target htarget).step fun value => .pure rfl
  · split
    · exact .pure rfl
    · refine (hgo target htarget).step fun value => ?_
      refine (hgo _ (hargs _ mem_cons_self)).step fun item => .pure ?_
      simp [Lowered.settled]
  · split
    · exact .pure rfl
    · exact (hgo target htarget).step fun value => .pure rfl
  · exact .pure rfl

lemma settling_libraryIdiom : SettlingOption refused c b (libraryIdiom go target name args) := by
  unfold libraryIdiom
  dsimp only
  split
  · exact (settling_listLiteral hgo hargs).step fun value => .pure rfl
  split
  · exact (settling_printCall hgo hargs _ _).step fun value => .pure rfl
  · exact settling_valueIdiom hgo htarget hargs hsite

end

lemma settling_idiom {target : Option Node} (htarget : ∀ n ∈ target, c.Settles b n)
    (hargs : ∀ n ∈ args, c.Settles b n)
    (hsite : Site.Settled c.symbols b (.call name args.length)) :
    SettlingOption refused c b (idiom go target name args) := by
  cases target with
  | none => exact .pure rfl
  | some target =>
    unfold idiom
    dsimp only
    split
    · exact .pure rfl
    · exact settling_libraryIdiom hgo (htarget target rfl) hargs hsite

lemma settling_plainCall (node : Node) {target : Option Node} {argNodes : List Node}
    (htarget : ∀ n ∈ target, c.Settles b n) (hargs : ∀ n ∈ argNodes, c.Settles b n)
    (hsite : Site.Settled c.symbols b (.call name argNodes.length)) :
    Settling refused c b (plainCall go node target name argNodes) := by
  refine (parallel_lowerAll hgo hargs).bind ?_
  rintro args _ ⟨rfl, hlength⟩
  refine .symbols ?_
  dsimp only [LoweredList.settled]
  rw [hlength, hsite.1]
  refine (parallel_noteAll _ _).step fun _ => ?_
  have hbefore : withAmbiguity (c.symbols.resolveMethod name argNodes.length).settled name
      argNodes.length (settle args.before)
      = settle (withAmbiguity (c.symbols.resolveMethod name argNodes.length) name
          argNodes.length args.before) := by
    rw [settle_withAmbiguity]
    rfl
  rw [hbefore]
  cases target with
  | none => exact (asks_selfCall _ _ _ _).same.step fun value => .pure rfl
  | some target =>
    dsimp only
    split
    · exact (asks_selfCall _ _ _ _).same.step fun value => .pure rfl
    · exact (asks_superCall _ _ _).same.step fun value => .pure rfl
    · exact settling_targetCall hgo (htarget target rfl) _ _

lemma settling_constructorCall (hargs : ∀ n ∈ argNodes, c.Settles b n)
    (hsite : ∀ javaName, simpleTypeName type = .ok javaName →
      Site.Settled c.symbols b (.creation (c.mapName javaName) javaName argNodes.length)) :
    Settling refused c b (constructorCall go type argNodes) := by
  refine (parallel_lowerAll hgo hargs).bind ?_
  rintro args _ ⟨rfl, hlength⟩
  refine .lift fun javaName hjava => .symbols (.types ?_)
  have hresolve : (c.symbols.withBuckets b).resolveConstructor
      ((c.withBuckets b).mapName javaName) javaName argNodes.length
      = (c.symbols.resolveConstructor (c.mapName javaName) javaName argNodes.length).settled :=
    hsite javaName hjava
  dsimp only [LoweredList.settled]
  rw [hlength, hresolve]
  refine (parallel_noteAll _ _).step fun _ => .pure ?_
  rw [Lowered.settled, settle_withConstructorAmbiguity]
  rfl

variable (hnode : c.Settles b node)
include hnode

lemma settling_fieldAccess : Settling refused c b (fieldAccess go node) := by
  refine .lift fun target htarget => .lift fun field _ => ?_
  have hobject : c.Settles b target := hnode.part htarget
  split
  · exact (asks_selfField field).same.step fun value => .pure rfl
  · exact (asks_selfExpr _).same.step fun value => .pure rfl
  · refine (asks_declaredKind? trivial).same.step fun kind => ?_
    split
    · exact .types (.pure rfl)
    · exact .pure rfl
    · exact settling_fieldOf hgo hobject field
  · exact settling_fieldOf hgo hobject field

lemma settling_arrayAccess : Settling refused c b (arrayAccess go node) := by
  refine .lift fun arrayNode harray => (hgo _ (hnode.part harray)).step fun array => ?_
  refine .lift fun indexNode hindex => (hgo _ (hnode.part hindex)).step fun index => .pure ?_
  simp [Lowered.settled]

lemma settling_methodInvocation (hkind : node.kind = .methodInvocation) :
    Settling refused c b (methodInvocation go node) := by
  refine .lift fun name hname => .lift fun arguments harguments => ?_
  have hsite := hnode.call hkind hname harguments
  have htarget : ∀ n ∈ node.fieldChild? "object", c.Settles b n := fun n hn => hnode.part? hn
  have hargs : ∀ n ∈ arguments.operands, c.Settles b n :=
    fun n hn => (hnode.part harguments).operand hn
  refine (settling_idiom hgo htarget hargs hsite).step fun found => ?_
  cases found with
  | some => exact .pure rfl
  | none => exact settling_plainCall hgo node htarget hargs hsite

lemma settling_objectCreation (hkind : node.kind = .objectCreation) :
    Settling refused c b (objectCreation go node) := by
  refine .lift fun type htype => ?_
  split
  · exact .throw _
  refine .types (.typeOf fun goType => .lift fun arguments harguments => ?_)
  have hargs : ∀ n ∈ arguments.operands, c.Settles b n :=
    fun n hn => (hnode.part harguments).operand hn
  split
  · exact (asks_containerType goType).same.step fun container => settling_newList hgo hargs _
  split
  · exact (asks_containerType goType).same.step fun container => .pure rfl
  · exact settling_constructorCall hgo hargs fun javaName hjava =>
      hnode.creation hkind htype hjava harguments

lemma settling_arrayInitializer : Settling refused c b (arrayInitializer go node) := by
  refine .read fun expected inReturn => ?_
  have hvalues := settling_lowerAll hgo fun n hn => hnode.operand hn
  exact (hvalues.expecting _).step fun values => .pure rfl

lemma settling_arrayCreation : Settling refused c b (arrayCreation go node) := by
  refine .types (.lift fun type _ => .typeOf fun element => ?_)
  dsimp only
  split
  · rename_i initializer hvalue
    exact (settling_arrayInitializer hgo (hnode.part? hvalue)).expecting _
  · split
    · exact .pure rfl
    · rename_i first more hsizes
      obtain ⟨inner, hinner, hfirst⟩ :=
        exists_of_mem_arrayDimensions (hsizes ▸ mem_cons_self (a := first) (l := more))
      exact (hgo first ((hnode.child hinner).operand hfirst)).step fun size => .pure rfl

lemma settling_assignmentStmts : SettlingStmts refused c b (assignmentStmts go node) := by
  refine .lift fun left hleft => .lift fun operator _ => ?_
  have hplace : c.Settles b left := hnode.part hleft
  refine .lift fun rightNode hright => (hgo _ (hnode.part hright)).step fun right => ?_
  split
  · refine (settling_assignTo hgo hplace _).step fun stored => .pure ?_
    simp [Lowered.settled]
  · refine (hgo left hplace).step fun current => ?_
    refine (settling_assignTo hgo hplace _).step fun stored => .pure ?_
    simp [Lowered.settled]

lemma settling_assignmentValue : Settling refused c b (assignmentValue go node) := by
  refine .lift fun left hleft => (settling_assignmentStmts hgo hnode).step fun statements => ?_
  exact (hgo left (hnode.part hleft)).step fun value => .pure (by simp [Lowered.settled])

lemma settling_binaryExpression : Settling refused c b (binaryExpression go node) := by
  refine .lift fun leftNode hleft => (hgo _ (hnode.part hleft)).step fun left => ?_
  refine .lift fun rightNode hright => (hgo _ (hnode.part hright)).step fun right => ?_
  exact .lift fun operator _ => .pure (by simp [Lowered.settled])

lemma settling_unaryExpression : Settling refused c b (unaryExpression go node) := by
  refine .lift fun operandNode hoperand => (hgo _ (hnode.part hoperand)).step fun operand => ?_
  refine .lift fun operator _ => ?_
  split
  · exact .pure rfl
  · exact .pure rfl

lemma settling_updateStmts : SettlingStmts refused c b (updateStmts go node) := by
  refine .lift fun parts hparts => ?_
  have hoperand : c.Settles b parts.1 := hnode.child (Tree.Node.mem_children_of_updateParts hparts)
  refine (asks_fieldSetter? fun _ => trivial).same.step fun setter => ?_
  cases setter with
  | some =>
    refine (hgo _ hoperand).step fun current => ?_
    refine (settling_assignTo hgo hoperand _).step fun stored => .pure ?_
    simp [Lowered.settled]
  | none => exact (hgo _ hoperand).step fun target => .pure (by simp [Lowered.settled])

lemma settling_updateValue : Settling refused c b (updateValue go node) := by
  refine .lift fun parts hparts => ?_
  have hoperand : c.Settles b parts.1 := hnode.child (Tree.Node.mem_children_of_updateParts hparts)
  dsimp only
  split
  · exact .throw _
  refine (settling_updateStmts hgo hnode).step fun statements => ?_
  exact (hgo _ hoperand).step fun value => .pure (by simp [Lowered.settled])

lemma settling_parenthesizedExpression :
    Settling refused c b (parenthesizedExpression go node) := by
  unfold parenthesizedExpression
  split
  · rename_i inner hinner
    exact hgo inner (hnode.operand (by rw [hinner]; exact mem_cons_self))
  · exact .throw _

lemma settling_castExpression : Settling refused c b (castExpression go node) := by
  refine .types (.lift fun typeNode _ => .typeOf fun type => ?_)
  refine .lift fun valueNode hvalue => ?_
  refine (hgo valueNode (hnode.part hvalue)).step fun value => ?_
  split
  · exact .pure rfl
  · exact .pure rfl

lemma settling_instanceOfExpression : Settling refused c b (instanceOfExpression go node) := by
  refine .lift fun leftNode hleft => (hgo _ (hnode.part hleft)).step fun value => ?_
  split
  · exact .throw _
  refine .types (.typeOf fun type => ?_)
  split
  · exact .pure rfl
  · exact (same_declareLocal _).step fun _ => .pure (by simp [Lowered.settled])

/-- A choice tells comments from other statements, so it does not mind an ambiguous call. -/
lemma settling_ternaryExpression : Settling refused c b (ternaryExpression go node) := by
  refine .lift fun testNode htest => (hgo _ (hnode.part htest)).step fun test => ?_
  refine .lift fun firstNode hfirst => (hgo _ (hnode.part hfirst)).step fun first => ?_
  refine .lift fun secondNode hsecond => (hgo _ (hnode.part hsecond)).step fun second => ?_
  have hcomments (a : Lowered) : a.settled.before.all Stmt.isComment
      = a.before.all Stmt.isComment := all_isComment_settle a.before
  rw [hcomments first, hcomments second]
  split
  · refine .read fun expected inReturn => .pure ?_
    simp only [Lowered.settled, settle_append]
    rfl
  · exact .throw _

lemma settling_expressionStep : Settling refused c b (expressionStep go node) := by
  unfold expressionStep
  split
  case h_1 => exact (asks_resolveName trivial).same.step fun value => .pure rfl
  case h_2 => exact (asks_selfExpr _).same.step fun value => .pure rfl
  case h_3 => exact settling_fieldAccess hgo hnode
  case h_4 => exact settling_arrayAccess hgo hnode
  case h_5 hkind => exact settling_methodInvocation hgo hnode hkind
  case h_6 hkind => exact settling_objectCreation hgo hnode hkind
  case h_7 => exact settling_arrayCreation hgo hnode
  case h_8 => exact settling_arrayInitializer hgo hnode
  case h_9 => exact settling_methodReference node
  case h_10 => exact settling_assignmentValue hgo hnode
  case h_11 => exact settling_binaryExpression hgo hnode
  case h_12 => exact settling_unaryExpression hgo hnode
  case h_13 => exact settling_updateValue hgo hnode
  case h_14 => exact settling_parenthesizedExpression hgo hnode
  case h_15 => exact settling_castExpression hgo hnode
  case h_16 => exact settling_instanceOfExpression hgo hnode
  case h_17 => exact settling_ternaryExpression hgo hnode
  -- Literals stay as they are, and nothing else is an expression.
  all_goals first | exact .pure rfl | exact .throw _

end

lemma settling_expressionWithin (height : Nat) :
    ∀ node, c.Settles b node → Settling refused c b (expressionWithin height node) := by
  induction height with
  | zero =>
    intro node _
    exact .throw _
  | succ _ ih =>
    intro node hnode
    exact settling_expressionStep ih hnode

lemma settling_expression (node : Node) (hnode : c.Settles b node) :
    Settling refused c b (expression node) :=
  settling_expressionWithin node.height node hnode

end Lower

end JavaToGo
