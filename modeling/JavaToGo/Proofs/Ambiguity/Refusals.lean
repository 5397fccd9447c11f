import JavaToGo.Proofs.Ambiguity.SettledExpressions

/-!
# What refuses an ambiguous call

The header of a `for`, the labels of a switch and the arguments of an enum
constant have no place for a comment and refuse it with the rest.
-/

namespace JavaToGo

open JavaToGo.Tree (Node)
open List

namespace Lower

/-- The expression is converted, and what it needs before it are comments about ambiguous calls. -/
def HoistsNotes (c : Context) (node : Node) : Prop :=
  ∃ expected inReturn value, (expression node).Makes (c.facing expected inReturn) value
    ∧ value.before ≠ [] ∧ settle value.before = []

/-- The failures on account of ambiguity. -/
inductive Refuses (c : Context) : Failure → Prop
  /-- The condition of a `for`. -/
  | condition {test : Node} (h : HoistsNotes c test) :
      Refuses c (.unsupported .effectInLoopCondition test)
  /-- The updates of a `for`, which need more than one statement with the comments only. -/
  | updates {node : Node} {expected : Option String} {inReturn : Bool} {post : List Stmt}
      (hmade : (lowerEach headerStep (node.fieldChildren "update")).Makes
        (c.facing expected inReturn) post)
      (hmany : 1 < post.length) (hfew : (settle post).length ≤ 1) :
      Refuses c (.unsupported .severalLoopUpdates node)
  | label {value : Node} (h : HoistsNotes c value) : Refuses c (.unsupported .effectInLabel value)
  | constant {argument : Node} (h : HoistsNotes { c with receiver := {} } argument) :
      Refuses c (.unsupported .effectInConstant argument)

variable {c : Context} {b : Buckets} {node : Node} {refused : Failure → Prop}

lemma together_lowerEach :
    ∀ {nodes : List Node}, (∀ n ∈ nodes, Together refused c b (f n)) →
      Together refused c b (lowerEach f nodes)
  | [], _ => .pure trivial
  | node :: nodes, h => by
    refine (h node mem_cons_self).bind fun first first' _ => ?_
    exact (together_lowerEach fun n hn => h n (mem_cons_of_mem _ hn)).ends

lemma settling_lowerEach :
    ∀ {nodes : List Node}, (∀ n ∈ nodes, SettlingStmts refused c b (f n)) →
      SettlingStmts refused c b (lowerEach f nodes)
  | [], _ => .pure rfl
  | node :: nodes, h => by
    refine (h node mem_cons_self).step fun first => ?_
    refine (settling_lowerEach fun n hn => h n (mem_cons_of_mem _ hn)).step fun rest => ?_
    exact .pure (settle_append first rest).symm

lemma same_returnOf (value : Option Expr) : Same refused c b (returnOf value) :=
  .read fun _ _ => .pure rfl

lemma same_returnType : Same refused c b returnType :=
  .read fun _ _ => .pure rfl

/-- Whatever constructor is picked, calling it cannot fail. -/
lemma together_chainCall (node target : Node) (typeName : String) (args args' : LoweredList) :
    Parallel refused c b (chainCall node target typeName args)
      (chainCall node target typeName args') fun _ _ => True := by
  refine .symbols ((parallel_noteAll _ _).step fun _ => ?_)
  exact (asks_selfExpr _).same.ends

lemma same_panicMessage (exception : String) (args : List Expr) :
    Same refused c b (panicMessage exception args) := by
  unfold panicMessage
  split
  · exact .pure rfl
  · exact .pure rfl
  · exact (same_requireImport _).step fun _ => .pure rfl

lemma together_throwNew (node : Node) (hcreation : c.Settles b creation) :
    Together refused c b (throwNew node creation) := by
  refine .lift fun exception _ => ?_
  split
  · refine .lift fun arguments harguments => ?_
    have hargs : ∀ n ∈ arguments.operands, c.Settles b n :=
      fun n hn => (hcreation.part harguments).operand hn
    refine (settling_lowerAll settling_expression hargs).step fun args => ?_
    exact (same_panicMessage exception _).ends
  · exact (parallel_noteAll _ _).ends

lemma same_pureValue {α : Type} {x : Lower Lowered}
    (result : Expr → α) {failure : Failure} (hx : Settling refused c b x)
    (hrefuse : ∀ expected inReturn value, x.Makes (c.facing expected inReturn) value →
      value.before ≠ [] → settle value.before = [] → refused failure) :
    Same refused c b (x >>= fun value =>
      if value.before.isEmpty then return result value.value else throw failure) := by
  refine hx.made ?_
  rintro value _ expected inReturn hmade rfl
  cases hbefore : value.before with
  | nil =>
    simp only [Lowered.settled, hbefore]
    exact .pure rfl
  | cons s statements =>
    cases hsettled : settle (s :: statements) with
    | nil =>
      refine .refuse (hrefuse expected inReturn value hmade ?_ ?_) _
      · simp [hbefore]
      · rw [hbefore, hsettled]
    | cons s' statements' =>
      simp only [Lowered.settled, hbefore, hsettled]
      exact .throw _

lemma mem_of_firstItem (h : firstItem nodes = .ok first) : first ∈ nodes := by
  cases nodes with
  | nil => cases h
  | cons n ns =>
    cases h
    exact mem_cons_self

section

variable (hnode : c.Settles b node)
include hnode

lemma settling_condition : Settling refused c b (condition node) :=
  .lift fun _ htest => settling_expression _ (hnode.part htest)

lemma together_returnValue : Together refused c b (returnValue node) := by
  refine same_returnType.step fun type => ?_
  refine ((settling_expression _ hnode).expecting type).step fun value => ?_
  exact (same_returnOf _).ends

lemma settling_initialValue (type : Option String) (name : String) :
    SettlingOption refused c b (initialValue type name node) := by
  unfold initialValue
  split
  · rename_i value hvalue
    have hinner : Settling refused c b (expression value) :=
      settling_expression _ (hnode.part? hvalue)
    exact (hinner.expecting type).map fun _ _ h => congrArg some h
  · split
    · exact .throw _
    · exact .pure rfl

lemma together_localVariable (declared : Option String) (short : Bool) :
    Together refused c b (localVariable declared short node) := by
  refine .lift fun name _ => ?_
  refine (settling_initialValue hnode _ name).step fun value => ?_
  exact (same_declareLocal name).ends

lemma together_localVariables (short : Bool) :
    Together refused c b (localVariables short node) := by
  refine (asks_localType node).same.step fun declared => together_lowerEach fun n hn => ?_
  exact together_localVariable (hnode.child (Node.mem_children_of_fieldChildren hn)) declared short

lemma together_effectOf : Together refused c b (effectOf node) := by
  refine (settling_expression _ hnode).step fun value => ?_
  dsimp only [Lowered.settled]
  cases htarget : (if isAppend value.value then node.fieldChild? "object" else none) with
  | some target =>
    have hobject : c.Settles b target := by
      split at htarget
      · exact hnode.part? htarget
      · cases htarget
    have hstored : SettlingStmts refused c b (assignTo expression target value.value) :=
      settling_assignTo settling_expression hobject _
    exact hstored.ends
  | none =>
    dsimp only
    split
    · exact .pure trivial
    · exact .pure trivial

lemma together_assertStatement : Together refused c b (assertStatement node) := by
  unfold assertStatement
  split
  · exact .throw _
  rename_i test more hoperands
  have hall : ∀ n ∈ test :: more, c.Settles b n := fun n hn => hnode.operand (hoperands ▸ hn)
  refine (settling_expression _ (hall test mem_cons_self)).step fun value => ?_
  cases more with
  | nil => exact .pure trivial
  | cons message more =>
    have hmessage := hall message (mem_cons_of_mem _ mem_cons_self)
    exact (settling_expression _ hmessage).ends

lemma together_constructorChain : Together refused c b (constructorChain node) := by
  refine .lift fun target _ => .lift fun arguments harguments => ?_
  have hargs : ∀ n ∈ arguments.operands, c.Settles b n :=
    fun n hn => (hnode.part harguments).operand hn
  refine (settling_lowerAll settling_expression hargs).step fun args => ?_
  refine (asks_chainedType node target).same.step fun typeName => .symbols ?_
  show Parallel refused c b
    (if target.kind = .super && c.symbols.isAbstractType (some typeName) then _ else _)
    (if target.kind = .super && c.symbols.isAbstractType (some typeName) then _ else _) _
  split
  · exact .pure trivial
  · exact together_chainCall node target typeName _ _

lemma together_throwStatement : Together refused c b (throwStatement node) := by
  unfold throwStatement
  split
  · rename_i thrown hthrown
    have hvalue : c.Settles b thrown := hnode.operand (hthrown ▸ mem_cons_self)
    split
    · exact together_throwNew node hvalue
    · exact (settling_expression _ hvalue).ends
  · exact .throw _

lemma settling_headerStep : SettlingStmts refused c b (headerStep node) := by
  unfold headerStep
  split
  · exact settling_assignmentStmts settling_expression hnode
  · exact settling_updateStmts settling_expression hnode
  · exact (settling_expression node hnode).step fun value => .pure (by simp [Lowered.settled])

lemma together_headerInit : Together refused c b (headerInit node) := by
  unfold headerInit
  split
  · exact together_localVariables hnode true
  · exact (settling_headerStep hnode).mono fun _ _ _ => trivial

lemma same_headerCondition : Same (Refuses c) c b (headerCondition node) := by
  unfold headerCondition
  split
  · exact .pure rfl
  · rename_i test htest
    refine same_pureValue some (settling_expression _ (hnode.part? htest)) ?_
    intro expected inReturn value hmade hbefore hnotes
    exact .condition ⟨expected, inReturn, value, hmade, hbefore, hnotes⟩

lemma same_labelValue : Same (Refuses c) c b (labelValue node) := by
  refine same_pureValue (fun value => value) (settling_expression _ hnode) ?_
  intro expected inReturn value hmade hbefore hnotes
  exact .label ⟨expected, inReturn, value, hmade, hbefore, hnotes⟩

lemma together_addLabel (labels labels' : Labels) :
    Parallel (Refuses c) c b (addLabel labels node) (addLabel labels' node) fun _ _ => True := by
  unfold addLabel
  cases hoperands : node.operands with
  | nil => exact .pure trivial
  | cons value values =>
    have hvalues : Together (Refuses c) c b ((value :: values).mapM labelValue) :=
      .mapM trivial (fun _ _ => trivial) fun n hn =>
        same_labelValue (hnode.operand (hoperands ▸ hn))
    exact hvalues.ends

lemma together_addResource (found found' : Resources) :
    Parallel (Refuses c) c b (addResource found node) (addResource found' node)
      fun _ _ => True := by
  unfold addResource
  split
  · refine .lift fun value hvalue => ?_
    have hinner : c.Settles b value := hnode.operand (mem_of_firstItem hvalue)
    exact (settling_expression _ hinner).ends
  · refine .lift fun value hvalue => ?_
    refine (settling_expression _ (hnode.part hvalue)).step fun lowered => ?_
    exact (same_declareLocal _).ends

lemma together_resources : Together (Refuses c) c b (resources node) := by
  unfold resources
  split
  · exact .pure trivial
  · rename_i list hlist
    have hparts : ∀ n ∈ list.childrenOfKind .resource, c.Settles b n :=
      fun n hn => (hnode.part? hlist).child (Node.mem_children_of_childrenOfKind hn)
    refine .foldlM (fun found found' n hn _ => ?_) trivial
    exact together_addResource (hparts n hn) found found'

lemma together_yieldStatement : Together (Refuses c) c b (yieldStatement node) := by
  refine .read fun expected inReturn => ?_
  dsimp only [Context.facing]
  split
  · exact .throw _
  split
  · rename_i value hoperands
    exact together_returnValue (hnode.operand (hoperands ▸ mem_cons_self))
  · exact .throw _

end

section

variable {go : Node → Lower (List Stmt)}
  (hgo : ∀ node, c.Settles b node → Together (Refuses c) c b (go node)) (hnode : c.Settles b node)
include hgo hnode

lemma together_blockWith : Together (Refuses c) c b (blockWith go node) :=
  (together_lowerEach fun n hn => hgo n (hnode.operand hn)).withScope _

lemma together_bodyWith : Together (Refuses c) c b (bodyWith go node) := by
  unfold bodyWith
  split
  · exact together_blockWith hgo hnode
  · exact (hgo node hnode).withScope _

lemma together_whileLoop : Together (Refuses c) c b (whileLoop go node) := by
  refine (settling_condition hnode).step fun test => .lift fun bodyNode hbody => ?_
  refine (together_bodyWith hgo (hnode.part hbody)).bind fun body body' _ => ?_
  -- With or without comments, there is a place for the condition.
  split
  all_goals split
  all_goals exact .pure trivial

lemma together_doLoop : Together (Refuses c) c b (doLoop go node) := by
  refine .lift fun bodyNode hbody => ?_
  refine (together_bodyWith hgo (hnode.part hbody)).bind fun body body' _ => ?_
  exact (settling_condition hnode).ends

lemma together_forParts : Together (Refuses c) c b (forParts go node) := by
  have hpart : ∀ field, ∀ n ∈ node.fieldChildren field, c.Settles b n :=
    fun field n hn => hnode.child (Node.mem_children_of_fieldChildren hn)
  refine (together_lowerEach fun n hn => together_headerInit (hpart "init" n hn)).bind ?_
  intro init init' _
  refine (same_headerCondition hnode).step fun test => ?_
  refine (settling_lowerEach fun n hn => settling_headerStep (hpart "update" n hn)).made ?_
  rintro post _ expected inReturn hmade rfl
  by_cases hmany : post.length > 1
  · by_cases hfew : (settle post).length > 1
    · rw [if_pos hmany, if_pos hfew]
      exact .throw _
    · rw [if_pos hmany]
      exact .refuse (.updates hmade hmany (Nat.le_of_not_lt hfew)) _
  · have hfew : ¬ (settle post).length > 1 := by
      have hle : (settle post).length ≤ post.length := length_filter_le ..
      omega
    rw [if_neg hmany, if_neg hfew]
    refine .lift fun bodyNode hbody => ?_
    exact (together_bodyWith hgo (hnode.part hbody)).ends

lemma together_forLoop : Together (Refuses c) c b (forLoop go node) := by
  refine ((together_forParts hgo hnode).withScope _).bind fun parts parts' _ => ?_
  -- Whatever the two runs start with, there is a place for it.
  dsimp only
  split
  all_goals split
  all_goals exact .pure trivial

lemma together_rangeLoop : Together (Refuses c) c b (rangeLoop go node) := by
  refine .lift fun name _ => .lift fun valueNode hvalue => ?_
  refine (settling_expression _ (hnode.part hvalue)).step fun values => ?_
  have hbody : Together (Refuses c) c b (do bodyWith go (← node.require "body")) :=
    .lift fun bodyNode hbody => together_bodyWith hgo (hnode.part hbody)
  exact (hbody.withScope _).ends

lemma together_ruleBody : Together (Refuses c) c b (ruleBody go node) := by
  unfold ruleBody
  split
  · exact together_blockWith hgo hnode
  refine .read fun expected inReturn => ?_
  dsimp only [Context.facing]
  split
  · refine .lift fun value hvalue => together_returnValue ?_
    exact hnode.operand (mem_of_firstItem hvalue)
  · exact hgo node hnode

lemma together_ruleClause (labels labels' : Labels) :
    Parallel (Refuses c) c b (ruleClause go labels node) (ruleClause go labels' node)
      fun _ _ => True := by
  unfold ruleClause
  split
  · rename_i body hbody
    have hmem : body ∈ clauseNodes node := hbody ▸ mem_cons_self
    have hinner : c.Settles b body := hnode.operand (mem_filter.1 hmem).1
    exact (together_ruleBody hgo hinner).ends
  · exact .throw _

omit hnode in
lemma together_groupClause (labels labels' : Labels) (isLast : Bool)
    (hstatements : ∀ n ∈ statements, c.Settles b n) :
    Parallel (Refuses c) c b (groupClause go labels isLast statements)
      (groupClause go labels' isLast statements) fun _ _ => True := by
  exact ((together_lowerEach fun n hn => hgo n (hstatements n hn)).withScope _).ends

omit hnode in
lemma together_switchClauses : ∀ {groups : List Node}, (∀ n ∈ groups, c.Settles b n) →
    ∀ waiting waiting' : Labels,
      Parallel (Refuses c) c b (switchClauses go waiting groups) (switchClauses go waiting' groups)
        fun _ _ => True
  | [], _, waiting, waiting' => .pure trivial
  | group :: groups, h, waiting, waiting' => by
    have hgroup := h group mem_cons_self
    have hrest := together_switchClauses fun n hn => h n (mem_cons_of_mem _ hn)
    have hlabels : Parallel (Refuses c) c b
        ((group.childrenOfKind .switchLabel).foldlM addLabel waiting)
        ((group.childrenOfKind .switchLabel).foldlM addLabel waiting') fun _ _ => True := by
      refine .foldlM (fun labels labels' n hn _ => ?_) trivial
      have hlabel : c.Settles b n := hgroup.child (Node.mem_children_of_childrenOfKind hn)
      exact together_addLabel hlabel labels labels'
    refine hlabels.bind fun labels labels' _ => ?_
    split
    · refine (together_ruleClause hgo hgroup labels labels').bind fun _ _ _ => ?_
      exact (hrest {} {}).ends
    · dsimp only
      split
      · exact hrest labels labels'
      · have hnodes : ∀ n ∈ clauseNodes group, c.Settles b n :=
          fun n hn => hgroup.operand (mem_filter.1 hn).1
        refine (together_groupClause hgo labels labels' _ hnodes).bind fun _ _ _ => ?_
        exact (hrest {} {}).ends
    · exact .throw _

lemma together_switchWith : Together (Refuses c) c b (switchWith go node) := by
  refine (settling_condition hnode).step fun value => .lift fun body hbody => ?_
  have hgroups : ∀ n ∈ body.operands, c.Settles b n := fun n hn => (hnode.part hbody).operand hn
  exact (together_switchClauses hgo hgroups {} {}).ends

omit hnode in
lemma together_catchFor (name : String) (binding : Option String) (hbody : c.Settles b body)
    (type : Node) : Together (Refuses c) c b (catchFor go name binding body type) := by
  refine ((together_blockWith hgo hbody).withScope _).bind fun _ _ _ => ?_
  exact .types (.typeOf fun goType => .pure trivial)

lemma together_catchClauses : Together (Refuses c) c b (catchClauses go node) := by
  refine .lift fun body hbody => ?_
  split
  · exact .throw _
  refine .lift fun name _ => ?_
  split
  · exact .throw _
  · exact .mapM trivial (fun _ _ => trivial) fun type _ =>
      together_catchFor hgo name _ (hnode.part hbody) type

lemma together_addHandler (found found' : Handlers) :
    Parallel (Refuses c) c b (addHandler go found node) (addHandler go found' node)
      fun _ _ => True := by
  unfold addHandler
  split
  · exact (together_catchClauses hgo hnode).ends
  · split
    · exact .throw _
    · rename_i block hblock
      have hinner : c.Settles b block := hnode.child (Node.mem_children_of_childOfKind? hblock)
      exact (together_blockWith hgo hinner).ends
  · exact .pure trivial

lemma together_tryWith : Together (Refuses c) c b (tryWith go node) := by
  refine .lift fun bodyNode hbody => ?_
  have hinner : Together (Refuses c) c b (do
      let opened ← resources node
      let body ← blockWith go bodyNode
      return (opened, body)) :=
    (together_resources hnode).bind fun _ _ _ =>
      (together_blockWith hgo (hnode.part hbody)).ends
  refine (hinner.withScope _).bind fun opened opened' _ => ?_
  have hhandlers : Together (Refuses c) c b (node.children.foldlM (addHandler go) {}) := by
    refine .foldlM (fun found found' n hn _ => ?_) trivial
    exact together_addHandler hgo (hnode.child hn) found found'
  exact hhandlers.ends

lemma together_expressionStatement : Together (Refuses c) c b (expressionStatement go node) := by
  unfold expressionStatement
  split
  · rename_i inner hoperands
    have hinner : c.Settles b inner := hnode.operand (hoperands ▸ mem_cons_self)
    split
    · exact (settling_assignmentStmts settling_expression hinner).mono fun _ _ _ => trivial
    · exact (settling_updateStmts settling_expression hinner).mono fun _ _ _ => trivial
    · exact together_switchWith hgo hinner
    · exact together_effectOf hinner
  · exact .throw _

lemma together_labeledStatement : Together (Refuses c) c b (labeledStatement go node) := by
  unfold labeledStatement
  split
  · exact .throw _
  rename_i label _
  split
  · rename_i inner hinner
    have hmem : inner ∈ node.operands.filter fun n => n.id != label.id := hinner ▸ mem_cons_self
    refine (hgo inner (hnode.operand (mem_filter.1 hmem).1)).bind fun _ _ _ => ?_
    split
    all_goals split
    all_goals exact .pure trivial
  · exact .throw _

lemma together_ifStatement : Together (Refuses c) c b (ifStatement go node) := by
  refine (settling_condition hnode).step fun test => .lift fun bodyNode hbody => ?_
  refine (together_bodyWith hgo (hnode.part hbody)).bind fun _ _ _ => ?_
  split
  · exact .pure trivial
  · rename_i alternative halternative
    have helse : Together (Refuses c) c b (some <$> bodyWith go alternative) :=
      (together_bodyWith hgo (hnode.part? halternative)).map fun _ _ _ => trivial
    exact helse.ends

lemma together_returnStatement : Together (Refuses c) c b (returnStatement go node) := by
  unfold returnStatement
  split
  · exact (same_returnOf _).ends
  · rename_i value more hoperands
    have hvalue : c.Settles b value := hnode.operand (hoperands ▸ mem_cons_self)
    split
    · exact (together_switchWith hgo hvalue).returning
    · exact (together_returnValue hvalue).returning

lemma together_statementStep : Together (Refuses c) c b (statementStep go node) := by
  unfold statementStep
  split
  case h_1 => exact (together_blockWith hgo hnode).ends
  case h_2 => exact .pure trivial
  case h_3 => exact together_expressionStatement hgo hnode
  case h_4 => exact together_localVariables hnode false
  case h_5 => exact together_ifStatement hgo hnode
  case h_6 => exact together_whileLoop hgo hnode
  case h_7 => exact together_doLoop hgo hnode
  case h_8 => exact together_forLoop hgo hnode
  case h_9 => exact together_rangeLoop hgo hnode
  case h_10 => exact together_returnStatement hgo hnode
  case h_11 => exact together_yieldStatement hnode
  case h_12 => exact together_throwStatement hnode
  case h_13 => exact together_switchWith hgo hnode
  case h_14 => exact together_tryWith hgo hnode
  case h_15 => exact together_tryWith hgo hnode
  case h_16 => exact together_assertStatement hnode
  case h_17 => exact .pure trivial
  case h_18 => exact .pure trivial
  case h_19 => exact together_labeledStatement hgo hnode
  case h_20 => exact together_constructorChain hnode
  case h_21 => exact .throw _

end

lemma together_statementWithin (height : Nat) :
    ∀ node, c.Settles b node → Together (Refuses c) c b (statementWithin height node) := by
  induction height with
  | zero =>
    intro node _
    exact .throw _
  | succ _ ih =>
    intro node hnode
    exact together_statementStep ih hnode

lemma together_statement (hnode : c.Settles b node) : Together (Refuses c) c b (statement node) :=
  together_statementWithin node.height node hnode

end Lower

end JavaToGo
