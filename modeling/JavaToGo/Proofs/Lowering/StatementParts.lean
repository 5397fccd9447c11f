import JavaToGo.Proofs.Code.Nesting
import JavaToGo.Proofs.Lowering.ExpressionParts

/-!
# The accounts of statements

Every rule puts what its expressions leave in front of the statement.  The headers
of loops and the labels of switches have no place for it and are refused.  Of
several final blocks all are lowered and the last is kept, so on a scale without
losses there may be one at most.
-/

namespace JavaToGo

open Code (Stmt SwitchClause CatchClause)
open JavaToGo.Tree (Node)
open List

/-- Values that are returned weigh nothing. -/
def Scale.Pays (S : Scale) (p : Setting) : Prop :=
  ∀ value, S.weight (.ret (value :: p.nils)) = 0

/-- Compound statements weigh what is in them. -/
structure Scale.Nests (S : Scale) : Prop where
  block : ∀ body, S.weight (.block body) = S.all body
  labeled : ∀ label statement, S.weight (.labeled label statement) = S.weight statement
  cond : ∀ test body elseBody,
    S.weight (.cond test body elseBody) = S.all body + S.all (elseBody.getD [])
  loop : ∀ init test post body,
    S.weight (.loop init test post body) = S.all init.toList + S.all post.toList + S.all body
  range : ∀ key name values body, S.weight (.range key name values body) = S.all body
  switch : ∀ subject clauses,
    S.weight (.switch subject clauses) = S.all (clauses.flatMap SwitchClause.body)

/-- Compound statements weigh what is in them, and the statements that rules write nothing. -/
structure Scale.Deep (S : Scale) : Prop extends Scale.Nests S where
  plain : S.plain = 0 := by rfl
  writes : S.writes := by exact trivial
  named : ∀ name, S.named name := by exact fun _ => trivial
  asked : ∀ name, S.asked name := by exact fun _ => trivial
  raw : ∀ text, S.weight (.raw text) = 0 := by exact fun _ => rfl
  var : ∀ name type value short, S.weight (.var name type value short) = 0 := by
    exact fun _ _ _ _ => rfl
  superComment : ∀ text,
    S.weight (.comment ["FIXME: call to abstract super constructor: " ++ text]) = 0 := by
    exact fun _ => rfl
  returnComment : S.weight (.comment ["FIXME: return inside try only leaves the closure"]) = 0 := by
    rfl
  passedThrough : ∀ exception location, S.logged [.throwPassedThrough exception location] = 0 := by
    exact fun _ _ => rfl

attribute [simp] Scale.Deep.plain Scale.Deep.raw Scale.Deep.var Scale.Deep.superComment
  Scale.Deep.returnComment Scale.Deep.toNests Scale.Nests.block Scale.Nests.labeled
  Scale.Nests.cond Scale.Nests.loop Scale.Nests.range Scale.Nests.switch

def Scale.Opens (S : Scale) : Prop :=
  ∀ body catches finallyBody resources closers,
    S.weight (.tryCatch body catches finallyBody resources closers)
      = S.all resources + S.all body + S.all (catches.flatMap CatchClause.body)
        + S.all (finallyBody.getD [])

/-- A try weighs nothing. -/
def Scale.Shuts (S : Scale) : Prop :=
  ∀ body catches finallyBody resources closers,
    S.weight (.tryCatch body catches finallyBody resources closers) = 0

section

variable {S : Scale} (hweight : ∀ s, S.weight s = s.total enter own)
include hweight

lemma Scale.all_of_total (ss : List Stmt) : S.all ss = Stmt.totalAll enter own ss := by
  induction ss with
  | nil => rfl
  | cons s ss ih => rw [all_cons, ih, hweight, Stmt.totalAll_cons]

/-- A scale is deep when it sums a measure that compound statements have none of themselves. -/
lemma Scale.nests_of_total (hown : ∀ s : Stmt, s.isSimple = false → own s = 0) : S.Nests where
  block body := by
    simp [hweight, all_of_total hweight, hown (.block body) rfl, Stmt.total, Stmt.totalAll,
      Stmt.walk]
  labeled label body := by
    simp [hweight, hown (.labeled label body) rfl, Stmt.total, Stmt.walk]
  cond test body elseBody := by
    simp [hweight, all_of_total hweight, hown (.cond test body elseBody) rfl, Stmt.total,
      Stmt.totalAll, Stmt.walk, Stmt.walkBody_eq]
  loop init test post body := by
    simp [hweight, all_of_total hweight, hown (.loop init test post body) rfl, Stmt.total,
      Stmt.totalAll, Stmt.walk, Stmt.walkOption_eq, Nat.add_assoc]
  range key name values body := by
    simp [hweight, all_of_total hweight, hown (.range key name values body) rfl, Stmt.total,
      Stmt.totalAll, Stmt.walk]
  switch subject clauses := by
    simp [hweight, all_of_total hweight, hown (.switch subject clauses) rfl]

end

/-- A try weighs what is in it when the measure is summed over that as well. -/
lemma Scale.opens_of_total {S : Scale} (hweight : ∀ s, S.weight s = s.total true own)
    (hown : ∀ s : Stmt, s.isSimple = false → own s = 0) : S.Opens := by
  intro body catches finallyBody resources closers
  simp [hweight, all_of_total hweight, Stmt.total, Stmt.totalAll, Stmt.walk, Stmt.walkCatches_eq,
    Stmt.walkBody_eq, Nat.add_assoc,
    hown (.tryCatch body catches finallyBody resources closers) rfl]

/-- What a return without a value weighs. -/
def Scale.own (S : Scale) (p : Setting) (node : Node) : Nat :=
  if node.kind = .returnStatement ∧ node.operands = [] then S.weight (.ret p.nils) else 0

namespace Lower

def Sets (S : Scale) (p : Setting) (node : Node) : Prop :=
  ∀ target ∈ Part.places p.types.symbols node, Settable S p expression target

/-- What is asked of a statement whose rule is to keep its accounts. -/
structure AdmitsCode (S : Scale) (p : Setting) (node : Node) : Prop where
  sets : node.Everywhere (Sets S p)
  pays : p.inReturn = true ∨ node.kind = .returnStatement ∧ node.operands ≠ [] → S.Pays p
  opens : node.kind = .tryStatement ∨ node.kind = .tryWithResourcesStatement →
    S.Opens ∧ (S.lossy ∨ (node.childrenOfKind .finallyClause).length ≤ 1)

lemma Admits.of_deep {S : Scale} (hS : S.Deep) (h : Sets S p node) : Admits S p expression node :=
  ⟨fun _ _ _ => hS.named _, fun _ _ _ => hS.asked _, h, fun _ => hS.writes⟩

lemma AdmitsCode.of_light {S : Scale} (hplaced : ∀ e, S.placed e)
    (hret : ∀ values, S.weight (.ret values) = 0)
    (hopens : node.kind = .tryStatement ∨ node.kind = .tryWithResourcesStatement →
      S.Opens ∧ (S.lossy ∨ (node.childrenOfKind .finallyClause).length ≤ 1)) :
    AdmitsCode S p node :=
  ⟨fun _ _ _ _ => .of_placed hplaced, fun _ _ => hret _, hopens⟩

lemma own_eq_zero {S : Scale} (hret : ∀ values, S.weight (.ret values) = 0) (p : Setting)
    (node : Node) : S.own p node = 0 := by
  rw [Scale.own, hret, ite_self]

section

variable {go : Node → Lower Lowered} {p : Setting} {node target : Node} {args : List Node}

lemma isAppend_callNamed (hf : f ≠ "append") : isAppend (.callNamed f values false) = false := by
  unfold isAppend
  split
  · simp_all
  · rfl

lemma gives_printCall (toError : Bool) (h : printFunctions.lookup name = some functions) :
    (printCall go toError functions args).Gives fun a => isAppend a.value = false := by
  have hnames : ∀ entry ∈ printFunctions, entry.2.1 ≠ "append" ∧ entry.2.2 ≠ "append" := by decide
  obtain ⟨front, back, hprint, -⟩ := lookup_eq_some_iff.1 h
  obtain ⟨hfirst, hsecond⟩ := hnames (name, functions) (by simp [hprint])
  refine .bind fun _ _ values _ _ => .bind fun _ _ _ _ _ => ?_
  split
  · exact .bind fun _ _ _ _ _ => .pure (isAppend_callNamed hsecond)
  · exact .pure (isAppend_callNamed hfirst)

/-- Apart from `add` and `toArray` no call that Go writes differently is a call of `append`. -/
lemma givesAt_libraryIdiom (harray : name ≠ "toArray")
    (hadd : name = "add" → args.length = 1 → p.types.symbols.methods.contains "add" = true) :
    GivesAt p (libraryIdiom go target name args)
      fun found => ∀ a, found = some a → isAppend a.value = false := by
  have hnone : (pure none : Lower (Option Lowered)).Gives
      fun found => ∀ a, found = some a → isAppend a.value = false :=
    .pure fun a ha => by cases ha
  have hsome : ∀ {a : Lowered}, isAppend a.value = false → (pure (some a) : Lower _).Gives
      fun found => ∀ a, found = some a → isAppend a.value = false :=
    fun ha => .pure fun b hb => Option.some.inj hb ▸ ha
  rintro c t found t' rfl hrun
  unfold libraryIdiom at hrun
  dsimp only at hrun
  split at hrun
  · have hlist : (listLiteral go args).Gives fun a => isAppend a.value = false :=
      .bind fun _ _ _ _ _ => .bind fun _ _ _ _ _ => .pure rfl
    exact Gives.bind (fun c t a t' ha => hsome (hlist c t a t' ha)) _ _ _ _ hrun
  split at hrun
  · rename_i functions hfunctions
    have hlookup : printFunctions.lookup name = some functions := by
      split at hfunctions
      · exact hfunctions
      · cases hfunctions
    exact Gives.bind (fun c t a t' ha => hsome (gives_printCall _ hlookup c t a t' ha)) _ _ _ _ hrun
  obtain ⟨s, t₁, ⟨⟩, hrest⟩ := exists_of_bind hrun
  suffices h : Gives _ fun found => ∀ a : Lowered, found = some a → isAppend a.value = false from
    h _ _ _ _ hrest
  dsimp only
  split
  · exact .bind fun _ _ _ _ _ => .bind fun _ _ _ _ _ => hsome rfl
  · split
    · exact hnone
    · exact .bind (.bind fun _ _ _ _ _ => .pure (hsome rfl))
  · split
    · exact hnone
    · exact .bind (.bind fun _ _ _ _ _ => .pure (hsome rfl))
  · split
    · exact hnone
    · exact .bind fun _ _ _ _ _ => hsome rfl
  · exact absurd rfl harray
  · have hown : c.symbols.methods.contains "add" = true := hadd rfl rfl
    rw [if_pos hown]
    exact hnone
  · split
    · exact hnone
    · exact .bind fun _ _ _ _ _ => hsome rfl
  · exact hnone

lemma gives_targetCall (hvalue : target.kind ≠ .identifier) :
    (targetCall go target resolution values).Gives fun a => isAppend a.value = false := by
  refine .bind fun c t isType t' hrun => ?_
  rw [namesType, if_neg hvalue] at hrun
  cases hrun
  exact .bind fun _ _ _ _ _ => .bind fun _ _ _ _ _ => .pure rfl

/-- A call on a value that is neither a name nor the instance is no call of `append`, unless it
adds to a list. -/
lemma givesAt_expression_call (htarget : node.fieldChild? "object" = some target)
    (hcall : Part.isCall node target = true)
    (hadd : Part.isAdd p.types.symbols node target = false) :
    GivesAt p (expression node) fun a => isAppend a.value = false := by
  simp only [Part.isCall, Bool.and_eq_true, decide_eq_true_eq, bne_iff_ne,
    Option.any_eq_true, Option.isSome_iff_exists] at hcall
  obtain ⟨⟨⟨⟨⟨hkind, hself⟩, hsuper⟩, hvalue⟩, name, hname, harray⟩, arguments, harguments⟩ := hcall
  rintro c t a t' rfl hrun
  obtain ⟨go, hgo⟩ := exists_expression_eq node
  rw [hgo, expressionStep, hkind] at hrun
  dsimp only [methodInvocation] at hrun
  rw [(Returns.lift (Node.requireText_of_fieldChild? hname)).runAt_bind,
    (Returns.lift (Node.require_of_fieldChild? harguments)).runAt_bind, htarget, idiom,
    if_neg (by simp [hself, hsuper])] at hrun
  obtain ⟨found, t₁, hidiom, hrest⟩ := exists_of_bind hrun
  cases found with
  | some lowered =>
    cases hrest
    refine givesAt_libraryIdiom harray (fun hname hone => ?_) c t _ _ rfl hidiom _ rfl
    simpa [Part.isAdd, *] using hadd
  | none =>
    simp only [plainCall, runAt_bind_eq_ok] at hrest
    obtain ⟨args, t₂, -, s, t₃, -, u, t₄, -, hplain⟩ := hrest
    exact gives_targetCall hvalue c t₄ a t' hplain

/-- A call that adds to a list becomes a call of `append`. -/
lemma givesAt_expression_add (htarget : node.fieldChild? "object" = some target)
    (hadd : Part.isAdd p.types.symbols node target = true) :
    GivesAt p (expression node) fun a => isAppend a.value = true := by
  simp only [Part.isAdd, Bool.and_eq_true, decide_eq_true_eq, bne_iff_ne,
    Bool.not_eq_true', Option.any_eq_true, length_eq_one_iff] at hadd
  obtain ⟨⟨⟨⟨⟨hkind, hself⟩, hsuper⟩, hown⟩, name, hname, hadd⟩, arguments, harguments, arg,
    harg⟩ :=
    hadd
  rintro c t a t' rfl hrun
  obtain ⟨go, hgo⟩ := exists_expression_eq node
  rw [hgo, expressionStep, hkind] at hrun
  dsimp only [methodInvocation] at hrun
  rw [(Returns.lift (Node.requireText_of_fieldChild? hname)).runAt_bind,
    (Returns.lift (Node.require_of_fieldChild? harguments)).runAt_bind, hadd, harg, htarget, idiom,
    if_neg (by simp [hself, hsuper]), libraryIdiom] at hrun
  have hprint : printFunctions.lookup "add" = none := by decide
  simp only [hprint, ite_self, valueIdiom] at hrun
  rw [if_neg (by simp)] at hrun
  obtain ⟨found, t₁, hfound, hrest⟩ := exists_of_bind hrun
  obtain ⟨s, t₂, ⟨⟩, hidiom⟩ := exists_of_bind hfound
  have hown : c.symbols.methods.contains "add" = false := hown
  rw [if_neg (by simp [hown])] at hidiom
  simp only [runAt_bind_eq_ok] at hidiom
  obtain ⟨list, t₃, -, item, t₄, -, ⟨⟩⟩ := hidiom
  cases hrest
  rfl

end

variable {S : Scale} {code : Node → Lower (List Stmt)} {p : Setting}

lemma emits_lowerEach {f : Node → Lower (List Stmt)} {parts : Node → List Part} :
    ∀ {nodes : List Node} {held : Nat}, (∀ n ∈ nodes, ∀ held,
        EmitsCode S expression code p (parts n) held (f n)) →
      EmitsCode S expression code p (nodes.flatMap parts) held (lowerEach f nodes)
  | [], held, _ => .done rfl
  | node :: nodes, held, h => by
    refine (h node mem_cons_self held).step fun first => ?_
    exact (emits_lowerEach fun n hn => h n (mem_cons_of_mem _ hn)).last fun rest =>
      .done (by simp [Nat.add_assoc])

lemma emits_codes (nodes : List Node) :
    EmitsCode S expression code p (nodes.map (.code p.inReturn)) held (lowerEach code nodes) := by
  rw [map_eq_flatMap]
  exact emits_lowerEach fun n _ held => .code n

lemma emits_blockWith (node : Node) :
    EmitsCode S expression code p (Part.block p.inReturn node) held (blockWith code node) :=
  (emits_codes _).withScope _

lemma emits_bodyWith (node : Node) :
    EmitsCode S expression code p (Part.body p.inReturn node) held (bodyWith code node) := by
  unfold bodyWith Part.body
  split
  · exact emits_blockWith node
  · exact (Emits.code node).withScope _

lemma emits_condition (node : Node) :
    EmitsValue S expression code p (Part.field node "condition") held (condition node) := by
  refine .require fun test htest => ?_
  rw [Part.field, Part.optional, htest]
  exact .value test

variable (hS : S.Deep) {node : Node}
include hS

omit hS in
lemma emits_returnValue (hpays : S.Pays p) (node : Node) :
    EmitsCode S expression code p [.value node] held (returnValue node) := by
  refine .read fun c _ => ((Emits.value node).expecting _).last fun a => ?_
  refine .read fun c hc => .done ?_
  have hret := hpays a.value
  rw [← hc] at hret
  rw [S.all_append]
  change held + (S.all a.before + (S.weight (.ret (a.value :: c.setting.nils)) + 0)) = _
  rw [hret, Nat.add_zero]

lemma emits_effectOf
    (hstored : ∀ target ∈ Part.stored p.types.symbols node, Settable S p expression target) :
    EmitsCode S expression code p (Part.effect p.types.symbols node) held (effectOf node) := by
  cases hobject : node.fieldChild? "object" with
  | none =>
    rw [Part.effect, Part.optional]
    simp only [effectOf, hobject, ite_self]
    refine (Emits.value node).last fun a => ?_
    split
    · exact .done (by simp [hS])
    · exact .done (by simp [hS])
  | some target =>
    rw [Part.effect, Part.optional]
    simp only [effectOf, hobject, Option.elim_some]
    have hassigned : ∀ {parts : List Part} (a : Lowered),
        (Part.isAdd p.types.symbols node target || !Part.isCall node target) = true →
        (∀ held, EmitsValue S expression code p parts held (expression target)) →
        Emits S expression code p parts (held + S.all a.before)
          (assignTo expression target a.value >>= fun stored => pure (a.before ++ stored))
          fun ss => held + S.all ss := fun a hmay htarget =>
      (emits_assignTo hS.writes (fun _ => hS.asked _)
        (hstored target (by simp [Part.stored, hobject, hmay])) (htarget _) _).last fun stored =>
          .done (by simp [Nat.add_assoc])
    by_cases hadd : Part.isAdd p.types.symbols node target = true
    · rw [if_pos hadd]
      refine (Emits.value node).bind (givesAt_expression_add hobject hadd) fun a happend => ?_
      rw [if_pos happend]
      exact hassigned a (by simp [hadd]) fun _ => .value target
    rw [if_neg hadd]
    by_cases hcall : Part.isCall node target = true
    · rw [if_pos hcall]
      refine (Emits.value node).bind (givesAt_expression_call hobject hcall (by simpa using hadd))
        fun a hother => ?_
      rw [if_neg (by simp [hother])]
      dsimp only
      split
      · exact .done (by simp [hS])
      · exact .done (by simp [hS])
    · rw [if_neg hcall]
      refine (Emits.value node).step fun a => ?_
      by_cases happend : isAppend a.value = true
      · rw [if_pos happend]
        exact hassigned a (by simp [hcall]) fun _ => .maybe target
      · rw [if_neg happend]
        refine .unused target ?_
        dsimp only
        split
        · exact .done (by simp [hS])
        · exact .done (by simp [hS])

lemma emits_assertStatement (node : Node) :
    EmitsCode S expression code p ((node.operands.take 2).map .value) held
      (assertStatement node) := by
  unfold assertStatement
  cases node.operands with
  | nil => exact .refuse _
  | cons test more =>
    refine (Emits.value test).step fun a => ?_
    cases more with
    | nil => exact .done (by simp [hS, panicWith])
    | cons message rest =>
      refine (Emits.value message).last fun b => .done ?_
      simp [hS, panicWith, Nat.add_assoc]

omit hS in
lemma gives_selfExpr (node : Option Node) :
    (selfExpr node).Gives fun self => ∃ name, self = .var name := by
  intro c t self t' hrun
  obtain ⟨r, t₁, ⟨⟩, hrest⟩ := exists_of_bind hrun
  split at hrest
  · cases hrest
    exact ⟨_, rfl⟩
  · cases hrest

lemma emits_constructorChain (node : Node) :
    EmitsCode S expression code p
      (Part.optional node "arguments" fun arguments => arguments.operands.map .value) held
      (constructorChain node) := by
  refine .require fun target _ => .require fun arguments harguments => ?_
  rw [Part.optional, harguments]
  refine (emits_lowerAll _).last fun args => ?_
  refine .ask (asks_chainedType node target) fun typeName => .symbols ?_
  split
  · exact .done (by simp [hS])
  refine .symbols ((Emits.noteAll _).quietly fun _ => .askFor (asks_selfExpr _)
    (fun c t a t' _ => gives_selfExpr _ c t a t') ?_)
  rintro _ ⟨name, rfl⟩
  refine .done ?_
  have hplace :
      S.placed (if target.kind = .self then .var name else .field (.var name) typeName) := by
    split <;> simp
  rw [Resolution.constructorEvents]
  split
  · rw [← S.constructorMark]
    simp [hS, hplace, Nat.add_assoc]
  · simp [hS, hplace]

omit hS in
lemma emits_initialValue (type : Option String) (name : String) (declarator : Node) :
    Emits S expression code p (Part.field declarator "value") held
      (initialValue type name declarator) fun a => held + S.all (a.elim [] Lowered.before) := by
  unfold initialValue Part.field Part.optional
  cases declarator.fieldChild? "value" with
  | some operand =>
    dsimp only
    exact ((Emits.value operand).expecting type).last fun a => .done rfl
  | none =>
    dsimp only
    split
    · exact .refuse _
    · exact .done rfl

lemma emits_localVariables (short : Bool) (node : Node) :
    EmitsCode S expression code p (Part.localVariables node) held (localVariables short node) := by
  refine .ask (asks_localType node) fun declared => emits_lowerEach fun declarator _ held => ?_
  refine .requireText fun name _ => (emits_initialValue _ _ declarator).last fun a => ?_
  exact (Emits.declareLocal (hS.named _)).quietly fun _ => .done (by simp [hS])

lemma emits_whileLoop (node : Node) :
    EmitsCode S expression code p
      (Part.field node "condition" ++ Part.optional node "body" (Part.body p.inReturn)) held
      (whileLoop code node) := by
  refine (emits_condition node).step fun test => .require fun bodyNode hbody => ?_
  rw [Part.optional, hbody]
  refine (emits_bodyWith bodyNode).last fun body => ?_
  split
  · rename_i hempty
    exact .done (by simp [hS, List.isEmpty_iff.1 hempty])
  · exact .done (by simp [hS, breakUnless, Nat.add_assoc])

lemma emits_doLoop (node : Node) :
    EmitsCode S expression code p
      (Part.optional node "body" (Part.body p.inReturn) ++ Part.field node "condition") held
      (doLoop code node) := by
  refine .optional fun bodyNode _ => (emits_bodyWith bodyNode).step fun body => ?_
  exact (emits_condition node).last fun test => .done (by simp [hS, breakUnless, Nat.add_assoc])

lemma emits_headerStep (hsets : Sets S p node) :
    EmitsCode S expression code p (Part.headerStep node) held (headerStep node) := by
  unfold headerStep
  split
  · rename_i hkind
    rw [Part.headerStep, hkind]
    exact emits_assignmentStmts hkind (.of_deep hS hsets)
  · rename_i hkind
    rw [Part.headerStep, hkind]
    exact emits_updateStmts hkind (.of_deep hS hsets)
  · rename_i hassignment hupdate
    have hparts : Part.headerStep node = [.value node] := by
      unfold Part.headerStep
      split
      · exact absurd ‹_› hassignment
      · exact absurd ‹_› hupdate
      · rfl
    rw [hparts]
    exact (Emits.value node).last fun a => .done (by simp [hS])

lemma emits_headerInit (hsets : Sets S p node) :
    EmitsCode S expression code p (Part.headerInit node) held (headerInit node) := by
  unfold headerInit Part.headerInit
  split
  · exact emits_localVariables hS true node
  · exact emits_headerStep hS hsets

omit hS in
lemma emits_headerCondition (node : Node) :
    Emits S expression code p (Part.field node "condition") held (headerCondition node)
      fun _ => held := by
  unfold headerCondition Part.field Part.optional
  cases node.fieldChild? "condition" with
  | none => exact .done rfl
  | some test =>
    refine (Emits.value test).last fun a => ?_
    split
    · rename_i hempty
      exact .done (by simp [List.isEmpty_iff.1 hempty])
    · exact .refuse _

lemma emits_forParts {node : Node} (hsets : node.Everywhere (Sets S p)) :
    Emits S expression code p (Part.forLoop p.inReturn node) held (forParts code node)
      fun parts => held + S.all parts.1 + S.all parts.2.2.1.head?.toList + S.all parts.2.2.2 := by
  have hbelow : ∀ {field : String}, ∀ n ∈ node.fieldChildren field, Sets S p n := fun n hn =>
    (hsets.child (Node.mem_children_of_fieldChildren hn)).here
  refine (emits_lowerEach fun n hn held => emits_headerInit hS (hbelow n hn)).step fun init => ?_
  refine (emits_headerCondition node).step fun test => ?_
  refine (emits_lowerEach fun n hn held => emits_headerStep hS (hbelow n hn)).step fun post => ?_
  split
  · exact .refuse _
  rename_i hfew
  have hpost : post.head?.toList = post := by
    cases post with
    | nil => rfl
    | cons first rest =>
      cases rest with
      | nil => rfl
      | cons second rest => simp at hfew
  refine .require fun bodyNode hbody => ?_
  rw [Part.optional, hbody]
  exact (emits_bodyWith bodyNode).last fun body => .done (by simp [hpost])

lemma emits_forLoop {node : Node} (hsets : node.Everywhere (Sets S p)) :
    EmitsCode S expression code p (Part.forLoop p.inReturn node) held (forLoop code node) := by
  refine ((emits_forParts hS hsets).withScope _).last fun parts => ?_
  obtain ⟨init, test, post, body⟩ := parts
  dsimp only
  split
  · exact .done (by simp [hS, Nat.add_assoc])
  · exact .done (by simp [hS, Nat.add_assoc])
  · exact .done (by simp [hS, Nat.add_assoc])

lemma emits_rangeLoop (node : Node) :
    EmitsCode S expression code p
      (Part.field node "value" ++ Part.optional node "body" (Part.body p.inReturn)) held
      (rangeLoop code node) := by
  refine .requireText fun name _ => .field fun values => ?_
  have hbody : ∀ held, EmitsCode S expression code p
      (Part.optional node "body" (Part.body p.inReturn)) held
      (do bodyWith code (← node.require "body")) := fun held =>
    .require fun bodyNode hbody => by
      rw [Part.optional, hbody]
      exact emits_bodyWith bodyNode
  exact ((hbody _).withScope _).last fun body => .done (by simp [hS, Nat.add_assoc])

lemma emits_throwNew (node creation : Node) :
    EmitsCode S expression code p
      (Part.optional creation "type" fun type =>
        if type.text ∈ libraryExceptions then
          Part.optional creation "arguments" fun arguments => arguments.operands.map .value
        else []) held (throwNew node creation) := by
  refine .requireText fun type htype => ?_
  rw [Part.optional, htype]
  dsimp only [Option.elim]
  by_cases hlibrary : type.text ∈ libraryExceptions
  · rw [if_pos hlibrary, if_pos hlibrary]
    refine .require fun arguments harguments => ?_
    rw [Part.optional, harguments]
    refine (emits_lowerAll _).last fun args => ?_
    have hmessage : ∀ held, Emits S expression code p [] held (panicMessage type.text args.values)
        fun _ => held := by
      intro held
      unfold panicMessage
      split
      · exact .done rfl
      · exact .done rfl
      · exact (Emits.requireImport (.inl rfl)).quietly fun _ => .done rfl
    exact (hmessage _).quietly fun message => .done (by simp [hS, panicWith])
  · rw [if_neg hlibrary, if_neg hlibrary]
    exact (Emits.noteAll _).quietly fun _ => .done (by simp [hS, hS.passedThrough])

lemma emits_throwStatement (node : Node) :
    EmitsCode S expression code p (Part.thrown node) held (throwStatement node) := by
  unfold throwStatement Part.thrown
  cases node.operands with
  | nil => exact .refuse _
  | cons thrown more =>
    cases more with
    | cons next rest => exact .refuse _
    | nil =>
      dsimp only
      by_cases hkind : thrown.kind = .objectCreation
      · rw [if_pos hkind, if_pos hkind]
        exact emits_throwNew hS node thrown
      · rw [if_neg hkind, if_neg hkind]
        exact (Emits.value thrown).last fun a => .done (by simp [hS, panicWith])

lemma emits_addResource (found : Resources) (node : Node) :
    Emits S expression code p (Part.resource node) (held + S.all found.declarations)
      (addResource found node) fun found => held + S.all found.declarations := by
  unfold addResource Part.resource
  cases node.fieldChild? "name" with
  | none =>
    exact .first fun first => (Emits.value first).last fun a => .done (by simp [Nat.add_assoc])
  | some =>
    have hparts : Part.field node "value" = Part.field node "value" ++ [] := by simp
    rw [hparts]
    refine .field fun a => (Emits.declareLocal (hS.named _)).quietly fun _ => .done ?_
    simp [hS, Nat.add_assoc]

lemma emits_resources (node : Node) :
    Emits S expression code p
      (Part.optional node "resources" fun list =>
        (list.childrenOfKind .resource).flatMap Part.resource) held
      (resources node) fun found => held + S.all found.declarations := by
  unfold resources Part.optional
  cases node.fieldChild? "resources" with
  | none => exact .done rfl
  | some list =>
    have h : Emits S expression code p ((list.childrenOfKind .resource).flatMap Part.resource)
        (held + S.all ({} : Resources).declarations)
        ((list.childrenOfKind .resource).foldlM addResource {})
        fun found => held + S.all found.declarations :=
      Emits.foldlM fun found resource _ held => emits_addResource hS found resource
    exact h

omit hS in
lemma emits_catchClauses (node : Node) :
    Emits S expression code p (Part.catches p.inReturn node) held (catchClauses code node)
      fun clauses => held + S.all (clauses.flatMap CatchClause.body) := by
  refine .require fun body hbody => ?_
  rw [Part.catches, Part.optional, hbody]
  split
  · exact .refuse _
  rename_i parameter hparameter
  refine .requireText fun name _ => ?_
  split
  · exact .refuse _
  rename_i type htype
  rw [hparameter]
  simp only [Option.bind_some, htype]
  refine Emits.mapM fun operand _ held => ?_
  refine ((emits_blockWith body).withScope _).last fun statements => ?_
  refine .types (.lift (faults_typeOf p.types operand.blamed_isOther) fun goType _ => ?_)
  exact .done rfl

def Handlers.weight (S : Scale) (found : Handlers) (later : List Node) : Nat :=
  S.all (found.catches.flatMap CatchClause.body)
    + if later.any fun n => n.kind = .finallyClause then 0 else S.all (found.finallyBody.getD [])

omit hS in
lemma emits_addHandler (found : Handlers) {node : Node} {later : List Node}
    (hfinal : node.kind = .finallyClause →
      (later.any fun n => n.kind = .finallyClause) = true → S.lossy) :
    Emits S expression code p (Part.handler p.inReturn node later)
      (held + found.weight S (node :: later)) (addHandler code found node)
      fun handlers => held + handlers.weight S later := by
  unfold addHandler
  split
  · rename_i hkind
    rw [Part.handler, hkind]
    refine (emits_catchClauses node).last fun clauses => .done ?_
    simp [Handlers.weight, hkind]
    omega
  · rename_i hkind
    rw [Part.handler, hkind]
    have hnode : ((node :: later).any fun n => n.kind = .finallyClause) = true := by simp [hkind]
    cases node.childOfKind? .block with
    | none => exact .refuse _
    | some block =>
      by_cases hlater : (later.any fun n => n.kind = .finallyClause) = true
      · rw [if_pos hlater]
        refine (Emits.drop (hfinal hkind hlater) (emits_blockWith block)).quietly fun body => ?_
        exact .done (by rw [Handlers.weight, Handlers.weight, if_pos hlater, if_pos hnode])
      · rw [if_neg hlater]
        refine (emits_blockWith block).last fun body => .done ?_
        rw [Handlers.weight, Handlers.weight, if_neg hlater, if_pos hnode]
        exact (Nat.add_assoc _ _ _).symm
  · rename_i hcatch hfinally
    have hparts : Part.handler p.inReturn node later = [] := by
      unfold Part.handler
      split
      · exact absurd ‹_› hcatch
      · exact absurd ‹_› hfinally
      · rfl
    rw [hparts]
    exact .done (by simp [Handlers.weight, show node.kind ≠ .finallyClause from hfinally])

omit hS in
lemma emits_addHandlers : ∀ {nodes : List Node} (found : Handlers),
    (S.lossy ∨ (nodes.filter fun n => n.kind == .finallyClause).length ≤ 1) →
    Emits S expression code p (Part.handlers p.inReturn nodes) (held + found.weight S nodes)
      (nodes.foldlM (addHandler code) found) fun handlers => held + handlers.weight S []
  | [], found, _ => .done rfl
  | node :: nodes, found, hfinal => by
    rw [filter_cons] at hfinal
    refine (emits_addHandler found fun hkind hlater => ?_).step fun handlers =>
      emits_addHandlers handlers (hfinal.imp_right fun hfew => ?_)
    · -- Two final blocks are one too many where nothing may be lost.
      refine hfinal.resolve_right fun hfew => ?_
      obtain ⟨n, hn, hlast⟩ := any_eq_true.1 hlater
      have hmem : n ∈ nodes.filter fun n => n.kind == .finallyClause :=
        mem_filter.2 ⟨hn, by simpa using hlast⟩
      have hpos := length_pos_of_mem hmem
      rw [if_pos (by simp [hkind]), length_cons] at hfew
      omega
    · split at hfew
      · rw [length_cons] at hfew
        omega
      · exact hfew

lemma emits_tryWith (node : Node) (hopens : S.Opens)
    (hfinal : S.lossy ∨ (node.childrenOfKind .finallyClause).length ≤ 1) :
    EmitsCode S expression code p (Part.tryStatement p.inReturn node) held (tryWith code node) := by
  refine .require fun bodyNode hbody => ?_
  have hopened : Emits S expression code p
      ((Part.optional node "resources" fun list =>
          (list.childrenOfKind .resource).flatMap Part.resource)
        ++ Part.optional node "body" (Part.block p.inReturn)) held
      (withScope [] do
        let opened ← resources node
        let body ← blockWith code bodyNode
        return (opened, body))
      fun parts : Resources × List Stmt =>
        held + S.all parts.1.declarations + S.all parts.2 := by
    refine .withScope ((emits_resources hS node).step fun opened => ?_) _
    rw [Part.optional, hbody]
    exact (emits_blockWith bodyNode).last fun body => .done rfl
  refine hopened.step fun parts => ?_
  have hstart : Handlers.weight S {} node.children = 0 := by simp [Handlers.weight]
  have hhandlers : Emits S expression code p (Part.handlers p.inReturn node.children)
      (held + S.all parts.1.declarations + S.all parts.2 + Handlers.weight S {} node.children)
      (node.children.foldlM (addHandler code) {}) _ := emits_addHandlers {} hfinal
  rw [hstart] at hhandlers
  refine hhandlers.last fun handlers => .done ?_
  split <;> simp [hS, hopens _, Handlers.weight, Nat.add_assoc]

lemma gives_tryWith (node : Node) (hshuts : S.Shuts) :
    (tryWith code node).Gives fun ss => S.all ss = 0 := by
  refine .bind fun _ _ body _ _ => .bind fun _ _ opened _ _ => .bind fun _ _ handlers _ _ =>
    .pure ?_
  split <;> simp [hS, hshuts _]

section

omit hS in
lemma emits_labelValue (node : Node) :
    Emits S expression code p [.value node] held (labelValue node) fun _ => held := by
  refine (Emits.value node).last fun a => ?_
  split
  · rename_i hempty
    exact .done (by simp [List.isEmpty_iff.1 hempty])
  · exact .refuse _

omit hS in
lemma emits_addLabel (labels : Labels) (label : Node) :
    Emits S expression code p (label.operands.map .value) held (addLabel labels label)
      fun _ => held := by
  unfold addLabel
  cases label.operands with
  | nil => exact .done rfl
  | cons first rest =>
    rw [map_eq_flatMap]
    have hvalues : Emits S expression code p ((first :: rest).flatMap fun n => [.value n]) held
        ((first :: rest).mapM labelValue) fun values =>
          held + S.all (values.flatMap fun _ => []) :=
      .mapM fun node _ held => emits_labelValue node
    refine hvalues.last fun values => .done ?_
    rw [flatMap_eq_nil_iff.2 fun _ _ => rfl, S.all_nil, Nat.add_zero]

variable (hpays : p.inReturn = true → S.Pays p)
include hpays

omit hS in
lemma emits_ruleBody (body : Node) :
    EmitsCode S expression code p (Part.ruleBody p.inReturn body) held (ruleBody code body) := by
  unfold ruleBody Part.ruleBody
  by_cases hblock : body.kind = .block
  · rw [if_pos hblock, if_pos hblock]
    exact emits_blockWith body
  · rw [if_neg hblock, if_neg hblock]
    refine .read fun c hsetting => ?_
    subst hsetting
    change Emits S expression code c.setting
      (if body.kind = .expressionStatement && c.inReturn then (body.operands.take 1).map .value
        else [.code c.inReturn body]) _ _ _
    by_cases hvalue : (body.kind = .expressionStatement && c.inReturn) = true
    · rw [if_pos hvalue, if_pos hvalue]
      exact .first fun value => emits_returnValue (hpays (Bool.and_eq_true_iff.1 hvalue).2) value
    · rw [if_neg hvalue, if_neg hvalue]
      exact .code body

omit hS in
lemma emits_ruleClause (labels : Labels) {group : Node} (hgroup : group.kind = .switchRule) :
    Emits S expression code p (Part.clause p.inReturn group) held (ruleClause code labels group)
      fun clause => held + S.all clause.body := by
  unfold ruleClause Part.clause
  rw [hgroup]
  dsimp only
  split
  · rename_i body hnodes
    rw [hnodes, flatMap_cons, flatMap_nil, append_nil]
    exact (emits_ruleBody hpays body).last fun ss => .done rfl
  · exact .refuse _

omit hS hpays in
/-- The last of the statements in front of a `break` is the `break`. -/
lemma gives_lowerEach_break
    (hbreak : ∀ node, isPlainBreak node → (code node).Gives fun ss => ss = [.raw "break"]) :
    ∀ {statements : List Node}, statements.getLast?.any isPlainBreak = true →
      (lowerEach code statements).Gives fun ss => ss.getLast? = some (.raw "break")
  | [], h => by cases h
  | [node], h => by
    refine .bind fun c t first t₁ hfirst => .bind fun c t rest t₁ hrest => .pure ?_
    cases hrest
    rw [hbreak node h _ _ _ _ hfirst]
    rfl
  | node :: next :: statements, h => by
    have hlast : (next :: statements).getLast?.any isPlainBreak = true := by
      rwa [getLast?_cons_cons] at h
    refine .bind fun c t first t₁ hfirst => .bind fun c t rest t₁ hrest => .pure ?_
    have hend := gives_lowerEach_break hbreak hlast _ _ _ _ hrest
    rw [getLast?_append, hend]
    rfl

variable (hbreak : ∀ node, isPlainBreak node → (code node).Gives fun ss => ss = [.raw "break"])
include hbreak

omit hpays in
lemma emits_groupClause (labels : Labels) (isLast : Bool) (statements : List Node) :
    Emits S expression code p (statements.map (.code p.inReturn)) held
      (groupClause code labels isLast statements) fun clause => held + S.all clause.body := by
  -- The statement that is dropped with a `break` at the end is the `break`.
  have hdropped : (lowerEach code statements).Gives fun body =>
      statements.getLast?.any isPlainBreak = true → S.all body.getLast?.toList = 0 := by
    intro c t body t' hrun hlast
    rw [gives_lowerEach_break hbreak hlast c t body t' hrun]
    simp [hS]
  have hgives : GivesAt p (withScope [] (lowerEach code statements)) fun body =>
      statements.getLast?.any isPlainBreak = true → S.all body.getLast?.toList = 0 :=
    fun c t body t' _ hrun => hdropped.withScope [] c t body t' hrun
  refine ((emits_codes statements).withScope []).lastWith hgives fun body hlast => .done ?_
  simp only [Labels.clause, SwitchClause.body]
  split
  · rename_i hplain
    rw [S.all_eq_dropLast_add body, hlast hplain, Nat.add_zero]
  · rfl

lemma emits_switchClauses :
    ∀ {groups : List Node} {held : Nat} (waiting : Labels),
      Emits S expression code p
        (groups.flatMap fun group => Part.labels group ++ Part.clause p.inReturn group) held
        (switchClauses code waiting groups) fun clauses =>
          held + S.all (clauses.flatMap SwitchClause.body)
  | [], held, _ => .done rfl
  | group :: groups, held, waiting => by
    rw [flatMap_cons, append_assoc]
    have hclause : ∀ {x : Lower SwitchClause} {parts : List Part},
        Emits S expression code p parts held x (fun clause => held + S.all clause.body) →
        Emits S expression code p
          (parts ++ groups.flatMap fun group => Part.labels group ++ Part.clause p.inReturn group)
          held (do return (← x) :: (← switchClauses code {} groups)) fun clauses =>
            held + S.all (clauses.flatMap SwitchClause.body) := fun hx =>
      hx.step fun clause => (emits_switchClauses {}).last fun clauses =>
        .done (by simp [Nat.add_assoc])
    have hlabels : Emits S expression code p (Part.labels group) held
        ((group.childrenOfKind .switchLabel).foldlM addLabel waiting) fun _ => held :=
      .foldlM (g := fun _ => []) fun labels label _ held => emits_addLabel labels label
    refine hlabels.step fun labels => ?_
    split
    · exact hclause (emits_ruleClause hpays labels ‹_›)
    · rename_i hgroup
      dsimp only
      have hparts : Part.clause p.inReturn group
          = (clauseNodes group).map (.code p.inReturn) := by rw [Part.clause, hgroup]
      rw [hparts]
      split
      · rename_i hempty
        rw [List.isEmpty_iff.1 (Bool.and_eq_true_iff.1 hempty).1]
        exact emits_switchClauses labels
      · exact hclause (emits_groupClause hS hbreak labels _ _)
    · exact .refuse _

lemma emits_switchWith (node : Node) :
    EmitsCode S expression code p (Part.switch p.inReturn node) held (switchWith code node) := by
  refine (emits_condition node).step fun value => .require fun body hbody => ?_
  rw [Part.optional, hbody]
  exact (emits_switchClauses hS hpays hbreak {}).last fun clauses =>
    .done (by simp [hS, Nat.add_assoc])

lemma emits_expressionStatement {node : Node} (hnode : node.kind = .expressionStatement)
    (hsets : node.Everywhere (Sets S p)) :
    EmitsCode S expression code p (Part.expressionStatement p.inReturn p.types.symbols node) held
      (expressionStatement code node) := by
  unfold expressionStatement
  split
  · rename_i inner hinner
    have hbelow : Sets S p inner := (hsets.operand (hinner ▸ mem_singleton_self inner)).here
    have hother : inner.kind ≠ .assignment → inner.kind ≠ .update → inner.kind ≠ .switchExpression →
        Part.expressionStatement p.inReturn p.types.symbols node
          = Part.effect p.types.symbols inner := by
      intro hassignment hupdate hswitch
      rw [Part.expressionStatement, hinner]
      dsimp only
      split
      · exact absurd ‹_› hassignment
      · exact absurd ‹_› hupdate
      · exact absurd ‹_› hswitch
      · rfl
    split
    · rename_i hkind
      simp only [Part.expressionStatement, hinner, hkind]
      exact emits_assignmentStmts hkind (.of_deep hS hbelow)
    · rename_i hkind
      simp only [Part.expressionStatement, hinner, hkind]
      exact emits_updateStmts hkind (.of_deep hS hbelow)
    · rename_i hkind
      simp only [Part.expressionStatement, hinner, hkind]
      exact emits_switchWith hS hpays hbreak inner
    · rename_i hassignment hupdate hswitch
      rw [hother hassignment hupdate hswitch]
      exact emits_effectOf hS fun target htarget =>
        hsets.here target (by simpa [Part.places, hnode, hinner] using htarget)
  · exact .refuse _

omit hpays hbreak in
lemma emits_labeledStatement (node : Node) :
    EmitsCode S expression code p (Part.labeled p.inReturn node) held
      (labeledStatement code node) := by
  unfold labeledStatement Part.labeled
  cases node.childOfKind? .identifier with
  | none => exact .refuse _
  | some label =>
    dsimp only
    split
    · rename_i inner hinner
      rw [hinner]
      refine (Emits.code inner).last fun statements => ?_
      have hweight := S.all_eq_dropLast_add statements
      cases hlast : statements.getLast? with
      | none =>
        rw [getLast?_eq_none_iff.1 hlast]
        exact .done rfl
      | some last =>
        rw [hlast] at hweight
        exact .done (by simp [hS, hweight])
    · exact .refuse _

omit hpays hbreak in
lemma emits_ifStatement (node : Node) :
    EmitsCode S expression code p
      (Part.field node "condition" ++ Part.optional node "consequence" (Part.body p.inReturn)
        ++ Part.optional node "alternative" (Part.body p.inReturn)) held
          (ifStatement code node) := by
  rw [append_assoc]
  refine (emits_condition node).step fun test => .optional fun consequence _ => ?_
  refine (emits_bodyWith consequence).step fun body => ?_
  rw [Part.optional]
  cases node.fieldChild? "alternative" with
  | none => exact .done (by simp [hS, Nat.add_assoc])
  | some alternative =>
    dsimp only
    rw [map_eq_pure_bind, bind_assoc]
    refine (emits_bodyWith alternative).last fun elseBody => ?_
    exact .done (by simp [hS, Nat.add_assoc])

omit hpays in
lemma emits_returnStatement {node : Node} (hnode : node.kind = .returnStatement)
    (hvalue : node.operands ≠ [] → S.Pays p) :
    Emits S expression code p (Part.returned node) (held + S.own p node) (returnStatement code node)
      fun ss => held + S.all ss := by
  unfold returnStatement Part.returned Scale.own
  cases hoperands : node.operands with
  | nil =>
    have hown : (if node.kind = .returnStatement ∧ ([] : List Node) = [] then
        S.weight (.ret p.nils) else 0) = S.weight (.ret p.nils) := if_pos ⟨hnode, rfl⟩
    refine .read fun c hc => .done ?_
    rw [hown, ← hc]
    rfl
  | cons value rest =>
    have hreturned : S.Pays (p.within true) := hvalue (by simp [hoperands])
    rw [if_neg (by simp)]
    dsimp only
    split
    · exact .returning (emits_switchWith hS (fun _ => hreturned) hbreak value)
    · exact .returning (emits_returnValue hreturned value)

omit hS hbreak in
lemma emits_yieldStatement (node : Node) :
    EmitsCode S expression code p (node.operands.map .value) held (yieldStatement node) := by
  refine .read fun c hc => ?_
  have hguard : ∀ {parts : List Part} {x : Lower (List Stmt)},
      (c.inReturn = true → EmitsCode S expression code p parts held x) →
      EmitsCode S expression code p parts held
        (if !c.inReturn then throw (.unsupported .yieldOutsideReturn node) >>= fun _ : Unit => x
          else x) := by
    intro parts x hx
    split
    · have hstop : GivesAt p (throw (.unsupported .yieldOutsideReturn node) : Lower Unit)
          fun _ => False := fun _ _ _ _ _ hrun => by cases hrun
      have hrefused : Emits S expression code p [] held
          (throw (.unsupported .yieldOutsideReturn node) : Lower Unit) fun _ => held := .refuse _
      exact hrefused.bind hstop fun _ h => h.elim
    · rename_i hin
      exact hx (by simpa using hin)
  split
  · rename_i value hvalue
    rw [hvalue]
    exact hguard fun hin => emits_returnValue (hpays (hc ▸ hin)) value
  · exact hguard fun _ => .refuse _

omit hpays in
lemma emits_statementStep (hnode : AdmitsCode S p node) :
    Emits S expression code p (Part.ofCode p.inReturn p.types node) (held + S.own p node)
      (statementStep code node) fun ss => held + S.all ss := by
  have hjump : ∀ word, held + S.all [jumpStatement word node] = held := by
    unfold jumpStatement
    split <;> simp [hS]
  have hpays : p.inReturn = true → S.Pays p := fun hin => hnode.pays (.inl hin)
  unfold statementStep
  split
  case h_21 => exact .refuse _
  case h_10 hkind =>
    rw [Part.ofCode, hkind]
    exact emits_returnStatement hS hbreak hkind fun h => hnode.pays (.inr ⟨hkind, h⟩)
  all_goals
    rename_i hkind
    rw [Part.ofCode, Scale.own, hkind]
  · exact (emits_blockWith node).last fun body => .done (by simp [hS])
  · exact .done rfl
  · exact emits_expressionStatement hS hpays hbreak hkind hnode.sets
  · exact emits_localVariables hS false node
  · exact emits_ifStatement hS node
  · exact emits_whileLoop hS node
  · exact emits_doLoop hS node
  · exact emits_forLoop hS hnode.sets
  · exact emits_rangeLoop hS node
  · exact emits_yieldStatement hpays node
  · exact emits_throwStatement hS node
  · exact emits_switchWith hS hpays hbreak node
  · exact emits_tryWith hS node (hnode.opens (.inl hkind)).1 (hnode.opens (.inl hkind)).2
  · exact emits_tryWith hS node (hnode.opens (.inr hkind)).1 (hnode.opens (.inr hkind)).2
  · exact emits_assertStatement hS node
  · exact .done (hjump "break")
  · exact .done (hjump "continue")
  · exact emits_labeledStatement hS node
  · exact emits_constructorChain hS node

end

omit hS in
/-- A `break` without a label is the word. -/
lemma gives_statementWithin_break (height : Nat) (node : Node) (h : isPlainBreak node) :
    (statementWithin height node).Gives fun ss => ss = [.raw "break"] := by
  simp only [isPlainBreak, Bool.and_eq_true, decide_eq_true_eq, Option.isNone_iff_eq_none] at h
  cases height with
  | zero =>
    intro c t code t' hrun
    cases hrun
  | succ =>
    rw [statementWithin, statementStep, h.1]
    refine .pure ?_
    rw [jumpStatement, h.2]

end Lower

end JavaToGo
