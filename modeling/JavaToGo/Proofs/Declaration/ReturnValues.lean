import JavaToGo.Proofs.Declaration.MemberShares
import JavaToGo.Proofs.Declaration.MethodNames
import JavaToGo.Proofs.Lowering.Demands

/-!
# Returned values

The list of results is made by the analysis, the returns are made where the body
is lowered.  They agree for methods; a `return` in a constructor becomes one
without values.
-/

namespace JavaToGo

open Code (Stmt)
open JavaToGo.Tree (Node)
open List Lower

/-- Whether a kind is that of a type expression; `void` is none. -/
def Tree.Kind.isType (kind : Kind) : Bool :=
  kind ∈ [.typeIdentifier, .scopedTypeIdentifier, .integralType, .floatingPointType, .booleanType,
    .arrayType, .genericType, .wildcard, .annotatedType]

/-- Whether a method has a return type other than `void`. -/
def Tree.Node.returnsValue (node : Node) : Bool :=
  (node.fieldChild? "type").any fun type => type.kind.isType

lemma isSome_tryType (h : tryType c node = .ok found) : found.isSome = node.kind.isType := by
  obtain ⟨head, children⟩ := node
  change _ = head.kind.isType
  rw [tryType] at h
  split at h <;> rename_i hkind
  case h_10 =>
    simp_all [Tree.Kind.isType]
  all_goals
    rw [hkind]
    cases found with
    | some => rfl
    | none =>
      try simp only [bind, Except.bind] at h
      repeat' split at h
      all_goals cases h

lemma isSome_valueTypeOf (h : Analysis.valueTypeOf c node = .ok found) :
    found.isSome = node.returnsValue := by
  unfold Analysis.valueTypeOf at h
  unfold Tree.Node.returnsValue
  cases htype : node.fieldChild? "type" with
  | none =>
    rw [htype] at h
    cases h
    rfl
  | some type =>
    rw [htype] at h
    dsimp only at h
    cases hfound : tryType c type with
    | error failure =>
      rw [hfound] at h
      cases h
    | ok found =>
      rw [hfound] at h
      cases h
      rw [Option.isSome_map]
      exact isSome_tryType hfound

/-- The record of a method has the results of a method in the tree. -/
def Symbols.Describes (s : Symbols) (root : Node) : Prop :=
  ∀ number record, s.methodRecords.find? number = some record →
    record.result = Analysis.foldThrows record.valueType record.throws
      ∧ ∃ node ∈ root.walk, node.id = number ∧ record.valueType.isSome = node.returnsValue
        ∧ record.throws = (node.childOfKind? .throws).isSome

lemma describes_analyze (mode : Mode) (unit : CompilationUnit) :
    (analyze mode unit [] {}).2.symbols.Describes unit.root := by
  refine (reaches_analyze mode unit [] {}).induct (I := fun s => s.symbols.Describes unit.root) ?_
    fun _ _ h => nomatch h
  intro s s' hupdate hs
  cases hupdate with
  | other _ hrecords => exact fun number record h => hs number record (hrecords ▸ h)
  | filed | refused | counted => exact hs
  | recorded node record hnode hvalue hthrows hresult =>
    intro number found hfound
    by_cases hnumber : number = node.id
    · rw [hnumber] at hfound
      cases (Table.find?_insert_self _ _ _).symm.trans hfound
      obtain ⟨types, hvalue⟩ := hvalue
      exact ⟨hresult, node, hnode, hnumber.symm, isSome_valueTypeOf hvalue, hthrows⟩
    · exact hs number found ((Table.find?_insert_of_ne _ _ hnumber).symm.trans hfound)

def Tree.Node.isBareReturn (node : Node) : Bool :=
  node.kind = .returnStatement ∧ node.operands = []

namespace Part

def below (go : Bool → Node → List Node) : Part → List Node
  | .code b node => go b node
  | _ => []

/-- The statements that the rules reach without entering a try. -/
def reached (s : Symbols) : Nat → Bool → Node → List Node
  | 0, _, _ => []
  | height + 1, b, node =>
    node :: if node.kind = .tryStatement ∨ node.kind = .tryWithResourcesStatement then []
      else (ofCode b { symbols := s } node).flatMap (below (reached s height))

/-- The statements of a body outside a try, whose returns leave a closure only. -/
def outsideTry (s : Symbols) (body : Node) : List Node :=
  (block false body).flatMap (below fun b n => reached s n.height b n)

lemma countP_below (go : Bool → Node → List Node) (f : Node → Bool) (parts : List Part) :
    (parts.flatMap (below go)).countP f
      = sum (count 0 (fun _ => 0) fun b n => (go b n).countP f) parts := by
  induction parts with
  | nil => rfl
  | cons q parts ih =>
    rw [flatMap_cons, countP_append, ih]
    cases q <;> rfl

variable {inner : Node}

section

variable {node : Node}

@[grind =] lemma mem_optional {q : Part} {field : String} {f : Node → List Part} :
    q ∈ optional node field f ↔ ∃ n, node.fieldChild? field = some n ∧ q ∈ f n := by
  unfold optional
  cases node.fieldChild? field <;> simp

@[simp] lemma code_not_mem_field {name : String} : .code b inner ∉ field node name := by
  simp [field, mem_optional]

@[simp] lemma code_not_mem_assignment : .code b inner ∉ assignment node := by
  grind [assignment, code_not_mem_field]

@[simp] lemma code_not_mem_update : .code b inner ∉ update node := by
  grind [update]

lemma mode_of_mem_switch (h : .code b' inner ∈ switch b node) : b' = b := by
  simp only [switch, labels, clause] at h
  grind [ruleBody, block, code_not_mem_field]

lemma mode_of_mem_expressionStatement (h : .code b' inner ∈ expressionStatement b s node) :
    b' = b := by
  unfold expressionStatement at h
  split at h
  · split at h
    case h_3 => exact mode_of_mem_switch h
    all_goals grind [code_not_mem_assignment, code_not_mem_update, effect]
  · cases h

lemma mode_of_mem_forLoop (h : .code b' inner ∈ forLoop b node) : b' = b := by
  simp only [forLoop, headerInit, headerStep, localVariables, mem_append, mem_flatMap] at h
  grind [body, block, code_not_mem_field, code_not_mem_assignment, code_not_mem_update]

lemma mode_of_mem_ofCode
    (htry : ¬(node.kind = .tryStatement ∨ node.kind = .tryWithResourcesStatement))
    (hbare : node.kind = .returnStatement → node.operands = [])
    (h : .code b' inner ∈ ofCode b c node) : b' = b := by
  unfold ofCode at h
  split at h
  case h_2 => exact mode_of_mem_expressionStatement h
  case h_7 => exact mode_of_mem_forLoop h
  case h_9 hkind =>
    rw [returned, hbare hkind] at h
    cases h
  case h_12 => exact mode_of_mem_switch h
  all_goals grind [block, body, localVariables, code_not_mem_field, thrown, labeled]
end

/-- A return has a value exactly when one is expected. -/
def Matched (s : Symbols) (valued : Bool) (height : Nat) (b : Bool) (node : Node) : Prop :=
  (b = true → valued = true) ∧ ∀ n ∈ reached s height b node,
    n.kind = .returnStatement → (n.operands ≠ [] ↔ valued = true)

lemma Matched.below (h : Matched c.symbols valued (height + 1) b node)
    (htry : ¬(node.kind = .tryStatement ∨ node.kind = .tryWithResourcesStatement))
    (hq : .code b' inner ∈ ofCode b c node) : Matched c.symbols valued height b' inner := by
  have hself := h.2 node mem_cons_self
  refine ⟨fun hb => ?_, fun n hn => h.2 n (mem_cons_of_mem _ ?_)⟩
  · by_contra hvalued
    -- Where no value is returned, no switch is.
    have hbare : node.kind = .returnStatement → node.operands = [] := fun hkind => by
      simpa [hvalued] using hself hkind
    exact hvalued (h.1 (mode_of_mem_ofCode htry hbare hq ▸ hb))
  · rw [if_neg htry]
    exact mem_flatMap.2 ⟨_, hq, hn⟩

end Part

variable {r : Receiver} {c : TypeContext}

section

namespace Setting

/-- How many values a return gives. -/
def results (p : Setting) : Nat :=
  (p.returns.bind ReturnShape.type).isSome.toNat + p.nils.length

def valued (p : Setting) : Bool :=
  (p.returns.bind ReturnShape.type).isSome

lemma results_setting {types : TypeContext} :
    results ⟨types, r, some ⟨type, throws⟩, b⟩ = type.isSome.toNat + throws.toNat := by
  cases throws <;> rfl

abbrev returnScale (p : Setting) : Scale :=
  (Demand.results p.results).scale

end Setting

variable {p : Setting}

lemma weight_ret (p : Setting) (values : List Expr) :
    p.returnScale.weight (.ret values) = if values.length = p.results then 0 else 1 := by
  simp only [Demand.scale, Stmt.total_simple, Demand.breaks]
  split <;> simp [*]

lemma pays_returns (h : p.valued = true) (b : Bool) : p.returnScale.Pays (p.within b) := by
  intro value
  rw [weight_ret, if_pos]
  change p.nils.length + 1 = p.valued.toNat + p.nils.length
  rw [h, Nat.add_comm]
  rfl

lemma own_returns (p : Setting) (node : Node) :
    p.returnScale.own p node = if node.isBareReturn = true ∧ p.valued = true then 1 else 0 := by
  have hresults : p.results = p.valued.toNat + p.nils.length := rfl
  rw [Scale.own, weight_ret, hresults]
  cases p.valued <;> simp [Tree.Node.isBareReturn]

lemma accounts_returns (p : Setting) :
    Accounts p.returnScale p (fun _ _ => 0) (fun _ _ _ => 0) fun q => ¬q.IsCode where
  deep := Demand.deep_scale _
  lossless _ _ := rfl
  behind _ := ⟨rfl, fun _ _ => rfl, fun _ _ _ => rfl⟩
  value _ := ⟨fun _ => (Part.sum_silent (S := p.returnScale) rfl _).symm, fun _ _ => em _⟩
  maybe _ := ⟨fun _ => rfl, id⟩
  admits _ _ := ⟨fun _ _ _ => trivial, fun _ _ _ => trivial,
    fun _ _ => .of_placed (fun _ h => nomatch h), fun _ => trivial⟩
  code h := absurd trivial h

lemma counts_matched (height : Nat) : ∀ {b : Bool} {node : Node},
    Part.Matched p.types.symbols p.valued height b node →
      Lower.Emits.CountsAt p.returnScale (p.within b) 0 (statementWithin height node)
        p.returnScale.all := by
  have haccounts := accounts_returns p
  induction height with
  | zero =>
    intro b node _ c t a t' _ hrun
    cases hrun
  | succ height ih =>
    intro b node h
    by_cases htry : node.kind = .tryStatement ∨ node.kind = .tryWithResourcesStatement
    · exact haccounts.counts_shut htry trivial (Demand.shuts_results _)
    have hself := h.2 node mem_cons_self
    have hown : p.returnScale.own p node = 0 := by
      rw [own_returns, if_neg]
      rintro ⟨hbare, hvalued⟩
      obtain ⟨hkind, hnone⟩ := of_decide_eq_true hbare
      exact (hself hkind).2 hvalued hnone
    have hadmits : Lower.AdmitsCode p.returnScale (p.within b) node := by
      refine ⟨fun _ _ _ _ => .of_placed fun _ h => (nomatch h), fun hpays => pays_returns ?_ b,
        fun hkind => absurd hkind htry⟩
      rcases hpays with hb | ⟨hkind, hoperands⟩
      · exact h.1 hb
      · exact (hself hkind).1 hoperands
    have hrule : Lower.Emits p.returnScale expression (statementWithin height)
        (p.within b) (Part.ofCode b p.types node) (0 + p.returnScale.own p node)
        (statementWithin (height + 1) node) fun ss => 0 + p.returnScale.all ss :=
      emits_statementStep haccounts.deep (gives_statementWithin_break height) hadmits
    have hcounts := haccounts.counts_of_good hrule (fun _ _ _ => rfl)
      (fun hq => ih (h.below htry hq)) fun _ _ => em _
    simpa only [hown, Part.sum_silent (S := p.returnScale) rfl, Nat.zero_add] using hcounts

lemma accounts_bareReturns (hkind : p.kind ≠ .abstractDefault) (hvalued : p.valued = true) :
    Accounts p.returnScale p (fun _ _ => 0)
      (fun height b n => (Part.reached p.types.symbols height b n).countP Node.isBareReturn)
      fun _ => True where
  deep := Demand.deep_scale _
  lossless _ _ := rfl
  behind h := absurd h hkind
  value _ := ⟨fun _ => (Part.sum_silent (S := p.returnScale) rfl _).symm, fun _ _ => .inr trivial⟩
  maybe _ := ⟨fun _ => rfl, trivial⟩
  admits _ height := (accounts_returns p).admits id height
  code {b node} _ := by
    by_cases htry : node.kind = .tryStatement ∨ node.kind = .tryWithResourcesStatement
    · refine .inl ⟨htry, trivial, Demand.shuts_results _, fun height => ?_⟩
      rw [Part.reached]
      rcases htry with hkind | hkind <;> simp [Node.isBareReturn, hkind]
    · refine .inr ⟨⟨fun _ _ _ _ => .of_placed fun _ h => (nomatch h),
        fun _ => pays_returns hvalued b, fun hkind => absurd hkind htry⟩,
        fun height => ?_, fun _ _ => trivial⟩
      rw [Part.reached, if_neg htry, countP_cons, Part.countP_below, own_returns, hvalued,
        Nat.add_comm]
      simp only [and_true]
      rfl

variable {c : Context}

lemma within_false (hc : c.inReturn = false) : c.setting = c.setting.within false := by
  rw [← hc]
  rfl

lemma returns_met (hrun : (block body).runAt c t = (.ok ss, t')) (hc : c.inReturn = false)
    (hreturns : ∀ n ∈ Part.outsideTry c.symbols body, n.kind = .returnStatement →
      (n.operands ≠ [] ↔ c.setting.valued = true)) :
    (Demand.results c.setting.results).faults ss = 0 := by
  have haccounts := accounts_returns c.setting
  have hrule : Lower.Emits c.setting.returnScale expression statement
      (c.setting.within false) (Part.block false body) 0 (block body)
      fun ss => 0 + c.setting.returnScale.all ss := emits_blockWith body
  have hstatements : ∀ {b : Bool} {n : Node}, .code b n ∈ Part.block false body →
      Lower.Emits.CountsAt c.setting.returnScale (c.setting.within b) 0 (statement n)
        c.setting.returnScale.all := by
    intro b n hq
    refine counts_matched n.height ⟨fun hb => ?_, fun m hm => ?_⟩
    · obtain ⟨_, _, ⟨⟩⟩ := mem_map.1 hq
      cases hb
    · exact hreturns m (mem_flatMap.2 ⟨_, hq, hm⟩)
  have hcounts := haccounts.counts_of_good hrule (fun _ _ _ => rfl) hstatements (fun _ _ => em _)
    c t ss t' (within_false hc) hrun
  rw [Part.sum_silent (S := c.setting.returnScale) rfl] at hcounts
  rw [← Demand.all_scale, ← Nat.zero_add (c.setting.returnScale.all ss)]
  exact hcounts

lemma faults_eq_bareReturns (hrun : (block body).runAt c t = (.ok ss, t'))
    (hc : c.inReturn = false) (hkind : c.receiver.kind ≠ .abstractDefault)
    (hvalued : c.setting.valued = true) :
    (Demand.results c.setting.results).faults ss
      = (Part.outsideTry c.symbols body).countP Node.isBareReturn := by
  have hcounts := (accounts_bareReturns (p := c.setting) hkind hvalued).counts_block
    (fun _ _ => trivial) c t ss t' (within_false hc) hrun
  rw [Demand.all_scale] at hcounts
  rw [Part.outsideTry, Part.countP_below]
  exact hcounts

lemma faults_fieldInitializers (c : Context) : ∀ {fields : List DeclaredField} {t t' : Trail}
    {ss : List Stmt}, (fieldInitializers fields).runAt c t = (.ok ss, t') →
      (Demand.results c.setting.results).faults ss = 0
  | [], _, _, _, hrun => by
    cases hrun
    rfl
  | f :: fields, t, t', ss, hrun => by
    simp only [fieldInitializers, runAt_bind_eq_ok] at hrun
    obtain ⟨first, t₁, hfirst, rest, t₂, hrest, ⟨⟩⟩ := hrun
    rw [Demand.faults_append, faults_fieldInitializers c hrest, Nat.add_zero]
    unfold fieldInitializer at hfirst
    cases hvalue : f.value with
    | none =>
      rw [hvalue] at hfirst
      cases hfirst
      rfl
    | some =>
      rw [hvalue] at hfirst
      obtain ⟨a, t₃, hvalue, ⟨⟩⟩ := exists_of_bind hfirst
      have hcounts := (accounts_returns c.setting).counts_expression id c.inReturn
        { c with expected := some f.goType } t a t₁ rfl hvalue
      rw [Demand.faults_append, ← Demand.all_scale]
      exact congrArg (· + 0) hcounts

lemma faults_constructorPreamble
    (hrun : (constructorPreamble structType fields).runAt c t = (.ok ss, t')) :
    (Demand.results c.setting.results).faults ss = 0 := by
  obtain ⟨initial, t₁, hinitial, hlast⟩ := exists_of_bind hrun
  have hnone := faults_fieldInitializers c hinitial
  split at hlast
  · cases hlast
    rfl
  · cases hlast
    simpa [Demand.faults, Demand.breaks, newValue] using hnone

end

section

variable {c : Context} {node : Node} {f : Code.Function}

namespace Lower

variable {t t' : Trail} {ss : List Stmt}

lemma faults_methodBody {record : MethodRecord}
    (hreturns : ∀ body, node.fieldChild? "body" = some body →
      ∀ n ∈ Part.outsideTry c.symbols body, n.kind = .returnStatement →
        (n.operands ≠ [] ↔ record.valueType.isSome = true))
    (hrun : (methodBody node record r).runAt c t = (.ok ss, t')) :
    (Demand.results (record.valueType.isSome.toNat + record.throws.toNat)).faults ss = 0 := by
  unfold methodBody at hrun
  cases hbody : node.fieldChild? "body" with
  | none =>
    rw [hbody] at hrun
    cases hrun
    rfl
  | some body =>
    rw [hbody] at hrun
    simp only [runAt_bind_eq_ok] at hrun
    obtain ⟨c', t₁, ⟨⟩, statements, t₂, hlowered, ⟨⟩⟩ := hrun
    obtain ⟨params, t₃, -, hinner⟩ := exists_of_bind
      (x := (liftM node.formalNames : Lower (List String)))
      (c := { c with receiver := r, typeParams := (c.unit.root.enclosingTypeParameters node
        ++ record.typeParams) :: c.typeParams }) hlowered
    obtain ⟨t₄, hblock⟩ := exists_of_runAt_withFunctionScope hinner
    have hnone := returns_met hblock rfl (hreturns body hbody)
    replace hnone := Setting.results_setting ▸ hnone
    unfold closedBody
    split
    · rename_i hclosed
      simp only [Bool.and_eq_true, Option.isNone_iff_eq_none] at hclosed
      rw [Demand.faults_append, hnone, hclosed.1.1, hclosed.1.2]
      rfl
    · exact hnone

/-- A method or a constructor is lowered to a function. -/
inductive Declares (c : Context) (node : Node) : Code.Function → Prop
  | method {r : Receiver} {param : Option Code.Param} {exports : Bool} {t t' : Trail}
      {f : Code.Function} (hkind : node.kind = .methodDeclaration)
      (hrun : (Lower.method node r param exports).runAt c t = (.ok f, t')) : Declares c node f
  /-- A default method of an interface becomes a function. -/
  | default {record : MethodRecord} {r : Receiver} {t t' : Trail} {f : Code.Function}
      (hkind : node.kind = .methodDeclaration) (hrecord : c.symbols.requireMethod node = .ok record)
      (hresult : f.result = record.result)
      (hrun : (methodBody node record r).runAt c t = (.ok f.body, t')) : Declares c node f
  | constructor {structType : String} {r : Receiver} {fields : List DeclaredField}
      {typeParams : List String} {t t' : Trail} {f : Code.Function}
      (hkind : node.kind = .constructorDeclaration) (hself : r.kind ≠ .abstractDefault)
      (hrun : (Lower.constructor node structType r fields typeParams).runAt c t = (.ok f, t')) :
      Declares c node f
  | compact {shape : RecordShape} {body : Node} {ss : List Stmt} {t t' : Trail} {f : Code.Function}
      (hkind : node.kind = .compactConstructorDeclaration)
      (hbody : node.fieldChild? "body" = some body)
      (hrun : (withReceiver shape.receiver <| withTypeParams shape.typeParams <|
        withFunctionScope shape.componentNames (some { type := some shape.structType })
          (block body)).runAt c t = (.ok ss, t'))
      (hf : f.body = newValue shape.structType :: ss ++ shape.storeComponents ++ [returnSelf])
      (hresult : f.result = some shape.structType) : Declares c node f

lemma exists_methodBody (hrun : (method node r param exports).runAt c t = (.ok f, t')) :
    ∃ record r' t₁ t₂, c.symbols.requireMethod node = .ok record ∧ f.result = record.result
      ∧ (methodBody node record r').runAt c t₁ = (.ok f.body, t₂) := by
  simp only [method, runAt_bind_eq_ok, runAt_lift_eq_ok] at hrun
  obtain ⟨s, t₁, ⟨⟩, record, t₂, ⟨hrecord, -⟩, hrun⟩ := hrun
  split at hrun
  · simp only [staticMethod, runAt_bind_eq_ok] at hrun
    obtain ⟨body, t₃, hbody, comments, t₄, -, ⟨⟩⟩ := hrun
    exact ⟨record, _, _, _, hrecord, rfl, hbody⟩
  · unfold instanceMethod at hrun
    split at hrun
    · cases hrun
    · simp only [runAt_bind_eq_ok] at hrun
      obtain ⟨body, t₃, hbody, comments, t₄, -, ⟨⟩⟩ := hrun
      exact ⟨record, _, _, _, hrecord, rfl, hbody⟩

lemma faults_constructor (hself : r.kind ≠ .abstractDefault)
    (hrun : (constructor node structType r fields typeParams).runAt c t = (.ok f, t')) :
    ∃ body, node.fieldChild? "body" = some body ∧ f.result = some structType
      ∧ (Demand.results 1).faults f.body
        = (Part.outsideTry c.symbols body).countP Node.isBareReturn := by
  obtain ⟨params, body, ss, rest, t₁, t₂, t₃, -, hbody, hpreamble, hrest, hf, hresult⟩ :=
    exists_of_runAt_constructor hrun
  have hnone := faults_constructorPreamble hpreamble
  have hreturns := faults_eq_bareReturns hrest rfl hself rfl
  have hone : (constructorContext c structType r typeParams).setting.results = 1 := rfl
  rw [hone] at hnone hreturns
  refine ⟨body, Node.fieldChild?_of_require hbody, hresult, ?_⟩
  rw [hf, Demand.faults_append, Demand.faults_append, hnone, hreturns, Nat.zero_add]
  rfl

lemma faults_storeComponents (shape : RecordShape) (count : Nat) :
    (Demand.results count).faults shape.storeComponents = 0 := by
  unfold RecordShape.storeComponents
  induction shape.parts with
  | nil => rfl
  | cons part parts ih => simpa [Demand.faults, Demand.breaks] using ih

lemma faults_compact {shape : RecordShape}
    (hrun : (withReceiver shape.receiver <| withTypeParams shape.typeParams <|
      withFunctionScope shape.componentNames (some { type := some shape.structType })
        (block body)).runAt c t = (.ok ss, t')) :
    (Demand.results 1).faults
        (newValue shape.structType :: ss ++ shape.storeComponents ++ [returnSelf])
      = (Part.outsideTry c.symbols body).countP Node.isBareReturn := by
  obtain ⟨t₁, hblock⟩ := exists_of_runAt_withFunctionScope
    (c := { c with
      receiver := shape.receiver, typeParams := shape.typeParams :: c.typeParams }) hrun
  have hself : shape.receiver.kind ≠ .abstractDefault := fun h => nomatch h
  have hreturns := faults_eq_bareReturns hblock rfl hself rfl
  have hnew : (Demand.results 1).faults [newValue shape.structType] = 0 := rfl
  rw [Demand.faults_append, Demand.faults_append, faults_storeComponents, ← singleton_append,
    Demand.faults_append, hnew, Nat.zero_add]
  exact hreturns

end Lower

/-- For every method and every constructor of a unit that is lowered, and whose returns have a
value exactly when its return type is not `void`, and never in a constructor: the function has a
result for the value, which a constructor always has, and one for the error of a throws clause; and
each return of it outside of a try has as many values, but in a constructor only when none is
reached there. -/
theorem returns_match_results {unit : CompilationUnit} {mode : Mode}
    (hnumbers : unit.root.DistinctNumbers)
    (hsymbols : c.symbols = (analyze mode unit [] {}).2.symbols) (hnode : node ∈ unit.root.walk)
    (h : Lower.Declares c node f)
    (hreturns : ∀ body, node.fieldChild? "body" = some body →
      ∀ n ∈ Part.outsideTry c.symbols body, n.kind = .returnStatement →
        (n.operands ≠ [] ↔ node.kind = .methodDeclaration ∧ node.returnsValue = true)) :
    ∃ type throws, f.result = Analysis.foldThrows type throws
      ∧ (type.isSome = true ↔ (node.kind = .methodDeclaration → node.returnsValue = true))
      ∧ (throws = true
          ↔ node.kind = .methodDeclaration ∧ (node.childOfKind? .throws).isSome = true)
      ∧ ((∀ values, .ret values ∈ Stmt.walkAll false f.body →
            values.length = type.isSome.toNat + throws.toNat)
          ↔ (node.kind ≠ .methodDeclaration → ∀ body, node.fieldChild? "body" = some body →
            ∀ n ∈ Part.outsideTry c.symbols body, n.kind ≠ .returnStatement)) := by
  have hdescribes := describes_analyze mode unit
  rw [← hsymbols] at hdescribes
  have hmethod : ∀ {record r t t'}, node.kind = .methodDeclaration →
      c.symbols.requireMethod node = .ok record →
      (Lower.methodBody node record r).runAt c t = (.ok f.body, t') →
      record.result = Analysis.foldThrows record.valueType record.throws
        ∧ record.valueType.isSome = node.returnsValue
        ∧ record.throws = (node.childOfKind? .throws).isSome
        ∧ (Demand.results (record.valueType.isSome.toNat + record.throws.toNat)).Met f.body := by
    intro record r t t' hkind hrecord hrun
    obtain ⟨hfold, source, hsource, hid, hvalue, hthrows⟩ :=
      hdescribes node.id record (Symbols.find?_of_recorded hrecord)
    cases hnumbers.eq_of_id hsource hnode hid
    refine ⟨hfold, hvalue, hthrows, Demand.met_iff.2 (Lower.faults_methodBody ?_ hrun)⟩
    simpa [hkind, hvalue] using hreturns
  have hconstructor : ∀ {body}, node.kind ≠ .methodDeclaration →
      node.fieldChild? "body" = some body →
      (Demand.results 1).faults f.body = (Part.outsideTry c.symbols body).countP Node.isBareReturn →
      ((∀ values, .ret values ∈ Stmt.walkAll false f.body → values.length = 1)
        ↔ (node.kind ≠ .methodDeclaration → ∀ body, node.fieldChild? "body" = some body →
          ∀ n ∈ Part.outsideTry c.symbols body, n.kind ≠ .returnStatement)) := by
    intro body hkind hbody hfaults
    rw [← Demand.results_met_iff, Demand.met_iff, hfaults, List.countP_eq_zero]
    refine ⟨fun h _ body' hbody' n hn hreturn => ?_, fun h n hn hbare => ?_⟩
    · cases hbody.symm.trans hbody'
      have hnone : n.operands = [] := by
        simpa [hkind] using hreturns body hbody n hn hreturn
      exact h n hn (decide_eq_true ⟨hreturn, hnone⟩)
    · exact h hkind body hbody n hn (of_decide_eq_true hbare).1
  cases h with
  | method hkind hrun =>
    obtain ⟨record, r, t, t', hrecord, hresult, hbody⟩ := Lower.exists_methodBody hrun
    obtain ⟨hfold, hvalue, hthrows, hmet⟩ := hmethod hkind hrecord hbody
    exact ⟨record.valueType, record.throws, hresult.trans hfold, by simp [hvalue, hkind],
      by simp [hthrows, hkind],
      iff_of_true (Demand.results_met_iff.1 hmet) fun h => absurd hkind h⟩
  | default hkind hrecord hresult hrun =>
    obtain ⟨hfold, hvalue, hthrows, hmet⟩ := hmethod hkind hrecord hrun
    exact ⟨_, _, hresult.trans hfold, by simp [hvalue, hkind], by simp [hthrows, hkind],
      iff_of_true (Demand.results_met_iff.1 hmet) fun h => absurd hkind h⟩
  | constructor hkind hself hrun =>
    obtain ⟨body, hbody, hresult, hfaults⟩ := Lower.faults_constructor hself hrun
    exact ⟨some _, false, hresult, by simp [hkind], by simp [hkind],
      hconstructor (by simp [hkind]) hbody hfaults⟩
  | compact hkind hbody hrun hf hresult =>
    exact ⟨some _, false, hresult, by simp [hkind], by simp [hkind],
      hconstructor (by simp [hkind]) hbody (hf ▸ Lower.faults_compact hrun)⟩

end

/-- The statement `if (x) return …;`. -/
def branchReturn (number : Nat) (values : List Node) : Node :=
  .tree number .ifStatement
    [.plain (number + 1) .identifier (some "condition") "x" [],
     .plain (number + 2) .returnStatement (some "consequence") "" values]

/-- The method `int f() throws … { if (x) return 1; return 2; }`. -/
def returningMethod : Node :=
  .tree 10 .methodDeclaration
    [.intType 11,
     .called 12 "f",
     .parameterList 13 [],
     .tree 14 .throws [],
     .body 15
       [branchReturn 20 [.leaf 23 .decimalInteger "1"],
        .tree 16 .returnStatement [.leaf 17 .decimalInteger "2"]]]

/-- The constructor `A() { if (x) return; }`. -/
def returningConstructor : Node :=
  .tree 30 .constructorDeclaration
    [.called 31 "A",
     .parameterList 32 [],
     .plain 33 (.other "constructor_body") (some "body") "" [branchReturn 40 []]]

def returningUnit : CompilationUnit :=
  .ofTypes
    [.plainClass 1 [] "A" [] [returningMethod, returningConstructor]]

def returningContext : Context :=
  .ofUnit returningUnit (analyze .tolerant returningUnit [] {}).2.symbols

lemma Lower.exists_of_toOption {α β : Type} {x : Lower α} {c : Context} {t : Trail} {g : α → β}
    {v : β} (h : (x.runAt c t).1.toOption.map g = some v) :
    ∃ a t', x.runAt c t = (.ok a, t') ∧ g a = v := by
  rcases hrun : x.runAt c t with ⟨outcome, t'⟩
  rw [hrun] at h
  cases outcome with
  | error => cases h
  | ok a => exact ⟨a, t', rfl, Option.some.inj h⟩

/-- Every return of `f` has a value and an error. -/
theorem returns_match_results_of_branch :
    returningUnit.root.DistinctNumbers ∧ returningMethod ∈ returningUnit.root.walk
      ∧ ∃ f, Lower.Declares returningContext returningMethod f ∧ f.result = some "(int, error)"
        ∧ ∀ values, .ret values ∈ Stmt.walkAll false f.body → values.length = 2 := by
  have hnumbers : returningUnit.root.DistinctNumbers := by decide +kernel
  have hnode : returningMethod ∈ returningUnit.root.walk :=
    List.mem_of_getElem? (show returningUnit.root.walk[4]? = some returningMethod from rfl)
  have hok : ((Lower.method returningMethod {} none false).runAt returningContext {}).1.toOption.map
      Code.Function.result = some (some "(int, error)") := by decide +kernel
  obtain ⟨f, t', hrun, hresult⟩ := Lower.exists_of_toOption hok
  have hreturns : ∀ body, returningMethod.fieldChild? "body" = some body →
      ∀ n ∈ Part.outsideTry returningContext.symbols body, n.kind = .returnStatement →
        (n.operands ≠ []
          ↔ returningMethod.kind = .methodDeclaration ∧ returningMethod.returnsValue = true) := by
    intro body hbody
    cases hbody
    decide +kernel
  have hdeclares : Lower.Declares returningContext returningMethod f := .method rfl hrun
  have hsymbols :
      returningContext.symbols = (analyze .tolerant returningUnit [] {}).2.symbols := rfl
  obtain ⟨type, throws, -, htype, hthrows, hiff⟩ :=
    returns_match_results hnumbers hsymbols hnode hdeclares hreturns
  refine ⟨hnumbers, hnode, f, hdeclares, hresult, ?_⟩
  have hone : type.isSome = true := htype.2 fun _ => by decide
  have hthrows : throws = true := hthrows.2 ⟨rfl, by decide⟩
  rw [hone, hthrows] at hiff
  exact hiff.2 fun h => absurd rfl h

/-- The function of the constructor `A` has a result, and a return in it has no value. -/
theorem constructor_returns_nothing :
    returningUnit.root.DistinctNumbers ∧ returningConstructor ∈ returningUnit.root.walk
      ∧ (∀ n ∈ returningConstructor.walk, n.kind = .returnStatement → n.operands = [])
      ∧ ∃ f, Lower.Declares returningContext returningConstructor f ∧ f.result = some "a"
        ∧ ¬∀ values, .ret values ∈ Stmt.walkAll false f.body → values.length = 1 := by
  have hfields : DeclaredField.byName (instanceFields []) = [] := List.mergeSort_nil
  have hok : ((Lower.constructor returningConstructor "a" { kind := .method } [] []).runAt
      returningContext {}).1.toOption.map (fun f => (f.result, (Demand.results 1).faults f.body))
        = some (some "a", 1) := by
    unfold Lower.constructor Lower.constructorPreamble
    simp only [hfields]
    decide +kernel
  obtain ⟨f, t', hrun, hf⟩ := Lower.exists_of_toOption hok
  obtain ⟨hresult, hfaults⟩ := Prod.mk.inj hf
  refine ⟨by decide +kernel, List.mem_of_getElem? (show returningUnit.root.walk[16]? = some
    returningConstructor from rfl), by decide +kernel, f, .constructor rfl (by decide) hrun,
    hresult, ?_⟩
  rw [← Demand.results_met_iff, Demand.met_iff, hfaults]
  decide

end JavaToGo
