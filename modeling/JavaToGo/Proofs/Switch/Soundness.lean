import JavaToGo.Proofs.Switch.Clauses

/-!
# Soundness of switches
-/

namespace JavaToGo.Switching

open List Lower

section

variable {V W α β : Type} {f : V → W} {g : α → β} (body : List α)

def Clause.map (f : V → W) (g : α → β) (clause : Clause V α) : Clause W β where
  toArm := clause.toArm.map f g
  fallsThrough := clause.fallsThrough

lemma any_getLast?_map (p : β → Bool) :
    (body.map g).getLast?.any p = body.getLast?.any (p ∘ g) := by
  rw [getLast?_map, Option.any_map]
  rfl

lemma withoutBreak_map (isBreak : β → Bool) :
    withoutBreak isBreak (body.map g) = (withoutBreak (isBreak ∘ g) body).map g := by
  unfold withoutBreak
  rw [any_getLast?_map]
  split
  · rw [map_dropLast]
  · rfl

lemma clauseOf_map {jumps isBreak : β → Bool} (values : List V) (isDefault : Bool) (isLast : Bool) :
    (clauseOf form (jumps ∘ g) (isBreak ∘ g) values isDefault body isLast).map f g
      = clauseOf form jumps isBreak (values.map f) isDefault (body.map g) isLast := by
  simp only [clauseOf, any_getLast?_map, withoutBreak_map]
  cases isDefault <;> cases form <;> rfl

lemma clausesOf_map (jumps isBreak : β → Bool) (waiting : List V) (waitingDefault : Bool)
    (arms : List (Arm V α)) :
    (clausesOf form (jumps ∘ g) (isBreak ∘ g) waiting waitingDefault arms).map (Clause.map f g)
      = clausesOf form jumps isBreak (waiting.map f) waitingDefault (arms.map (Arm.map f g)) := by
  induction arms generalizing waiting waitingDefault with
  | nil => rfl
  | cons arm arms ih =>
    have hon : handsOn form (arm.map f g) (arms.map (Arm.map f g)) = handsOn form arm arms := by
      simp only [handsOn, Arm.map, isEmpty_map]
    have hvalues : (arm.map f g).values = arm.values.map f := rfl
    have hdefault : (arm.map f g).isDefault = arm.isDefault := rfl
    have hbody : (arm.map f g).body = arm.body.map g := rfl
    rw [map_cons, clausesOf, clausesOf, hon, hvalues, hdefault, hbody, ← map_append]
    split
    · exact ih _ _
    · rw [map_cons, clauseOf_map, ih, isEmpty_map, map_nil]

end

section

variable {α β S J : Type}

def Run.outcome (r : Run α S J) : S × Completion J :=
  (r.state, r.completion)

lemma outcome_andThen {r : Run α S J} {r' : Run β S J} {next : S → Run α S J}
    {next' : S → Run β S J} (h : r.outcome = r'.outcome)
    (hnext : ∀ s, (next s).outcome = (next' s).outcome) :
    (r.andThen next).outcome = (r'.andThen next').outcome := by
  obtain ⟨hstate, hcompletion⟩ := Prod.mk.inj h
  by_cases hr : r.completion = .normal
  · have hr' : r'.completion = .normal := hcompletion ▸ hr
    rw [Run.andThen_of_normal hr, Run.andThen_of_normal hr', hstate]
    exact hnext r'.state
  · have hr' : r'.completion ≠ .normal := hcompletion ▸ hr
    rw [Run.andThen_of_ne hr, Run.andThen_of_ne hr', h]

lemma outcome_leave {r : Run α S J} {r' : Run β S J} (h : r.outcome = r'.outcome) :
    r.leave.outcome = r'.leave.outcome := by
  obtain ⟨hstate, hcompletion⟩ := Prod.mk.inj h
  simp only [Run.leave, Run.outcome, hstate, hcompletion]

lemma outcome_seen_leave (isBreak : α → Bool) (r : Run α S J) :
    (r.leave.seen isBreak).outcome = r.leave.outcome := by
  obtain ⟨executed, state, completion⟩ := r
  cases completion <;> rfl

lemma outcome_runAll_flatMap {run : β → S → S × Completion J} {exec : α → S → S × Completion J}
    {γ : Type} {origin : γ → β} {code : γ → List α} {pieces : List γ}
    (h : ∀ piece ∈ pieces, ∀ s, (runAll exec (code piece) s).outcome = run (origin piece) s)
    (s : S) :
    (runAll exec (pieces.flatMap code) s).outcome = (runAll run (pieces.map origin) s).outcome := by
  induction pieces generalizing s with
  | nil => rfl
  | cons piece pieces ih =>
    rw [flatMap_cons, runAll_append]
    exact outcome_andThen (h piece mem_cons_self s)
      (ih fun piece hpiece => h piece (mem_cons_of_mem _ hpiece))

lemma entered_map (f : α → β) (p d : β → Bool) (branches : List α) :
    entered p d (branches.map f)
      = (entered (fun b => p (f b)) (fun b => d (f b)) branches).map f := by
  rw [entered, entered, any_map, dropWhile_map, dropWhile_map, apply_ite (List.map f)]
  rfl

lemma mem_of_mem_entered {p d : α → Bool} (h : b ∈ entered p d branches) : b ∈ branches := by
  unfold entered at h
  split at h
  · exact (dropWhile_suffix _).subset h
  · exact (dropWhile_suffix _).subset h

lemma entered_congr {p p' d d' : α → Bool} (hp : ∀ b ∈ branches, p b = p' b)
    (hd : ∀ b ∈ branches, d b = d' b) : entered p d branches = entered p' d' branches := by
  have hdrop : ∀ {q q' : α → Bool} {bs : List α}, (∀ b ∈ bs, q b = q' b) →
      bs.dropWhile (fun b => !q b) = bs.dropWhile fun b => !q' b := by
    intro q q' bs hq
    induction bs with
    | nil => rfl
    | cons b bs ih =>
      rw [dropWhile_cons, dropWhile_cons, hq b mem_cons_self,
        ih fun b hb => hq b (mem_cons_of_mem _ hb)]
  have hany : branches.any p = branches.any p' := by
    rw [Bool.eq_iff_iff, any_eq_true, any_eq_true]
    exact exists_congr fun b => and_congr_right fun hb => by rw [hp b hb]
  rw [entered, entered, hany, hdrop hp, hdrop hd]

end

section

/-- What labels and statements do in Java and in Go. -/
structure Meaning (V S J : Type) where
  javaValue : Node → V
  goValue : Expr → V
  run : Node → S → S × Completion J
  exec : Stmt → S → S × Completion J

variable {V S J : Type}

namespace Meaning

variable (m : Meaning V S J)

def javaArms (arms : List Node) : List (Arm V Node) :=
  arms.map fun arm => (armOf arm).map m.javaValue id

def goClause : SwitchClause → Clause V Stmt
  | .mk values body fallsThrough isDefault =>
    ⟨⟨values.map m.goValue, isDefault, body⟩, fallsThrough⟩

/-- A clause of a generated switch, with the statements that its code comes from. -/
def originClause : Clause Label Piece → Clause V Node :=
  Clause.map (m.javaValue ∘ Label.node) Piece.node

/-- Labels and statements do in the clauses what they do in Java, and jumps do not complete
normally. -/
structure Agrees (clauses : List (Clause Label Piece)) : Prop where
  values : ∀ clause ∈ clauses, ∀ label ∈ clause.values,
    m.goValue label.value = m.javaValue label.node
  bodies : ∀ clause ∈ clauses, ∀ piece ∈ clause.body, ∀ s,
    (runAll m.exec piece.code s).outcome = m.run piece.node s
  jumps : ∀ node : Node, Lower.isJump node.kind → ∀ s, (m.run node s).2 ≠ .normal
  breaks : ∀ node : Node, Lower.isPlainBreak node → ∀ s, m.run node s = (s, .breaks)

variable {m} {clauses : List (Clause Label Piece)}

lemma Agrees.obeyed (h : m.Agrees clauses) :
    Obeyed (fun node => isJump node.kind) isPlainBreak m.run where
  jumps_of_isBreak node hbreak := by
    rw [kind_of_isPlainBreak hbreak]
    rfl
  ne_normal := h.jumps
  breaks := h.breaks

lemma outcome_runClauses (h : ∀ clause ∈ clauses, ∀ piece ∈ clause.body, ∀ s,
      (runAll m.exec piece.code s).outcome = m.run piece.node s) (s : S) :
    (runClauses m.exec (clauses.map fun clause => m.goClause clause.code) s).outcome
      = (runClauses m.run (clauses.map m.originClause) s).outcome := by
  induction clauses generalizing s with
  | nil => rfl
  | cons clause clauses ih =>
    have hbody : ∀ s, (runAll m.exec (clause.body.flatMap Piece.code) s).outcome
        = (runAll m.run (clause.body.map Piece.node) s).outcome :=
      outcome_runAll_flatMap (h clause mem_cons_self)
    have hrest := ih fun clause hclause => h clause (mem_cons_of_mem _ hclause)
    change (if clause.fallsThrough then (runAll m.exec (clause.body.flatMap Piece.code) s).andThen
          (runClauses m.exec (clauses.map fun clause => m.goClause clause.code))
        else runAll m.exec (clause.body.flatMap Piece.code) s).outcome
      = (if clause.fallsThrough then (runAll m.run (clause.body.map Piece.node) s).andThen
          (runClauses m.run (clauses.map m.originClause))
        else runAll m.run (clause.body.map Piece.node) s).outcome
    split
    · exact outcome_andThen (hbody s) hrest
    · exact hbody s

lemma javaArms_eq {nodes : List Node} {arms : List (Arm Label Piece)}
    (harms : arms.map (Arm.map Label.node Piece.node) = nodes.map armOf) :
    m.javaArms nodes = arms.map (Arm.map (m.javaValue ∘ Label.node) Piece.node) := by
  have hmap := congrArg (List.map (Arm.map m.javaValue id)) harms
  rw [map_map, map_map] at hmap
  refine hmap.symm.trans (map_congr_left fun arm _ => ?_)
  simp [Arm.map]

lemma map_originClause {nodes : List Node} {arms : List (Arm Label Piece)}
    (harms : arms.map (Arm.map Label.node Piece.node) = nodes.map armOf) :
    (clausesOf form Piece.jumps Piece.isBreak [] false arms).map m.originClause
      = clausesOf form (fun node => isJump node.kind) isPlainBreak [] false (m.javaArms nodes) := by
  rw [javaArms_eq harms]
  exact clausesOf_map (g := Piece.node) (fun node => isJump node.kind) isPlainBreak [] false arms

variable [DecidableEq V]

lemma Agrees.outcome_goSwitch (h : m.Agrees clauses) (v : V) (s : S) :
    (goSwitch m.exec (clauses.map fun clause => m.goClause clause.code) v s).outcome
      = (goSwitch m.run (clauses.map m.originClause) v s).outcome := by
  have hvalue : ∀ clause ∈ clauses, (m.goClause clause.code).has v
      = (m.originClause clause).has v := by
    intro clause hclause
    have hvalues : (clause.values.map Label.value).map m.goValue
        = clause.values.map (m.javaValue ∘ Label.node) := by
      rw [map_map]
      exact map_congr_left (h.values clause hclause)
    change decide (v ∈ (clause.values.map Label.value).map m.goValue)
      = decide (v ∈ clause.values.map (m.javaValue ∘ Label.node))
    rw [hvalues]
  have hdefault : ∀ clause ∈ clauses, (m.goClause clause.code).isDefault
      = (m.originClause clause).isDefault := fun _ _ => rfl
  refine outcome_leave ?_
  rw [enteredClauses, enteredClauses, entered_map, entered_map]
  rw [entered_congr hvalue hdefault]
  refine outcome_runClauses ?_ s
  exact fun clause hclause => h.bodies clause (mem_of_mem_entered hclause)

end Meaning

end

section

variable {V α : Type} {jumps isBreak : α → Bool}

lemma mem_of_mem_body (hclause : clause ∈ clausesOf form jumps isBreak waiting waitingDefault arms)
    (ha : a ∈ clause.body) : a ∈ arms.flatMap Arm.body := by
  induction arms generalizing waiting waitingDefault with
  | nil => cases hclause
  | cons arm arms ih =>
    rw [flatMap_cons, mem_append]
    rw [clausesOf] at hclause
    split at hclause
    next => exact .inr (ih hclause)
    next =>
      rcases mem_cons.1 hclause with rfl | hclause
      · refine .inl ?_
        simp only [clauseOf, withoutBreak] at ha
        split at ha
        · split at ha
          · exact dropLast_subset _ ha
          · exact ha
        · exact ha
      · exact .inr (ih hclause)

end

/-- Each clause comes from an arm and is entered and left as the arm is. -/
structure KeepsControl (height : Nat) (form : Form) (c : Context) (arms : List Node)
    (clauses : List (Clause Label Piece)) : Prop where
  values : ∀ clause ∈ clauses, ∀ label ∈ clause.values,
    (Lower.labelValue label.node).Makes c label.value
  bodies : ∀ clause ∈ clauses, ∀ piece ∈ clause.body,
    (lowerPiece (Lower.statementWithin height) form piece.node).Makes c piece.code
  last : ∀ clause, clauses.getLast? = some clause → clause.fallsThrough = false
  defaults : clauses.countP (fun clause => clause.isDefault) ≤ 1
  /-- For every value the same statements are executed, breaks aside. -/
  executed : ∀ (V S J : Type) [DecidableEq V] (m : Meaning V S J), m.Agrees clauses →
    ((m.javaArms arms).flatMap Arm.values).Nodup → ∀ v s,
      (goSwitch m.run (clauses.map m.originClause) v s).seen Lower.isPlainBreak
        = (javaSwitch m.run form (m.javaArms arms) v s).seen Lower.isPlainBreak
  /-- For every value the generated switch ends in the same state in the same way. -/
  outcome : ∀ (V S J : Type) [DecidableEq V] (m : Meaning V S J), m.Agrees clauses →
    ((m.javaArms arms).flatMap Arm.values).Nodup → ∀ v s,
      (goSwitch m.exec ((clauses.map Clause.code).map m.goClause) v s).outcome
        = (javaSwitch m.run form (m.javaArms arms) v s).outcome

/-- A switch that is lowered keeps its control flow. -/
theorem switchWith_keepsControl {node body : Node} (hbody : node.fieldChild? "body" = some body)
    {form : Form} (hform : ∀ arm ∈ body.operands, arm.kind = form.kind)
    (hdefaults : (body.operands.map armOf).countP Arm.isDefault ≤ 1)
    {height : Nat} {c : Context} {t t' : Trail} {stmts : List Stmt}
    (hrun : (Lower.switchWith (Lower.statementWithin height) node).runAt c t = (.ok stmts, t')) :
    ∃ before value clauses,
      stmts = before ++ [.switch (some value) (clauses.map Clause.code)] ∧
      KeepsControl height form c body.operands clauses := by
  obtain ⟨value, t₁, -, hrun⟩ := Lower.exists_of_bind hrun
  obtain ⟨found, t₂, hfound, hrun⟩ := Lower.exists_of_bind hrun
  rw [Lower.runAt_lift, Tree.Node.require_of_fieldChild? hbody] at hfound
  cases hfound
  obtain ⟨emitted, t₃, hemitted, hrun⟩ := Lower.exists_of_bind hrun
  cases hrun
  have hstart : ([] : List Label).map Label.value = ({} : Lower.Labels).values := rfl
  obtain ⟨arms, harms, hmade, rfl⟩ := exists_arms_of_switchClauses
    (breaksAlone_statementWithin height) hform hstart hemitted
  have hcount : arms.countP Arm.isDefault ≤ 1 := by
    rw [← harms, List.countP_map] at hdefaults
    exact hdefaults
  have hseen : ∀ (V S J : Type) [DecidableEq V] (m : Meaning V S J),
      m.Agrees (clausesOf form Piece.jumps Piece.isBreak [] false arms) →
      ((m.javaArms body.operands).flatMap Arm.values).Nodup → ∀ v s,
        (goSwitch m.run ((clausesOf form Piece.jumps Piece.isBreak [] false arms).map
            m.originClause) v s).seen Lower.isPlainBreak
          = (javaSwitch m.run form (m.javaArms body.operands) v s).seen Lower.isPlainBreak := by
    intro V S J _ m hagrees hnodup v s
    have hcount' : (m.javaArms body.operands).countP Arm.isDefault ≤ 1 := by
      rw [Meaning.javaArms_eq harms, List.countP_map]
      exact hcount
    rw [Meaning.map_originClause harms]
    exact seen_goSwitch form hagrees.obeyed hnodup hcount' v s
  refine ⟨value.before, value.value, _, rfl, ?_, ?_, ?_, ?_, hseen, ?_⟩
  · intro clause hclause label hlabel
    obtain ⟨arm, harm, hmem⟩ := List.mem_flatMap.1 (mem_of_mem_values hclause hlabel)
    exact (hmade arm harm).values label hmem
  · intro clause hclause piece hpiece
    obtain ⟨arm, harm, hmem⟩ := List.mem_flatMap.1 (mem_of_mem_body hclause hpiece)
    exact (hmade arm harm).body piece hmem
  · exact fun clause hlast => fallsThrough_getLast? hlast
  · refine Nat.le_trans (countP_isDefault_le [] false arms) ?_
    rwa [Bool.toNat_false, Nat.zero_add]
  · intro V S J _ m hagrees hnodup v s
    have houtcome := congrArg Run.outcome (hseen V S J m hagrees hnodup v s)
    rw [goSwitch, javaSwitch, outcome_seen_leave, outcome_seen_leave] at houtcome
    rw [List.map_map]
    exact (hagrees.outcome_goSwitch v s).trans houtcome

def plainGroup (values statements : List Node) : Node :=
  .tree 0 .switchBlockStatementGroup (.tree 0 .switchLabel values :: statements)

/-- An update of `i`. -/
def updateStatement (sign : Kind) : Node :=
  .tree 0 .expressionStatement
    [.tree 0 .update [.leaf 0 .identifier "i", .tree 0 sign []]]

/-- The body `case 1: default: i++; case 3: i--; break;`. -/
def countingBody : Node :=
  .plain 0 (.other "switch_block") (some "body") ""
    [plainGroup [.leaf 0 .decimalInteger "1"] [],
     plainGroup [] [updateStatement .increment],
     plainGroup [.leaf 0 .decimalInteger "3"]
       [updateStatement .decrement, .leaf 0 .breakStatement "break;"]]

/-- The switch on `i` with that body. -/
def countingSwitch : Node :=
  .tree 0 .switchExpression
    [.plain 0 .parenthesized (some "condition") "" [.leaf 0 .identifier "i"], countingBody]

/-- The default takes the label that waits for it and falls through, so one and two count up and
down, and three counts down. -/
theorem countingSwitch_keepsControl :
    ∃ before value clauses,
      ((Lower.switchWith (Lower.statementWithin 3) countingSwitch).runAt default {}).1
        = .ok (before ++ [.switch (some value) (clauses.map Clause.code)]) ∧
      KeepsControl 3 .groups default countingBody.operands clauses := by
  have hrun : ∃ stmts t', (Lower.switchWith (Lower.statementWithin 3) countingSwitch).runAt
      default {} = (.ok stmts, t') := ⟨_, _, rfl⟩
  have hform : ∀ arm ∈ countingBody.operands, arm.kind = Form.groups.kind := by decide
  obtain ⟨stmts, t', hrun⟩ := hrun
  obtain ⟨before, value, clauses, rfl, hkeeps⟩ :=
    switchWith_keepsControl rfl hform (by decide) hrun
  exact ⟨before, value, clauses, congrArg Prod.fst hrun, hkeeps⟩

end JavaToGo.Switching
