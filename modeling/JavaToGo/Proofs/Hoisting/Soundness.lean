import JavaToGo.Proofs.Hoisting.Generated
import JavaToGo.Proofs.Lowering.Result

/-!
# Soundness of hoisting

Assignments and updates that are used as values run before the expression.
-/

namespace JavaToGo

open JavaToGo.Tree (Kind Node)
open List Lower Code

namespace Hoisting

def integerKinds : List Kind :=
  [.decimalInteger, .hexInteger, .octalInteger, .binaryInteger]

/-- A tree is an expression over local variables. -/
inductive Expresses : Node → LocalExpr → Prop
  | var {node : Node} (hkind : node.kind = .identifier) : Expresses node (.var node.text)
  | int {node : Node} {literal : IntLiteral} (hkind : node.kind ∈ integerKinds)
      (htext : node.text = literal.text) : Expresses node (.int literal)
  | true {node : Node} (hkind : node.kind = .trueLiteral) : Expresses node (.bool true)
  | false {node : Node} (hkind : node.kind = .falseLiteral) : Expresses node (.bool false)
  | parenthesized {node inner : Node} {e : LocalExpr} (hkind : node.kind = .parenthesized)
      (hinner : node.operands = [inner]) (he : Expresses inner e) : Expresses node e
  | unary {node operand sign : Node} {op : UnaryOp} {e : LocalExpr} (hkind : node.kind = .unary)
      (hoperand : node.fieldChild? "operand" = some operand)
      (hsign : node.fieldChild? "operator" = some sign) (hop : sign.text = op.symbol)
      (he : Expresses operand e) : Expresses node (.unary op e)
  | strict {node left right sign : Node} {op : StrictOp} {l r : LocalExpr}
      (hkind : node.kind = .binary) (hleft : node.fieldChild? "left" = some left)
      (hright : node.fieldChild? "right" = some right)
      (hsign : node.fieldChild? "operator" = some sign) (hop : sign.text = op.symbol)
      (hl : Expresses left l) (hr : Expresses right r) : Expresses node (.strict op l r)
  | and {node left right sign : Node} {l r : LocalExpr}
      (hkind : node.kind = .binary) (hleft : node.fieldChild? "left" = some left)
      (hright : node.fieldChild? "right" = some right)
      (hsign : node.fieldChild? "operator" = some sign) (hop : sign.text = "&&")
      (hl : Expresses left l) (hr : Expresses right r) : Expresses node (.and l r)
  | or {node left right sign : Node} {l r : LocalExpr}
      (hkind : node.kind = .binary) (hleft : node.fieldChild? "left" = some left)
      (hright : node.fieldChild? "right" = some right)
      (hsign : node.fieldChild? "operator" = some sign) (hop : sign.text = "||")
      (hl : Expresses left l) (hr : Expresses right r) : Expresses node (.or l r)
  | assign {node left right sign : Node} {x : String} {e : LocalExpr}
      (hkind : node.kind = .assignment) (hleft : node.fieldChild? "left" = some left)
      (hright : node.fieldChild? "right" = some right)
      (hsign : node.fieldChild? "operator" = some sign) (hop : sign.text = "=")
      (hl : Expresses left (.var x)) (hr : Expresses right e) : Expresses node (.assign x e)
  | step {node operand sign : Node} {op : StepOp} {x : String} (hkind : node.kind = .update)
      (hparts : node.children.filter (fun child => !child.kind.isComment) = [sign, operand])
      (hsign : sign.kind = op.kind) (hnamed : operand.named)
      (he : Expresses operand (.var x)) : Expresses node (.step op x)

variable {x : String} {node sign : Node}

section

variable {t : Trail} {go : Node → Lower Lowered}

lemma returns_resolveName (hx : inScopes t.scopes x) :
    (resolveName x).Returns c t (.var (avoidReserved x)) := by
  refine .bind (returns_isLocal x) ?_
  rw [hx]
  exact .pure _

lemma returns_fieldSetter? (hnode : Expresses node (.var x)) (hx : inScopes t.scopes x) :
    (fieldSetter? node).Returns c t none := by
  have hfield : (assignedField node).Returns c t none := by
    unfold assignedField
    cases hnode with
    | var hkind =>
      rw [hkind]
      refine .bind (returns_isLocal node.text) ?_
      rw [hx]
      exact .pure none
    | parenthesized hkind =>
      rw [hkind]
      exact .pure none
  refine .bind returns_receiver ?_
  split
  · exact .bind hfield (.pure none)
  · exact .pure none

lemma returns_binaryExpression (hleft : node.fieldChild? "left" = some left)
    (hright : node.fieldChild? "right" = some right)
    (hsign : node.fieldChild? "operator" = some sign) (ha : (go left).Returns c t a)
    (hb : (go right).Returns c t b) :
    (binaryExpression go node).Returns c t
      ⟨.binary a.value (goOperator sign.text) b.value, a.before ++ b.before⟩ :=
  .bind (.lift (Node.require_of_fieldChild? hleft)) <| .bind ha <|
    .bind (.lift (Node.require_of_fieldChild? hright)) <| .bind hb <|
    .bind (.lift (Node.requireText_of_fieldChild? hsign)) <| .pure _

lemma returns_unaryExpression (hoperand : node.fieldChild? "operand" = some operand)
    (hsign : node.fieldChild? "operator" = some sign) (ha : (go operand).Returns c t a) :
    (unaryExpression go node).Returns c t
      (if sign.text = "+" then a else ⟨.unary (goOperator sign.text) a.value, a.before⟩) := by
  refine .bind (.lift (Node.require_of_fieldChild? hoperand)) <| .bind ha <|
    .bind (.lift (Node.requireText_of_fieldChild? hsign)) ?_
  split <;> exact .pure _

lemma returns_assignTo (value : Expr) (htarget : Expresses target (.var x))
    (hx : inScopes t.scopes x) (hplace : (go target).Returns c t place) :
    (assignTo go target value).Returns c t (place.before ++ [.assign place.value value]) :=
  .bind (returns_fieldSetter? htarget hx) <| .bind hplace <| .pure _

lemma returns_assignmentValue (hleft : node.fieldChild? "left" = some left)
    (hright : node.fieldChild? "right" = some right)
    (hsign : node.fieldChild? "operator" = some sign) (hop : sign.text = "=")
    (htarget : Expresses left (.var x)) (hx : inScopes t.scopes x)
    (hplace : (go left).Returns c t place) (ha : (go right).Returns c t a) :
    (assignmentValue go node).Returns c t
      ⟨place.value, a.before ++ (place.before ++ [.assign place.value a.value])
        ++ place.before⟩ := by
  have hstmts : (assignmentStmts go node).Returns c t
      (a.before ++ (place.before ++ [.assign place.value a.value])) := by
    refine .bind (.lift (Node.require_of_fieldChild? hleft)) <|
      .bind (.lift (Node.requireText_of_fieldChild? hsign)) <|
      .bind (.lift (Node.require_of_fieldChild? hright)) <| .bind ha ?_
    rw [if_pos hop]
    exact .bind (returns_assignTo a.value htarget hx hplace) <| .pure _
  exact .bind (.lift (Node.require_of_fieldChild? hleft)) <| .bind hstmts <| .bind hplace <| .pure _

lemma read_of_isComment (scan : Node.UpdateScan) {child : Node} (h : child.kind.isComment) :
    scan.read child = scan := by
  have hsign : (child.kind = .increment || child.kind = .decrement) = false := by
    cases hkind : child.kind
    all_goals simp_all [Kind.isComment]
  simp [Node.UpdateScan.read, hsign, h]

lemma kind_of_expresses_var (h : Expresses node (.var x)) :
    node.kind = .identifier ∨ node.kind = .parenthesized := by
  cases h with
  | var hkind => exact .inl hkind
  | parenthesized hkind => exact .inr hkind

lemma updateParts_of_children {op : StepOp}
    (hparts : node.children.filter (fun child => !child.kind.isComment) = [sign, operand])
    (hsign : sign.kind = op.kind) (hnamed : operand.named) (he : Expresses operand (.var x)) :
    node.updateParts = .ok (operand, op.symbol, true) := by
  have hread : Node.UpdateScan.read
      = fun scan child => if !child.kind.isComment then scan.read child else scan := by
    funext scan child
    cases hcomment : child.kind.isComment
    · rfl
    · exact read_of_isComment scan hcomment
  have hscan : node.children.foldl Node.UpdateScan.read {}
      = [sign, operand].foldl Node.UpdateScan.read {} := by
    rw [← hparts, foldl_filter, ← hread]
  have hfirst : Node.UpdateScan.read {} sign
      = { operator := some op.symbol, isPrefix := true } := by
    have hname : op.kind.name = op.symbol := by cases op <;> decide +kernel
    cases op <;> simpa [Node.UpdateScan.read, hsign, StepOp.kind] using hname
  have hsecond : ∀ scan : Node.UpdateScan,
      scan.read operand = { scan with operand := some operand } := by
    rcases kind_of_expresses_var he with hkind | hkind
    all_goals simp [Node.UpdateScan.read, hkind, hnamed, Kind.isComment]
  simp only [Node.updateParts, hscan, foldl_cons, hfirst, hsecond]
  rfl

lemma returns_updateValue (hparts : node.updateParts = .ok (operand, symbol, true))
    (htarget : Expresses operand (.var x)) (hx : inScopes t.scopes x)
    (hplace : (go operand).Returns c t place) :
    (updateValue go node).Returns c t
      ⟨place.value, place.before ++ [.step place.value symbol] ++ place.before⟩ := by
  have hstmts : (updateStmts go node).Returns c t (place.before ++ [.step place.value symbol]) :=
    .bind (.lift hparts) <| .bind (returns_fieldSetter? htarget hx) <| .bind hplace <| .pure _
  exact .bind (.lift hparts) <| .bind hstmts <| .bind hplace <| .pure _

lemma StrictOp.goOperator_symbol (op : StrictOp) : goOperator op.symbol = op.symbol := by
  cases op <;> decide

lemma UnaryOp.goOperator_symbol (op : UnaryOp) : goOperator op.symbol = op.symbol := by
  cases op <;> decide

lemma UnaryOp.symbol_eq_plus_iff (op : UnaryOp) : op.symbol = "+" ↔ op = .plus := by
  cases op <;> decide

lemma returns_expressionWithin_of_step (hheight : node.height ≤ height)
    (h : ∀ below, (∀ child ∈ node.children, child.height ≤ below) →
      (expressionStep (expressionWithin below) node).Returns c t a) :
    (expressionWithin height node).Returns c t a := by
  cases height with
  | zero =>
    obtain ⟨head, children⟩ := node
    rw [Node.height] at hheight
    omega
  | succ below =>
    refine h below fun child hchild => ?_
    have := Node.height_lt_of_mem_children hchild
    omega

lemma returns_expressionWithin (hnode : Expresses node e)
    (hlocal : ∀ x ∈ e.vars, inScopes t.scopes x) (hheight : node.height ≤ height) :
    (expressionWithin height node).Returns c t e.lowered := by
  induction hnode generalizing height with
    refine returns_expressionWithin_of_step hheight fun below hbelow => ?_
  | var hkind =>
    rw [expressionStep, hkind]
    exact .bind (returns_resolveName (hlocal _ mem_cons_self)) <| .pure _
  | int hkind htext =>
    rw [LocalExpr.lowered, ← htext]
    simp only [integerKinds, mem_cons, not_mem_nil, or_false] at hkind
    rcases hkind with hkind | hkind | hkind | hkind
    all_goals
      rw [expressionStep, hkind]
      exact .pure _
  | true hkind | false hkind =>
    rw [expressionStep, hkind]
    exact .pure _
  | @parenthesized node inner e hkind hinner he ih =>
    have hmem : inner ∈ node.operands := by simp [hinner]
    have hchild : inner ∈ node.children := (mem_filter.1 (mem_filter.1 hmem).1).1
    rw [expressionStep, hkind]
    simp only [parenthesizedExpression, hinner]
    exact ih hlocal (hbelow inner hchild)
  | @unary node operand sign op e hkind hoperand hsign hop he ih =>
    have ha := ih hlocal (hbelow operand (mem_of_find?_eq_some hoperand))
    have hrule := returns_unaryExpression hoperand hsign ha
    rw [hop, op.goOperator_symbol] at hrule
    simp only [op.symbol_eq_plus_iff] at hrule
    rw [expressionStep, hkind]
    exact hrule
  | strict hkind hleft hright hsign hop hl hr ihl ihr
  | and hkind hleft hright hsign hop hl hr ihl ihr
  | or hkind hleft hright hsign hop hl hr ihl ihr =>
    have ha := ihl (fun x hx => hlocal x (mem_append_left _ hx))
      (hbelow _ (mem_of_find?_eq_some hleft))
    have hb := ihr (fun x hx => hlocal x (mem_append_right _ hx))
      (hbelow _ (mem_of_find?_eq_some hright))
    have hrule := returns_binaryExpression hleft hright hsign ha hb
    rw [hop] at hrule
    rw [expressionStep, hkind]
    first | exact hrule | rwa [StrictOp.goOperator_symbol] at hrule
  | @assign node left right sign x e hkind hleft hright hsign hop hl hr ihl ihr =>
    have hx : inScopes t.scopes x := hlocal x mem_cons_self
    have hplace := ihl (fun y hy => (mem_singleton.1 hy).symm ▸ hx)
      (hbelow left (mem_of_find?_eq_some hleft))
    have ha := ihr (fun y hy => hlocal y (mem_cons_of_mem _ hy))
      (hbelow right (mem_of_find?_eq_some hright))
    have hrule := returns_assignmentValue hleft hright hsign hop hl hx hplace ha
    rw [expressionStep, hkind]
    simpa [LocalExpr.lowered] using hrule
  | @step node operand sign op x hkind hparts hsign hnamed he ih =>
    have hmem : operand ∈ node.children.filter fun child => !child.kind.isComment := by
      simp [hparts]
    have hplace := ih hlocal (hbelow operand (mem_filter.1 hmem).1)
    have hx : inScopes t.scopes x := hlocal x mem_cons_self
    have hrule := returns_updateValue (updateParts_of_children hparts hsign hnamed he) he hx hplace
    rw [expressionStep, hkind]
    simpa [LocalExpr.lowered] using hrule

end

/-- The Go variables in view have the values of the Java ones. -/
def Represents (scopes : List Scope) (γ σ : Store) : Prop :=
  (byGoName γ).within (inScopes scopes) = σ.within (inScopes scopes)

/-- No two locals in view have the same Go name. -/
def DistinctGoNames (scopes : List Scope) : Prop :=
  ∀ x y, inScopes scopes x → inScopes scopes y → Code.avoidReserved x = Code.avoidReserved y → x = y

/-- The code gives Java's value and leaves Java's values of the locals in view. -/
def DoesSame (scopes : List Scope) (wrap : Int → Int) (e : LocalExpr) (lowered : Lowered)
    (σ γ : Store) : Prop :=
  observe (inScopes scopes) (runByGoName wrap lowered γ)
    = observe (inScopes scopes) (e.eval wrap σ)

/-- Whether effects come first cannot be observed. -/
def EffectsMayComeFirst (scopes : List Scope) (wrap : Int → Int) (e : LocalExpr) (σ : Store) :
    Prop :=
  observe (inScopes scopes) (e.effectsFirst wrap Code.avoidReserved σ)
    = observe (inScopes scopes) (e.eval wrap σ)

variable {scopes : List Scope} {wrap : Int → Int} {e : LocalExpr} {σ γ : Store}

lemma inScopes_iff : inScopes scopes x ↔ x ∈ scopes.flatten := by
  simp [inScopes]

lemma exists_represents (hnames : DistinctGoNames scopes) (σ : Store) :
    ∃ γ, Represents scopes γ σ := by
  -- A Go variable has the value of the local with its name.
  let γ : Store := fun y =>
    σ ((scopes.flatten.find? fun x => avoidReserved x = y).getD y)
  refine ⟨γ, within_eq_iff.2 fun x hx => ?_⟩
  cases hfind : scopes.flatten.find? fun z => avoidReserved z = avoidReserved x with
  | none =>
    have hne := find?_eq_none.1 hfind x (inScopes_iff.1 hx)
    simp at hne
  | some z =>
    have hz : inScopes scopes z := inScopes_iff.2 (mem_of_find?_eq_some hfind)
    have hname : avoidReserved z = avoidReserved x := by
      simpa using find?_some hfind
    have hzx : z = x := hnames z x hz hx hname
    simp only [byGoName, γ, hfind, Option.getD_some, hzx]

lemma doesSame_lowered_iff (hlocal : ∀ x ∈ e.vars, inScopes scopes x)
    (hstore : Represents scopes γ σ) :
    DoesSame scopes wrap e e.lowered σ γ ↔ EffectsMayComeFirst scopes wrap e σ := by
  have hrun := LocalExpr.runByGoName_lowered γ wrap e
  have hsame : SamePlaces (inScopes scopes) avoidReserved avoidReserved := fun _ _ _ _ => Iff.rfl
  rw [DoesSame, EffectsMayComeFirst, hrun, LocalExpr.observe_effectsFirst hsame hlocal hstore]

lemma effectsMayComeFirst_of_separated (hlocal : ∀ x ∈ e.vars, inScopes scopes x)
    (hseparated : e.Separated) (hnames : DistinctGoNames scopes) :
    EffectsMayComeFirst scopes wrap e σ := by
  have hsame : SamePlaces (inScopes scopes) avoidReserved id :=
    fun x y hx hy => ⟨hnames x y hx hy, congrArg avoidReserved⟩
  rw [EffectsMayComeFirst, LocalExpr.observe_effectsFirst hsame hlocal rfl,
    LocalExpr.effectsFirst_eq_eval hseparated]

/-- An expression over locals is lowered.  Its code does what Java does exactly when effects may
come first, as they may in a separated expression over locals with different Go names. -/
theorem doesSame_expression_iff {node : Node} {e : LocalExpr} (hnode : Expresses node e)
    (c : Context) (t : Trail) (hlocal : ∀ x ∈ e.vars, inScopes t.scopes x) :
    ∃ lowered, (Lower.expression node).runAt c t = (.ok lowered, t) ∧
      (∀ wrap σ γ, Represents t.scopes γ σ →
        (DoesSame t.scopes wrap e lowered σ γ ↔ EffectsMayComeFirst t.scopes wrap e σ)) ∧
      (e.Separated → DistinctGoNames t.scopes → ∀ wrap σ,
        (∃ γ, Represents t.scopes γ σ) ∧
          ∀ γ, Represents t.scopes γ σ → DoesSame t.scopes wrap e lowered σ γ) := by
  refine ⟨e.lowered, returns_expressionWithin hnode hlocal (Nat.le_refl _), ?_, ?_⟩
  · intro wrap σ γ hstore
    exact doesSame_lowered_iff hlocal hstore
  · intro hseparated hnames wrap σ
    refine ⟨exists_represents hnames σ, fun γ hstore => ?_⟩
    exact (doesSame_lowered_iff hlocal hstore).2
      (effectsMayComeFirst_of_separated hlocal hseparated hnames)

def plainBinary (kind : Kind) (field : Option String) (sign : String) (left right : Node) : Node :=
  .plain 0 kind field "" [left, .plain 0 (.other sign) (some "operator") sign [], right]

/-- The assignment `x = 5` in parentheses. -/
def assignedFive (field : String) : Node :=
  .plain 0 .parenthesized (some field) "(x = 5)"
    [plainBinary .assignment none "=" (.plain 0 .identifier (some "left") "x" [])
      (.plain 0 .decimalInteger (some "right") "5" [])]

def five : IntLiteral :=
  ⟨"5", 5, by decide⟩

lemma expresses_assignedFive (field : String) :
    Expresses (assignedFive field) (.assign "x" (.int five)) :=
  .parenthesized rfl rfl <| .assign rfl rfl rfl rfl rfl (.var rfl) (.int (by decide) rfl)

/-- A trail with one local, `x`. -/
def localX : Trail where
  scopes := [["x"]]

lemma eq_of_inScopes_localX (h : inScopes localX.scopes y) : y = "x" := by
  simpa [inScopes, localX] using h

def ones : Store :=
  fun _ => .int 1

/-- The sum `(x = 5) + x`. -/
def setThenRead : Node :=
  plainBinary .binary none "+" (assignedFive "left") (.plain 0 .identifier (some "right") "x" [])

/-- The sum `x + (x = 5)`. -/
def readThenSet : Node :=
  plainBinary .binary none "+" (.plain 0 .identifier (some "left") "x" []) (assignedFive "right")

lemma expresses_setThenRead :
    Expresses setThenRead (.strict .add (.assign "x" (.int five)) (.var "x")) :=
  .strict rfl rfl rfl rfl rfl (expresses_assignedFive "left") (.var rfl)

lemma expresses_readThenSet :
    Expresses readThenSet (.strict .add (.var "x") (.assign "x" (.int five))) :=
  .strict rfl rfl rfl rfl rfl (.var rfl) (expresses_assignedFive "right")

/-- The sum `(x = 5) + x` is separated, so its code does what Java does. -/
theorem doesSame_setThenRead :
    ∃ lowered, (Lower.expression setThenRead).runAt default localX = (.ok lowered, localX) ∧
      ∀ wrap σ, (∃ γ, Represents localX.scopes γ σ) ∧ ∀ γ, Represents localX.scopes γ σ →
        DoesSame localX.scopes wrap (.strict .add (.assign "x" (.int five)) (.var "x")) lowered
          σ γ := by
  obtain ⟨lowered, hrun, -, hsame⟩ :=
    doesSame_expression_iff expresses_setThenRead default localX (by decide)
  refine ⟨lowered, hrun, hsame (by decide) ?_⟩
  intro x y hx hy _
  rw [eq_of_inScopes_localX hx, eq_of_inScopes_localX hy]

/-- The code of `x + (x = 5)` reads `x` too late: it gives ten where Java gives six. -/
theorem readThenSet_differs :
    ∃ lowered, (Lower.expression readThenSet).runAt default localX = (.ok lowered, localX) ∧
      ((LocalExpr.strict .add (.var "x") (.assign "x" (.int five))).eval id ones).map Prod.fst
        = some (.int 6) ∧
      (runByGoName id lowered ones).map Prod.fst = some (.int 10) :=
  ⟨_, returns_expressionWithin expresses_readThenSet (by decide) (Nat.le_refl _), by decide,
    by decide⟩

end Hoisting
end JavaToGo
