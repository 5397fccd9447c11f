import JavaToGo.Proofs.Hoisting.Order

/-!
# What the generated code does

A local variable has a Go name, and two locals may have the same.
-/

namespace JavaToGo

open List Code

namespace Hoisting

variable (γ : Store) (op : StrictOp)

def UnaryOp.ofSymbol? (symbol : String) : Option UnaryOp :=
  [.plus, .minus, .not].find? fun op => op.symbol = symbol

def StrictOp.ofSymbol? (symbol : String) : Option StrictOp :=
  [.add, .sub, .mul, .div, .rem, .lt, .le, .gt, .ge, .eq, .ne].find? fun op => op.symbol = symbol

def StepOp.symbol : StepOp → String
  | .increment => "++"
  | .decrement => "--"

def StepOp.ofSymbol? (symbol : String) : Option StepOp :=
  [.increment, .decrement].find? fun op => op.symbol = symbol

@[simp] lemma UnaryOp.ofSymbol?_symbol (op : UnaryOp) : ofSymbol? op.symbol = some op := by
  cases op <;> decide

@[simp] lemma StrictOp.ofSymbol?_symbol : ofSymbol? op.symbol = some op := by
  cases op <;> decide

@[simp] lemma StepOp.ofSymbol?_symbol (op : StepOp) : ofSymbol? op.symbol = some op := by
  cases op <;> decide

lemma StrictOp.symbol_ne_and : op.symbol ≠ "&&" := by
  cases op <;> decide

lemma StrictOp.symbol_ne_or : op.symbol ≠ "||" := by
  cases op <;> decide

section

variable (wrap : Int → Int)

def goLiteral? (source : String) : Option Value :=
  if source = "true" then some (.bool true)
  else if source = "false" then some (.bool false)
  else (numeral? source.toList).map fun n : Nat => .int (wrap n)

/-- Go evaluates from left to right, the right operand of `&&` and `||` only when needed. -/
def goValue : Expr → Store → Option Value
  | .raw source, _ => goLiteral? wrap source
  | .var x, γ => some (γ x)
  | .unary symbol e, γ => do (← UnaryOp.ofSymbol? symbol).apply wrap (← goValue e γ)
  | .binary l symbol r, γ =>
    if symbol = "&&" then do
      if ← (← goValue l γ).truth? then return .bool (← (← goValue r γ).truth?)
      else return .bool false
    else if symbol = "||" then do
      if ← (← goValue l γ).truth? then return .bool true
      else return .bool (← (← goValue r γ).truth?)
    else do (← StrictOp.ofSymbol? symbol).apply wrap (← goValue l γ) (← goValue r γ)
  | _, _ => none

def goStep (γ : Store) : Stmt → Option Store
  | .assign (.var x) e => do return γ.set x (← goValue wrap e γ)
  | .step (.var x) symbol => do
    return γ.set x (← (← StepOp.ofSymbol? symbol).apply wrap (γ x))
  | _ => none

/-- The statements that have to run before the expression, and then the expression. -/
def run (lowered : Lowered) (γ : Store) : Option (Value × Store) := do
  let γ' ← lowered.before.foldlM (goStep wrap) γ
  return (← goValue wrap lowered.value γ', γ')

def byGoName (γ : Store) : Store :=
  fun x => γ (Code.avoidReserved x)

/-- What the generated code does, told in Java variables. -/
def runByGoName (lowered : Lowered) (γ : Store) : Option (Value × Store) :=
  (run wrap lowered γ).map (Prod.map id byGoName)

lemma byGoName_set (x : String) (v : Value) :
    byGoName (γ.set (avoidReserved x) v) = (byGoName γ).setAt avoidReserved x v :=
  rfl

end

def isTypeLetter (c : Char) : Bool :=
  c == 'l' || c == 'L'

lemma digitValue?_of_isTypeLetter (h : isTypeLetter c) (base : Nat) :
    digitValue? base c = none := by
  rcases Bool.or_eq_true_iff.1 h with h | h
  all_goals
    obtain rfl := beq_iff_eq.1 h
    exact if_neg (Nat.lt_irrefl base)

lemma not_isTypeLetter_of_mem_digits {base read n : Nat} {c : Char} {cs : List Char}
    (h : digitsValue? base read cs = some n) (hc : c ∈ cs) : ¬ isTypeLetter c := by
  induction cs generalizing read with
  | nil => cases hc
  | cons d ds ih =>
    obtain ⟨m, hd, hds⟩ := Option.bind_eq_some_iff.1 h
    rcases mem_cons.1 hc with rfl | hc
    · intro hletter
      rw [digitValue?_of_isTypeLetter hletter] at hd
      cases hd
    · exact ih hds hc

lemma not_isTypeLetter_of_mem_numeral (h : numeral? cs = some n) (hc : c ∈ cs) :
    ¬ isTypeLetter c := by
  revert h hc
  fun_cases numeral? cs <;> intro h hc
  case case7 => cases h
  case case6 => exact not_isTypeLetter_of_mem_digits h hc
  case case5 =>
    rcases mem_cons.1 hc with rfl | hc
    · decide
    · exact not_isTypeLetter_of_mem_digits h hc
  all_goals
    -- Two characters give the base, digits follow.
    rcases mem_cons.1 hc with rfl | hc
    · decide
    rcases mem_cons.1 hc with rfl | hc
    · decide
    · exact not_isTypeLetter_of_mem_digits h hc

lemma dropSuffix_of_not_mem {isSuffix : Char → Bool} {s : String}
    (h : ∀ c ∈ s.toList, ¬ isSuffix c) : Literal.dropSuffix isSuffix s = s := by
  unfold Literal.dropSuffix
  split
  next c cs hs =>
    have hc : c ∈ s.toList := mem_reverse.1 (by simp [hs])
    rw [if_neg (h c hc)]
  next c cs _ hs =>
    have hc : c ∈ s.toList := mem_reverse.1 (by simp [hs])
    rw [if_neg (h c hc)]
  next => rfl

lemma numeral?_integer (literal : IntLiteral) :
    numeral? (Literal.integer literal.text).toList = some literal.number := by
  have hdigits : (Text.eraseChar '_' literal.text).toList
      = literal.text.toList.filter (· != '_') := by
    simp [Text.eraseChar]
  have hinteger : Literal.integer literal.text = Text.eraseChar '_' literal.text := by
    refine dropSuffix_of_not_mem fun c hc => ?_
    rw [hdigits] at hc
    exact not_isTypeLetter_of_mem_numeral literal.numeral_text hc
  rw [hinteger, hdigits, literal.numeral_text]

lemma goLiteral?_integer (wrap : Int → Int) (literal : IntLiteral) :
    goLiteral? wrap (Literal.integer literal.text) = some (.int (wrap literal.number)) := by
  have hnumeral := numeral?_integer literal
  have htrue : Literal.integer literal.text ≠ "true" := by
    intro h
    rw [h] at hnumeral
    cases hnumeral
  have hfalse : Literal.integer literal.text ≠ "false" := by
    intro h
    rw [h] at hnumeral
    cases hnumeral
  rw [goLiteral?, if_neg htrue, if_neg hfalse, hnumeral, Option.map_some]

namespace LocalExpr

def lowered : LocalExpr → Lowered
  | .var x => { value := .var (Code.avoidReserved x) }
  | .int literal => { value := .raw (Literal.integer literal.text) }
  | .bool b => { value := .raw (if b then "true" else "false") }
  | .unary op e =>
    if op = .plus then e.lowered else ⟨.unary op.symbol e.lowered.value, e.lowered.before⟩
  | .strict op l r =>
    ⟨.binary l.lowered.value op.symbol r.lowered.value, l.lowered.before ++ r.lowered.before⟩
  | .and l r =>
    ⟨.binary l.lowered.value "&&" r.lowered.value, l.lowered.before ++ r.lowered.before⟩
  | .or l r =>
    ⟨.binary l.lowered.value "||" r.lowered.value, l.lowered.before ++ r.lowered.before⟩
  | .assign x e =>
    ⟨.var (Code.avoidReserved x),
      e.lowered.before ++ [.assign (.var (Code.avoidReserved x)) e.lowered.value]⟩
  | .step op x =>
    ⟨.var (Code.avoidReserved x), [.step (.var (Code.avoidReserved x)) op.symbol]⟩

variable (wrap : Int → Int) (e : LocalExpr)

lemma goValue_lowered : goValue wrap e.lowered.value γ = e.reread wrap (byGoName γ) := by
  induction e with
  | var | assign | step => rfl
  | int literal => exact goLiteral?_integer wrap literal
  | bool b => cases b <;> rfl
  | unary op e ih =>
    by_cases hplus : op = .plus
    · subst hplus
      simp only [lowered, if_true, reread, ih]
      cases e.reread wrap (byGoName γ) <;> rfl
    · simp [lowered, hplus, goValue, reread, ih]
  | strict op _ _ ihl ihr =>
    simp [lowered, goValue, reread, ihl, ihr, op.symbol_ne_and, op.symbol_ne_or]
  | and _ _ ihl ihr | or _ _ ihl ihr => simp [lowered, goValue, reread, ihl, ihr]

lemma effects_lowered :
    (e.lowered.before.foldlM (goStep wrap) γ).map byGoName
      = e.effects wrap avoidReserved (byGoName γ) := by
  induction e generalizing γ with
  | var x => rfl
  | int literal => rfl
  | bool b => rfl
  | unary op e ih =>
    by_cases hplus : op = .plus <;> simpa [lowered, effects, hplus] using ih γ
  | strict op l r ihl ihr | and l r ihl ihr | or l r ihl ihr =>
    simp only [lowered, effects, foldlM_append, ← ihl γ]
    cases l.lowered.before.foldlM (goStep wrap) γ with
    | none => rfl
    | some γ' => exact ihr γ'
  | assign x e ih =>
    simp only [lowered, effects, foldlM_append, ← ih γ]
    cases e.lowered.before.foldlM (goStep wrap) γ with
    | none => rfl
    | some γ' =>
      simp only [Option.map_some, Option.bind_eq_bind, Option.bind_some, foldlM_cons, goStep,
        goValue_lowered]
      cases e.reread wrap (byGoName γ') <;> rfl
  | step op x =>
    have hx : byGoName γ x = γ (avoidReserved x) := rfl
    cases hv : op.apply wrap (γ (avoidReserved x)) with
    | none => simp [lowered, effects, goStep, hx, hv]
    | some => simp [lowered, effects, goStep, hx, hv, byGoName_set]

lemma runByGoName_lowered :
    runByGoName wrap e.lowered γ = e.effectsFirst wrap avoidReserved (byGoName γ) := by
  simp only [runByGoName, run, effectsFirst, ← effects_lowered]
  cases e.lowered.before.foldlM (goStep wrap) γ with
  | none => rfl
  | some γ' =>
    simp only [Option.map_some, Option.bind_eq_bind, Option.bind_some, goValue_lowered]
    cases e.reread wrap (byGoName γ') <;> rfl

end LocalExpr

end Hoisting
end JavaToGo
