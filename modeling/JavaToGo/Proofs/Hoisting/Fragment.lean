import JavaToGo.Lowering.Expression
import Mathlib.Tactic.Lemma

/-!
# Java expressions over local variables

Expressions over local variables of the types `int` and `boolean`, with
assignments and prefix updates among their operands.  `wrap` brings an integer
into its range; a division by zero has no result.
-/

namespace JavaToGo.Hoisting

inductive Value where
  | int (n : Int)
  | bool (b : Bool)
deriving DecidableEq, Repr, Inhabited

def Value.truth? : Value → Option Bool
  | .bool b => some b
  | .int _ => none

abbrev Store := String → Value

/-- Sets a variable and all others of the same place. -/
def Store.setAt (place : String → String) (σ : Store) (x : String) (v : Value) : Store :=
  fun y => if place y = place x then v else σ y

def Store.set : Store → String → Value → Store :=
  Store.setAt id

@[simp] lemma Store.setAt_id (σ : Store) (x : String) (v : Value) : σ.setAt id x v = σ.set x v :=
  rfl

@[simp] lemma Store.set_self (σ : Store) (x : String) (v : Value) : σ.set x v x = v := by
  simp [set, setAt]

lemma Store.set_of_ne (σ : Store) (v : Value) (h : y ≠ x) : σ.set x v y = σ y := by
  simp [set, setAt, h]

/-- The variables in view. -/
def Store.within (inView : String → Bool) (σ : Store) (x : String) : Option Value :=
  if inView x then some (σ x) else none

/-- The value of an evaluation and the variables in view behind it. -/
def observe (inView : String → Bool) (outcome : Option (Value × Store)) :
    Option (Value × (String → Option Value)) :=
  outcome.map fun result => (result.1, result.2.within inView)

section

inductive UnaryOp where
  | plus | minus | not
deriving DecidableEq, Repr

/-- Operators that always use both operands. -/
inductive StrictOp where
  | add | sub | mul | div | rem | lt | le | gt | ge | eq | ne
deriving DecidableEq, Repr

inductive StepOp where
  | increment | decrement
deriving DecidableEq, Repr

def UnaryOp.symbol : UnaryOp → String
  | .plus => "+"
  | .minus => "-"
  | .not => "!"

def StrictOp.symbol : StrictOp → String
  | .add => "+"
  | .sub => "-"
  | .mul => "*"
  | .div => "/"
  | .rem => "%"
  | .lt => "<"
  | .le => "<="
  | .gt => ">"
  | .ge => ">="
  | .eq => "=="
  | .ne => "!="

def StepOp.kind : StepOp → Kind
  | .increment => .increment
  | .decrement => .decrement

variable (wrap : Int → Int)

def UnaryOp.apply : UnaryOp → Value → Option Value
  | .plus, v => some v
  | .minus, .int a => some (.int (wrap (-a)))
  | .not, .bool b => some (.bool !b)
  | _, _ => none

/-- The value of the operator; division goes toward zero. -/
def StrictOp.apply : StrictOp → Value → Value → Option Value
  | .add, .int a, .int b => some (.int (wrap (a + b)))
  | .sub, .int a, .int b => some (.int (wrap (a - b)))
  | .mul, .int a, .int b => some (.int (wrap (a * b)))
  | .div, .int a, .int b => if b = 0 then none else some (.int (wrap (a.tdiv b)))
  | .rem, .int a, .int b => if b = 0 then none else some (.int (wrap (a.tmod b)))
  | .lt, .int a, .int b => some (.bool (decide (a < b)))
  | .le, .int a, .int b => some (.bool (decide (a ≤ b)))
  | .gt, .int a, .int b => some (.bool (decide (b < a)))
  | .ge, .int a, .int b => some (.bool (decide (b ≤ a)))
  | .eq, v, w => some (.bool (decide (v = w)))
  | .ne, v, w => some (.bool (decide (v ≠ w)))
  | _, _, _ => none

def StepOp.apply : StepOp → Value → Option Value
  | .increment, .int a => some (.int (wrap (a + 1)))
  | .decrement, .int a => some (.int (wrap (a - 1)))
  | _, .bool _ => none

end

def digitValue? (base : Nat) (c : Char) : Option Nat :=
  let n :=
    if c.isDigit then c.toNat - '0'.toNat
    else if 'a' ≤ c && c ≤ 'f' then c.toNat - 'a'.toNat + 10
    else if 'A' ≤ c && c ≤ 'F' then c.toNat - 'A'.toNat + 10
    else base
  if n < base then some n else none

def digitsValue? (base : Nat) (read : Nat) : List Char → Option Nat
  | [] => some read
  | c :: cs => (digitValue? base c).bind fun n => digitsValue? base (read * base + n) cs

/-- The number that a text without separators stands for; what it begins with gives the base. -/
def numeral? : List Char → Option Nat
  | '0' :: 'x' :: c :: cs => digitsValue? 16 0 (c :: cs)
  | '0' :: 'X' :: c :: cs => digitsValue? 16 0 (c :: cs)
  | '0' :: 'b' :: c :: cs => digitsValue? 2 0 (c :: cs)
  | '0' :: 'B' :: c :: cs => digitsValue? 2 0 (c :: cs)
  | '0' :: c :: cs => digitsValue? 8 0 (c :: cs)
  | c :: cs => digitsValue? 10 0 (c :: cs)
  | [] => none

/-- A Java literal of the type `int`. -/
structure IntLiteral where
  text : String
  number : Nat
  numeral_text : numeral? (text.toList.filter (· != '_')) = some number
deriving DecidableEq, Repr

/-- A Java expression over local variables. -/
inductive LocalExpr where
  | var (name : String)
  | int (literal : IntLiteral)
  | bool (b : Bool)
  | unary (op : UnaryOp) (operand : LocalExpr)
  | strict (op : StrictOp) (left right : LocalExpr)
  | and (left right : LocalExpr)
  | or (left right : LocalExpr)
  | assign (name : String) (value : LocalExpr)
  | step (op : StepOp) (name : String)
deriving DecidableEq, Repr

namespace LocalExpr

section

variable (wrap : Int → Int)

/-- Java's order: from left to right, and the right operand of `&&` and `||` only when needed. -/
def eval : LocalExpr → Store → Option (Value × Store)
  | .var x, σ => some (σ x, σ)
  | .int literal, σ => some (.int (wrap literal.number), σ)
  | .bool b, σ => some (.bool b, σ)
  | .unary op e, σ => do
    let (v, σ') ← e.eval σ
    return (← op.apply wrap v, σ')
  | .strict op l r, σ => do
    let (v, σ₁) ← l.eval σ
    let (w, σ₂) ← r.eval σ₁
    return (← op.apply wrap v w, σ₂)
  | .and l r, σ => do
    let (v, σ₁) ← l.eval σ
    if ← v.truth? then
      let (w, σ₂) ← r.eval σ₁
      return (.bool (← w.truth?), σ₂)
    else return (.bool false, σ₁)
  | .or l r, σ => do
    let (v, σ₁) ← l.eval σ
    if ← v.truth? then return (.bool true, σ₁)
    else
      let (w, σ₂) ← r.eval σ₁
      return (.bool (← w.truth?), σ₂)
  | .assign x e, σ => do
    let (v, σ') ← e.eval σ
    return (v, σ'.set x v)
  | .step op x, σ => do
    let v ← op.apply wrap (σ x)
    return (v, σ.set x v)

variable (place : String → String)

/-- The value when all assignments and updates have been carried out: each of them is the variable
that it has set. -/
def reread : LocalExpr → Store → Option Value
  | .var x, σ => some (σ x)
  | .int literal, _ => some (.int (wrap literal.number))
  | .bool b, _ => some (.bool b)
  | .unary op e, σ => do op.apply wrap (← e.reread σ)
  | .strict op l r, σ => do op.apply wrap (← l.reread σ) (← r.reread σ)
  | .and l r, σ => do
    if ← (← l.reread σ).truth? then return .bool (← (← r.reread σ).truth?)
    else return .bool false
  | .or l r, σ => do
    if ← (← l.reread σ).truth? then return .bool true
    else return .bool (← (← r.reread σ).truth?)
  | .assign x _, σ => some (σ x)
  | .step _ x, σ => some (σ x)

/-- Carries out every assignment and update in order, whether or not Java would reach it. -/
def effects : LocalExpr → Store → Option Store
  | .var _, σ => some σ
  | .int _, σ => some σ
  | .bool _, σ => some σ
  | .unary _ e, σ => e.effects σ
  | .strict _ l r, σ => do r.effects (← l.effects σ)
  | .and l r, σ => do r.effects (← l.effects σ)
  | .or l r, σ => do r.effects (← l.effects σ)
  | .assign x e, σ => do
    let σ' ← e.effects σ
    return σ'.setAt place x (← e.reread wrap σ')
  | .step op x, σ => do return σ.setAt place x (← op.apply wrap (σ x))

/-- Carries out all effects and then reads the expression off. -/
def effectsFirst (e : LocalExpr) (σ : Store) : Option (Value × Store) := do
  let σ' ← e.effects wrap place σ
  return (← e.reread wrap σ', σ')

end

def vars : LocalExpr → List String
  | .var x => [x]
  | .int _ => []
  | .bool _ => []
  | .unary _ e => e.vars
  | .strict _ l r => l.vars ++ r.vars
  | .and l r => l.vars ++ r.vars
  | .or l r => l.vars ++ r.vars
  | .assign x e => x :: e.vars
  | .step _ x => [x]

/-- The variables that an expression sets. -/
def writes : LocalExpr → List String
  | .var _ => []
  | .int _ => []
  | .bool _ => []
  | .unary _ e => e.writes
  | .strict _ l r => l.writes ++ r.writes
  | .and l r => l.writes ++ r.writes
  | .or l r => l.writes ++ r.writes
  | .assign x e => x :: e.writes
  | .step _ x => [x]

/-- The variables that are read after all effects. -/
def rereads : LocalExpr → List String
  | .var x => [x]
  | .int _ => []
  | .bool _ => []
  | .unary _ e => e.rereads
  | .strict _ l r => l.rereads ++ r.rereads
  | .and l r => l.rereads ++ r.rereads
  | .or l r => l.rereads ++ r.rereads
  | .assign x _ => [x]
  | .step _ x => [x]

/-- No operand sets a variable that an operand to its left is read off from, and what may be left
out sets nothing. -/
def Separated : LocalExpr → Prop
  | .var _ => True
  | .int _ => True
  | .bool _ => True
  | .unary _ e => e.Separated
  | .strict _ l r => l.Separated ∧ r.Separated ∧ ∀ x ∈ r.writes, x ∉ l.rereads
  | .and l r => l.Separated ∧ r.Separated ∧ r.writes = []
  | .or l r => l.Separated ∧ r.Separated ∧ r.writes = []
  | .assign _ e => e.Separated
  | .step _ _ => True

instance decidableSeparated : DecidablePred Separated
  | .var _ => isTrue trivial
  | .int _ => isTrue trivial
  | .bool _ => isTrue trivial
  | .unary _ e => decidableSeparated e
  | .strict _ l r =>
    have := decidableSeparated l
    have := decidableSeparated r
    inferInstanceAs (Decidable (_ ∧ _ ∧ _))
  | .and l r =>
    have := decidableSeparated l
    have := decidableSeparated r
    inferInstanceAs (Decidable (_ ∧ _ ∧ _))
  | .or l r =>
    have := decidableSeparated l
    have := decidableSeparated r
    inferInstanceAs (Decidable (_ ∧ _ ∧ _))
  | .assign _ e => decidableSeparated e
  | .step _ _ => isTrue trivial

end LocalExpr

end JavaToGo.Hoisting
