import JavaToGo.Lowering.Block
import Mathlib.Tactic.Lemma

/-!
# Recovering from panics

How control passes through the function that a try statement is written as, when
statements and expressions are black boxes.
-/

namespace JavaToGo.Recovery

/-- The types of a Go program, as far as an assertion asks about them. -/
structure Types where
  /-- The type that a name stands for: itself, unless it is another name of a type. -/
  denoted : String → String
  /-- The methods that an interface type asks for; other types are none. -/
  interface? : String → Option (List String)
  methods : String → List String
  denoted_string : denoted "string" = "string"
  methods_string : methods "string" = []

namespace Types

variable (w : Types)

/-- Whether the values of a type pass the assertion that they have another type. -/
def passes (dynamic asked : String) : Bool :=
  match w.interface? asked with
  | some methods => methods.all (w.methods dynamic).contains
  | none => w.denoted asked == w.denoted dynamic

/-- The types that take strings: interfaces without methods and the names of `string`. -/
def TakesStrings (asked : String) : Prop :=
  w.interface? asked = some [] ∨ (w.interface? asked = none ∧ w.denoted asked = "string")

lemma passes_string_iff : w.passes "string" asked = true ↔ w.TakesStrings asked := by
  unfold passes TakesStrings
  cases w.interface? asked with
  | none => simp [w.denoted_string]
  | some methods =>
    cases methods with
    | nil => simp
    | cons method methods => simp [w.methods_string]

end Types

/-- How a statement ends; a panic carries a value with a type of its own. -/
inductive Completion (V : Type) where
  | normal
  | returns
  | panics (value : V)
deriving DecidableEq, Repr

/-- What statements and expressions mean: states `S`, and values `V` other than `nil`. -/
structure Meaning (S V : Type) where
  types : Types
  run : Stmt → S → S × Completion V
  eval : Expr → S → Option V
  typeOf : V → String
  /-- The state in which a name stands for a value. -/
  naming : String → V → S → S
  panics_panicWith : ∀ {e : Expr} {s : S} {v : V}, eval e s = some v →
    (run (Lower.panicWith e) s).2 = .panics v
  typeOf_quoted : ∀ {word : String} {s : S} {v : V}, word.toList.all Char.isAlpha = true →
    eval (.raw ("\"" ++ word ++ "\"")) s = some v → typeOf v = "string"
  typeOf_sprint : ∀ {args : List Expr} {s : S} {v : V},
    eval (.callNamed "fmt.Sprint" args false) s = some v → typeOf v = "string"

/-- What a recovering function has done: the place of the handler that ran, the state and how it
was left. -/
structure Recovered (S V : Type) where
  handler : Option Nat
  state : S
  completion : Completion V

variable {S V : Type} (m : Meaning S V)

def runAll : List Stmt → S → S × Completion V
  | [], s => (s, .normal)
  | statement :: statements, s =>
    match m.run statement s with
    | (s', .normal) => runAll statements s'
    | left => left

/-- What runs on the way out changes how the function is left only by a panic of its own. -/
def deferred (function : S → S × Completion V) (left : S × Completion V) : S × Completion V :=
  match function left.1 with
  | (s, .panics v) => (s, .panics v)
  | (s, _) => (s, left.2)

/-- The resources and the body; the closers run behind, the last one first. -/
def guarded (resources : List Stmt) (closers : List Expr) (body : List Stmt) (s : S) :
    S × Completion V :=
  match runAll m resources s with
  | (s', .normal) =>
    closers.reverse.foldl
      (fun left closer => deferred (m.run (.call (.call (.field closer "Close") [] false))) left)
      (runAll m body s')
  | left => left

/-- Whether a handler is for the panic: its value has the methods of an interface, or just the type.
-/
def takes (v : V) (clause : CatchClause) : Bool :=
  m.types.passes (m.typeOf v) clause.exceptionType

/-- The state in which a handler runs. -/
def entering (v : V) (clause : CatchClause) (s : S) : S :=
  match clause.binding with
  | none => s
  | some name => m.naming name v s

/-- Hands a value to the first handler that takes it, and on when there is none; handlers are
counted from `start`. -/
def recover (v : V) (start : Nat) : List CatchClause → S → Recovered S V
  | [], s => ⟨none, s, .panics v⟩
  | clause :: clauses, s =>
    if takes m v clause then
      let left := deferred (runAll m clause.body) (entering m v clause s, .normal)
      ⟨some start, left.1, left.2⟩
    else recover v (start + 1) clauses s

/-- A panic goes to the first handler that takes it; the final block runs last. -/
def runTry (body : List Stmt) (catches : List CatchClause) (finallyBody : Option (List Stmt))
    (resources : List Stmt) (closers : List Expr) (s : S) : Recovered S V :=
  let left := guarded m resources closers body s
  let found : Recovered S V :=
    match left.2 with
    | .panics v => recover m v 0 catches left.1
    | completion => ⟨none, left.1, completion⟩
  let ended := deferred (runAll m (finallyBody.getD [])) (found.state, found.completion)
  { found with state := ended.1, completion := ended.2 }

lemma runAll_append (h : runAll m first s = (s', .normal)) :
    runAll m (first ++ second) s = runAll m second s' := by
  induction first generalizing s with
  | nil =>
    cases h
    rfl
  | cons statement first ih =>
    rw [runAll] at h
    rw [List.cons_append, runAll]
    rcases hone : m.run statement s with ⟨s₁, completion⟩
    rw [hone] at h
    cases completion with
    | normal => exact ih h
    | returns => cases h
    | panics v => cases h

lemma panics_of_panicWith (hbefore : runAll m before s = (s', .normal))
    (hvalue : m.eval message s' = some v) :
    (runAll m (before ++ [Lower.panicWith message]) s).2 = .panics v := by
  rw [runAll_append m hbefore, runAll]
  have hpanics := m.panics_panicWith hvalue
  rcases hone : m.run (Lower.panicWith message) s' with ⟨s₁, completion⟩
  rw [hone] at hpanics
  cases completion with
  | panics => exact hpanics
  | normal | returns => cases hpanics

variable {m}

lemma le_of_handler_recover (h : (recover m v start clauses s).handler = some i) : start ≤ i := by
  induction clauses generalizing start with
  | nil => simp [recover] at h
  | cons clause clauses ih =>
    rw [recover] at h
    split at h
    · exact Nat.le_of_eq (Option.some.inj h)
    · exact Nat.le_of_succ_le (ih h)

lemma handler_recover_iff (hclause : clauses[i]? = some clause) (start : Nat) :
    (recover m v start clauses s).handler = some (start + i)
      ↔ takes m v clause = true
        ∧ ∀ j < i, ∀ earlier, clauses[j]? = some earlier → takes m v earlier = false := by
  induction clauses generalizing start i with
  | nil => simp at hclause
  | cons first clauses ih =>
    cases i with
    | zero =>
      obtain rfl : first = clause := by simpa using hclause
      rw [recover]
      split
      next htakes => simp [htakes]
      next htakes =>
        refine ⟨fun h => absurd (le_of_handler_recover h) (by omega), fun h => ?_⟩
        exact absurd h.1 htakes
    | succ i =>
      have hrest := ih (by simpa using hclause) (start + 1)
      rw [recover]
      split
      next htakes =>
        refine ⟨fun h => ?_, fun h => ?_⟩
        · have : start = start + (i + 1) := Option.some.inj h
          omega
        · exact absurd htakes (by simp [h.2 0 (by omega) first rfl])
      next htakes =>
        rw [show start + (i + 1) = start + 1 + i by omega, hrest]
        refine and_congr_right fun _ => ⟨fun h j hj earlier hearlier => ?_, fun h j hj => ?_⟩
        · cases j with
          | zero =>
            obtain rfl : first = earlier := by simpa using hearlier
            simpa using htakes
          | succ j => exact h j (by omega) earlier (by simpa using hearlier)
        · exact h (j + 1) (by omega)

lemma handler_runTry (h : (guarded m resources closers body s).2 = .panics v) :
    (runTry m body clauses finallyBody resources closers s).handler
      = (recover m v 0 clauses (guarded m resources closers body s).1).handler := by
  simp only [runTry, h]

end JavaToGo.Recovery
