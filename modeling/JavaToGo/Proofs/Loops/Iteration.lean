import JavaToGo.Proofs.Lowering.Result
import JavaToGo.Proofs.Switch.Control

/-!
# Iteration

How control passes round a Java loop and round the Go loop that it becomes, when
statements are black boxes.  Java goes on to the condition of a `do` when the body
has completed by a `continue`; Go goes on to the next round.
-/

namespace JavaToGo.Loops

open JavaToGo.Tree (Node)
open Switching (Completion Run runAll runAll_append)
open List

/-- Jumps other than a `break` of the loop. -/
inductive Jump (J : Type) where
  /-- By a `continue` of the loop. -/
  | continues
  | leaves (reason : J)
deriving DecidableEq, Repr

/-- Each statement of the Go loop belongs to the condition or to the body. -/
inductive Origin where
  | condition | body
deriving DecidableEq, Repr

/-- The Java loops with nothing but a condition and a body. -/
inductive Form where
  | «while» | «do»
deriving DecidableEq, Repr

def Form.kind : Form → Kind
  | .while => .whileStatement
  | .do => .doStatement

section

variable {α S J : Type}

/-- Goes round at most the given number of times; a loop that goes on is left by a `continue`. -/
def rounds (round : S → Run α S (Jump J)) : Nat → S → Run α S (Jump J)
  | 0, s => ⟨[], s, .jumps .continues⟩
  | n + 1, s =>
    match (round s).completion with
    | .normal | .jumps .continues =>
      { rounds round n (round s).state with
        executed := (round s).executed ++ (rounds round n (round s).state).executed }
    | .breaks => { round s with completion := .normal }
    | .jumps (.leaves _) => round s

/-- A body that continues has completed as far as the rest of the round is concerned. -/
def resumed (r : Run α S (Jump J)) : Run α S (Jump J) :=
  { r with completion := match r.completion with
      | .jumps .continues => .normal
      | completion => completion }

lemma resumed_of_ne {r : Run α S (Jump J)} (h : r.completion ≠ .jumps .continues) :
    resumed r = r := by
  obtain ⟨executed, state, completion⟩ := r
  unfold resumed
  dsimp only at h ⊢
  split
  · exact absurd rfl h
  · rfl

lemma rounds_succ_eq_iff {f g : S → Run α S (Jump J)} (h : f s = g s) (n : Nat) :
    rounds f (n + 1) s = rounds g (n + 1) s
      ↔ ((g s).completion = .normal ∨ (g s).completion = .jumps .continues →
        rounds f n (g s).state = rounds g n (g s).state) := by
  rw [rounds, rounds, h]
  have hgoes : ∀ (first : List α) (r r' : Run α S (Jump J)),
      ({ r with executed := first ++ r.executed } : Run α S (Jump J))
        = { r' with executed := first ++ r'.executed } ↔ r = r' := by
    rintro first ⟨executed, state, completion⟩ ⟨executed', state', completion'⟩
    simp
  split
  · rename_i hnormal
    simp [hnormal, hgoes]
  · rename_i hcontinues
    simp [hcontinues, hgoes]
  · rename_i hbreaks
    simp [hbreaks]
  · rename_i hleaves
    simp [hleaves]

lemma executed_rounds_succ (round : S → Run α S (Jump J)) (n : Nat) (s : S) :
    ∃ more, (rounds round (n + 1) s).executed = (round s).executed ++ more := by
  rw [rounds]
  split
  · exact ⟨_, rfl⟩
  · exact ⟨_, rfl⟩
  · exact ⟨[], (append_nil _).symm⟩
  · exact ⟨[], (append_nil _).symm⟩

end

section

variable {S J : Type} (run : Stmt → S → S × Completion (Jump J)) (form : Form) (test : Lowered)
  (body : List Stmt)

/-- The statements of a condition: the test leaves the loop unless it holds. -/
def conditionParts : List (Origin × Stmt) :=
  (test.before ++ [Lower.breakUnless test.value]).map (Origin.condition, ·)

def bodyParts : List (Origin × Stmt) :=
  body.map (Origin.body, ·)

/-- The statements of one round, in the order in which they are written. -/
def parts : List (Origin × Stmt) :=
  match form with
  | .while => conditionParts test ++ bodyParts body
  | .do => bodyParts body ++ conditionParts test

/-- Executes statements of a loop one after the other. -/
def runParts : List (Origin × Stmt) → S → Run (Origin × Stmt) S (Jump J) :=
  runAll fun part => run part.2

/-- Goes round until something in the loop completes abruptly. -/
def goLoop (parts : List (Origin × Stmt)) : Nat → S → Run (Origin × Stmt) S (Jump J) :=
  rounds (runParts run parts)

/-- One round in Java, with the condition before or behind the body. -/
def javaRound (s : S) : Run (Origin × Stmt) S (Jump J) :=
  match form with
  | .while => (runParts run (conditionParts test) s).andThen (runParts run (bodyParts body))
  | .do => (resumed (runParts run (bodyParts body) s)).andThen (runParts run (conditionParts test))

def javaLoop : Nat → S → Run (Origin × Stmt) S (Jump J) :=
  rounds (javaRound run form test body)

/-- In one of so many rounds of the Java loop the body completes by a `continue`. -/
def Continued : Nat → S → Prop
  | 0, _ => False
  | n + 1, s =>
    (runParts run (bodyParts body) s).completion = .jumps .continues
      ∨ (((javaRound run form test body s).completion = .normal
          ∨ (javaRound run form test body s).completion = .jumps .continues)
        ∧ Continued n (javaRound run form test body s).state)

variable {run form test body}

lemma head?_executed_runParts (part : Origin × Stmt) (rest : List (Origin × Stmt)) (s : S) :
    (runParts run (part :: rest) s).executed.head? = some part := by
  rw [runParts, runAll, Run.andThen]
  split
  · rfl
  · rfl

lemma head?_executed_rounds {round : S → Run (Origin × Stmt) S (Jump J)}
    (h : ∀ s, (round s).executed.head? = some part) (n : Nat) (s : S) :
    (rounds round n s).executed.head? = none ∨ (rounds round n s).executed.head? = some part := by
  cases n with
  | zero => exact .inl rfl
  | succ n =>
    obtain ⟨more, hmore⟩ := executed_rounds_succ round n s
    exact .inr (by simp [hmore, h s])

lemma exists_conditionParts_eq (test : Lowered) :
    ∃ first rest, conditionParts test = (Origin.condition, first) :: rest := by
  unfold conditionParts
  cases test.before with
  | nil => exact ⟨_, _, rfl⟩
  | cons first rest => exact ⟨_, _, rfl⟩

/-- A `while` goes round as the Go loop does. -/
lemma runParts_while (s : S) :
    runParts run (parts .while test body) s = javaRound run .while test body s :=
  runAll_append _ _ _ s

/-- So does a `do` that does not continue. -/
lemma runParts_do (h : (runParts run (bodyParts body) s).completion ≠ .jumps .continues) :
    runParts run (parts .do test body) s = javaRound run .do test body s := by
  rw [javaRound, resumed_of_ne h]
  exact runAll_append _ _ _ s

/-- When a `do` continues, Java comes to a condition and Go to a body. -/
lemma goLoop_ne_of_continues (n : Nat)
    (h : (runParts run (bodyParts body) s).completion = .jumps .continues) :
    goLoop run (parts .do test body) (n + 1) s ≠ javaLoop run .do test body (n + 1) s := by
  intro heq
  obtain ⟨tested, conditionRest, hcondition⟩ := exists_conditionParts_eq test
  cases body with
  | nil => cases h
  | cons first rest =>
    have hgoRound : runParts run (parts .do test (first :: rest)) s
        = runParts run (bodyParts (first :: rest)) s := by
      refine (runAll_append _ _ _ s).trans (Run.andThen_of_ne ?_ _)
      exact h ▸ nofun
    have hgo : (goLoop run (parts .do test (first :: rest)) (n + 1) s).executed
        = (runParts run (bodyParts (first :: rest)) s).executed
          ++ (goLoop run (parts .do test (first :: rest)) n
            (runParts run (bodyParts (first :: rest)) s).state).executed := by
      rw [goLoop, rounds, hgoRound, h]
    have hjavaRound : (javaRound run .do test (first :: rest) s).executed
        = (runParts run (bodyParts (first :: rest)) s).executed
          ++ (runParts run (conditionParts test)
            (runParts run (bodyParts (first :: rest)) s).state).executed := by
      rw [javaRound, Run.andThen_of_normal (by simp [resumed, h])]
      rfl
    obtain ⟨more, hjava⟩ := executed_rounds_succ (javaRound run .do test (first :: rest)) n s
    have hexecuted := congrArg Run.executed heq
    rw [hgo, javaLoop, hjava, hjavaRound, append_assoc, append_cancel_left_eq,
      hcondition] at hexecuted
    have hhead := congrArg List.head? hexecuted
    rw [head?_append, head?_executed_runParts] at hhead
    have hbegins : ∀ s, (runParts run (parts .do test (first :: rest)) s).executed.head?
        = some (Origin.body, first) := head?_executed_runParts _ _
    rcases head?_executed_rounds hbegins n (runParts run (bodyParts (first :: rest)) s).state with
      hnone | hbody
    · exact absurd (hnone.symm.trans hhead) (by simp)
    · exact absurd (hbody.symm.trans hhead) (by simp)

lemma goLoop_eq_javaLoop_iff (n : Nat) (s : S) :
    goLoop run (parts form test body) n s = javaLoop run form test body n s
      ↔ form = .while ∨ ¬ Continued run form test body n s := by
  cases form with
  | «while» =>
    have hround : runParts run (parts .while test body) = javaRound run .while test body :=
      funext runParts_while
    simp [goLoop, javaLoop, hround]
  | «do» =>
    simp only [reduceCtorEq, false_or]
    induction n generalizing s with
    | zero => simp [goLoop, javaLoop, rounds, Continued]
    | succ n ih =>
      by_cases h : (runParts run (bodyParts body) s).completion = .jumps .continues
      · simp [Continued, h, goLoop_ne_of_continues n h]
      · rw [goLoop, javaLoop, rounds_succ_eq_iff (runParts_do h), Continued, not_or, not_and]
        simp only [h, not_false_eq_true, true_and]
        exact imp_congr_right fun _ => ih _

end

section

variable {c : Context} {t t' : Trail} {node : Node} {ss : List Stmt} {form : Form}

/-- The code is one Go loop, with the given statements in its header and its body. -/
def Written (ss : List Stmt) (parts : List (Origin × Stmt)) : Prop :=
  ∃ header statements, ss = [.loop none header none statements]
    ∧ (header.map Lower.breakUnless).toList ++ statements = parts.map Prod.snd

lemma map_snd_parts (form : Form) (test : Lowered) (body : List Stmt) :
    (parts form test body).map Prod.snd = match form with
      | .while => test.before ++ [Lower.breakUnless test.value] ++ body
      | .do => body ++ (test.before ++ [Lower.breakUnless test.value]) := by
  cases form <;> simp [parts, conditionParts, bodyParts, Function.comp_def]

/-- For every loop that is lowered, with whatever its statements do: the Go loop consists of the
statements of the condition and of the body, and in any number of rounds it executes what the Java
loop executes, in the same order and with the same end, exactly when the loop is a `while` or the
body does not complete by a `continue` in one of these rounds. -/
theorem loop_keeps_iteration_iff (hkind : node.kind = form.kind)
    (hrun : (Lower.statement node).runAt c t = (.ok ss, t')) :
    ∃ test body, (Lower.condition node).Makes c test
      ∧ (∃ inner, node.require "body" = .ok inner ∧ (Lower.bodyWith
          (Lower.statementWithin (Node.heightAll node.children)) inner).Makes c body)
      ∧ Written ss (parts form test body)
      ∧ ∀ {S J : Type} (run : Stmt → S → S × Completion (Jump J)) (n : Nat) (s : S),
        goLoop run (parts form test body) n s = javaLoop run form test body n s
          ↔ form = .while ∨ ¬ Continued run form test body n s := by
  have hbelow : ∀ {inner : Node} {t₁ t₂ : Trail},
      (liftM (node.require "body") : Lower Node).runAt c t₁ = (.ok inner, t₂) →
        node.require "body" = .ok inner := fun h => (Prod.mk.inj h).1
  rw [Lower.statement_eq_step, Lower.statementStep, hkind] at hrun
  cases form with
  | «while» =>
    obtain ⟨test, t₁, htest, hfrom₁⟩ := Lower.exists_of_bind hrun
    obtain ⟨inner, t₂, hinner, hfrom₂⟩ := Lower.exists_of_bind hfrom₁
    obtain ⟨body, t₃, hbody, hlast⟩ := Lower.exists_of_bind hfrom₂
    refine ⟨test, body, ⟨_, _, htest⟩, ⟨inner, hbelow hinner, _, _, hbody⟩, ?_,
      fun run n s => goLoop_eq_javaLoop_iff n s⟩
    split at hlast
    · rename_i hempty
      cases hlast
      refine ⟨_, _, rfl, ?_⟩
      simp [map_snd_parts, List.isEmpty_iff.1 hempty]
    · cases hlast
      exact ⟨_, _, rfl, by simp [map_snd_parts]⟩
  | «do» =>
    obtain ⟨inner, t₁, hinner, hfrom₁⟩ := Lower.exists_of_bind hrun
    obtain ⟨body, t₂, hbody, hfrom₂⟩ := Lower.exists_of_bind hfrom₁
    obtain ⟨test, t₃, htest, hlast⟩ := Lower.exists_of_bind hfrom₂
    cases hlast
    exact ⟨test, body, ⟨_, _, htest⟩, ⟨inner, hbelow hinner, _, _, hbody⟩,
      ⟨_, _, rfl, by simp [map_snd_parts]⟩, fun run n s => goLoop_eq_javaLoop_iff n s⟩

end

def inParentheses (number : Nat) (value : Node) : Node :=
  .plain number .parenthesized (some "condition") "" [value]

/-- The loop `while (a = b) { if (d) continue; break; }`. -/
def settingWhile : Node :=
  .tree 0 .whileStatement
    [inParentheses 1 (.tree 2 .assignment [.plain 3 .identifier (some "left") "a" [],
       .plain 4 (.other "=") (some "operator") "=" [], .plain 5 .identifier (some "right") "b" []]),
     .body 6 [.tree 7 .ifStatement [inParentheses 8 (.leaf 9 .identifier "d"),
       .plain 10 .continueStatement (some "consequence") "" []], .tree 11 .breakStatement []]]

/-- The loop `do { continue; } while (b);`. -/
def continuedDo : Node :=
  .tree 0 .doStatement
    [.body 3 [.tree 4 .continueStatement []], inParentheses 1 (.leaf 2 .identifier "b")]

/-- The condition of `settingWhile` needs a statement, so it is tested inside of the Go loop. -/
def settingCode : List Stmt :=
  [.loop none none none [.assign (.var "a") (.var "b"), Lower.breakUnless (.var "a"),
    .cond (.var "d") [.raw "continue"] none, .raw "break"]]

theorem settingWhile_keeps_iteration :
    (settingWhile.kind = Form.while.kind
        ∧ (Lower.statement settingWhile).runAt default {} = (.ok settingCode, {}))
      ∧ ∃ test body, Written settingCode (parts .while test body)
        ∧ ∀ {S J : Type} (run : Stmt → S → S × Completion (Jump J)) (n : Nat) (s : S),
          goLoop run (parts .while test body) n s = javaLoop run .while test body n s := by
  have hrun : (Lower.statement settingWhile).runAt default {} = (.ok settingCode, {}) := rfl
  have hkind : settingWhile.kind = Form.while.kind := rfl
  obtain ⟨test, body, -, -, hwritten, hiff⟩ := loop_keeps_iteration_iff hkind hrun
  exact ⟨⟨hkind, hrun⟩, test, body, hwritten, fun run n s => (hiff run n s).2 (.inl rfl)⟩

/-- A `continue` continues, and the test fails. -/
def failing : Stmt → Unit → Unit × Completion (Jump Unit)
  | .raw "continue", _ => ((), .jumps .continues)
  | .cond .., _ => ((), .breaks)
  | _, _ => ((), .normal)

/-- The code of `do { continue; } while (b);` does not come to its condition. -/
theorem continued_do_skips_condition :
    ∃ test body, ((Lower.statement continuedDo).runAt default {}).1
        = .ok [.loop none none none ((parts .do test body).map Prod.snd)]
      ∧ (javaLoop failing .do test body 2 ()).executed.map Prod.fst = [.body, .condition]
      ∧ (goLoop failing (parts .do test body) 2 ()).executed.map Prod.fst = [.body, .body] :=
  ⟨⟨.var "b", []⟩, [.raw "continue"], rfl, rfl, rfl⟩

end JavaToGo.Loops
