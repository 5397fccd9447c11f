import Mathlib.Algebra.GroupWithZero.Nat
import JavaToGo.Code.Stmt

/-!
# Statements in statements
-/

namespace JavaToGo.Code.Stmt

open List

mutual
/-- A statement and those in it, at any depth; a try may stay closed. -/
def walk (enter : Bool) : Stmt → List Stmt
  | .block body => .block body :: walkAll enter body
  | .labeled label statement => .labeled label statement :: walk enter statement
  | .cond test body elseBody =>
    .cond test body elseBody :: (walkAll enter body ++ walkBody enter elseBody)
  | .loop init test post body =>
    .loop init test post body
      :: (walkOption enter init ++ walkOption enter post ++ walkAll enter body)
  | .range key name values body => .range key name values body :: walkAll enter body
  | .switch subject clauses => .switch subject clauses :: walkClauses enter clauses
  | .tryCatch body catches finallyBody resources closers =>
    .tryCatch body catches finallyBody resources closers
      :: if enter then walkAll enter resources ++ walkAll enter body ++ walkCatches enter catches
          ++ walkBody enter finallyBody
        else []
  | s => [s]

def walkOption (enter : Bool) : Option Stmt → List Stmt
  | none => []
  | some s => walk enter s

/-- The statements in a block. -/
def walkAll (enter : Bool) : List Stmt → List Stmt
  | [] => []
  | s :: ss => walk enter s ++ walkAll enter ss

def walkBody (enter : Bool) : Option (List Stmt) → List Stmt
  | none => []
  | some ss => walkAll enter ss

def walkClauses (enter : Bool) : List SwitchClause → List Stmt
  | [] => []
  | .mk _ body _ _ :: clauses => walkAll enter body ++ walkClauses enter clauses

def walkCatches (enter : Bool) : List CatchClause → List Stmt
  | [] => []
  | .mk _ body _ :: catches => walkAll enter body ++ walkCatches enter catches
end

lemma walkAll_append (ss ts : List Stmt) :
    walkAll enter (ss ++ ts) = walkAll enter ss ++ walkAll enter ts := by
  induction ss with
  | nil => rfl
  | cons s ss ih => rw [cons_append, walkAll, walkAll, ih, append_assoc]

lemma walkBody_eq (body : Option (List Stmt)) :
    walkBody enter body = walkAll enter (body.getD []) := by
  cases body <;> rfl

lemma walkOption_eq (s : Option Stmt) : walkOption enter s = walkAll enter s.toList := by
  cases s with
  | none => rfl
  | some => exact (append_nil _).symm

lemma walkClauses_eq (clauses : List SwitchClause) :
    walkClauses enter clauses = walkAll enter (clauses.flatMap SwitchClause.body) := by
  induction clauses with
  | nil => rfl
  | cons clause clauses ih =>
    obtain ⟨values, body, fallsThrough, isDefault⟩ := clause
    rw [flatMap_cons, walkAll_append, walkClauses, ih]
    rfl

lemma walkCatches_eq (catches : List CatchClause) :
    walkCatches enter catches = walkAll enter (catches.flatMap CatchClause.body) := by
  induction catches with
  | nil => rfl
  | cons clause catches ih =>
    obtain ⟨type, body, binding⟩ := clause
    rw [flatMap_cons, walkAll_append, walkCatches, ih]
    rfl

/-- There is no statement in it. -/
def isSimple : Stmt → Bool
  | .hole | .raw _ | .comment _ | .var .. | .assign .. | .step .. | .call _ | .ret _ => true
  | _ => false

section

variable (enter : Bool) (own : Stmt → Nat)

/-- The sum of a measure over a statement and those in it. -/
def total (s : Stmt) : Nat :=
  ((s.walk enter).map own).sum

/-- The sum of a measure over the statements in a block. -/
def totalAll (ss : List Stmt) : Nat :=
  ((walkAll enter ss).map own).sum

end

@[simp] lemma total_simple :
    (∀ comments, (Stmt.comment comments).total enter own = own (.comment comments))
      ∧ (∀ source, (Stmt.raw source).total enter own = own (.raw source))
      ∧ (∀ n t v b, (Stmt.var n t v b).total enter own = own (.var n t v b))
      ∧ (∀ target e, (Stmt.assign target e).total enter own = own (.assign target e))
      ∧ (∀ target sign, (Stmt.step target sign).total enter own = own (.step target sign))
      ∧ (∀ e, (Stmt.call e).total enter own = own (.call e))
      ∧ ∀ values, (Stmt.ret values).total enter own = own (.ret values) := by
  simp [total, walk]

@[simp] lemma totalAll_nil : totalAll enter own [] = 0 :=
  rfl

@[simp] lemma totalAll_cons (s : Stmt) (ss : List Stmt) :
    totalAll enter own (s :: ss) = s.total enter own + totalAll enter own ss := by
  simp [totalAll, total, walkAll]

@[simp] lemma totalAll_append (ss ts : List Stmt) :
    totalAll enter own (ss ++ ts) = totalAll enter own ss + totalAll enter own ts := by
  simp [totalAll, walkAll_append]

@[simp] lemma total_switch (subject : Option Expr) (clauses : List SwitchClause) :
    (Stmt.switch subject clauses).total enter own
      = own (.switch subject clauses) + totalAll enter own (clauses.flatMap SwitchClause.body) := by
  simp [total, totalAll, walk, walkClauses_eq]

end JavaToGo.Code.Stmt
