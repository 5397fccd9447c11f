import JavaToGo.Proofs.Lowering.Accounts

/-!
# Increments

A rule that lowers an operand twice writes the increments in it twice, and a rule
that does not look at an operand loses them: `a[++i] += 1` reads and writes its
place, and a new list looks at its first argument only.
-/

namespace JavaToGo

open Code (Stmt)
open JavaToGo.Tree (Node)
open List Scale

namespace Code
namespace Stmt

/-- An increment or a decrement. -/
def ownSteps : Stmt → Nat
  | .step .. => 1
  | _ => 0

/-- The number of increments in a block. -/
abbrev stepsAll (ss : List Stmt) : Nat :=
  totalAll true ownSteps ss

end Stmt
end Code

def Scale.steps : Scale where
  weight := Stmt.total true Stmt.ownSteps
  tick := 1
  lossy := True

namespace Scale

lemma all_steps (ss : List Stmt) : steps.all ss = Stmt.stepsAll ss :=
  all_of_total (fun _ => rfl) ss

lemma ownSteps_of_compound (s : Stmt) (h : s.isSimple = false) : s.ownSteps = 0 := by
  cases s <;> first | rfl | cases h

lemma deep_steps : steps.Deep :=
  { nests_of_total (fun _ => rfl) ownSteps_of_compound with }

lemma opens_steps : steps.Opens :=
  opens_of_total (fun _ => rfl) ownSteps_of_compound

lemma admits_steps (p : Setting) (value : Node → Lower Lowered) (node : Node) :
    Lower.Admits steps p value node :=
  ⟨fun _ _ _ => trivial, fun _ _ _ => trivial, fun _ _ => .of_placed fun _ => trivial,
   fun _ => trivial⟩

lemma admitsCode_steps (p : Setting) (node : Node) : Lower.AdmitsCode steps p node :=
  .of_light (fun _ => trivial) (fun _ => rfl) fun _ => ⟨opens_steps, .inl trivial⟩

lemma own_steps (p : Setting) (node : Node) : steps.own p node = 0 :=
  Lower.own_eq_zero (fun _ => rfl) p node

end Scale

section

def Tree.Node.updates (node : Node) : Nat :=
  node.walk.countP fun n => n.kind = .update

namespace Part

variable (c : TypeContext)

/-- The updates in an expression, each as often as it is lowered. -/
def valueSteps : Nat → Node → Nat
  | 0, _ => 0
  | height + 1, node => sum (count 1 (valueSteps height) fun _ _ => 0) (ofValue c node)

/-- The updates in a statement, each as often as it is lowered. -/
def codeSteps : Nat → Bool → Node → Nat
  | 0, _, _ => 0
  | height + 1, inReturn, node =>
    sum (count 1 (fun n => valueSteps c n.height n) (codeSteps height)) (ofCode inReturn c node)

def updates : List Part → Nat :=
  sum (count 1 Node.updates fun _ => Node.updates)

/-- No rule on the way through the part loses or repeats an update. -/
inductive Once : Part → Prop
  | value {node : Node}
      (hsum : sum (count 1 Node.updates fun _ _ => 0) (ofValue c node) = node.updates)
      (hparts : ∀ q ∈ ofValue c node, Once q) : Once (.value node)
  | maybe {node : Node} (hnone : node.updates = 0) (hvalue : Once (.value node)) :
      Once (.maybe node)
  | code {b : Bool} {node : Node} (hsum : updates (ofCode b c node) = node.updates)
      (hparts : ∀ q ∈ ofCode b c node, Once q) : Once (.code b node)
  | step : Once .step

/-- There is no update where it is not known whether a part is lowered. -/
def Silent : Part → Prop
  | .maybe node => node.updates = 0
  | _ => True

instance (q : Part) : Decidable q.Silent := by
  cases q <;> unfold Silent <;> infer_instance

end Part

def Tree.Node.Sure (c : TypeContext) (node : Node) : Prop :=
  (∀ q ∈ Part.ofValue c node, q.Silent) ∧ ∀ b, ∀ q ∈ Part.ofCode b c node, q.Silent

instance (c : TypeContext) (node : Node) : Decidable (node.Sure c) :=
  inferInstanceAs (Decidable (_ ∧ _))

variable {c : TypeContext} {p : Setting}

lemma Part.valueSteps_eq_zero (height : Nat) :
    ∀ {node : Node}, node.updates = 0 → valueSteps c height node = 0 := by
  induction height with
  | zero => exact fun _ => rfl
  | succ _ ih =>
    intro node hnode
    have hnone : node.Everywhere fun n => n.kind ≠ .update := fun n hn => by
      simpa using countP_eq_zero.1 hnode n hn
    refine sum_eq_zero fun q hq => ?_
    have hbelow := hold_ofValue hnone c q hq
    cases q with
    | value inner => exact ih (countP_eq_zero.2 fun n hn => by simpa using hbelow n hn)
    | step =>
      obtain ⟨n, hupdate, hother⟩ := hbelow
      exact absurd hupdate hother
    | _ => rfl

lemma accounts_steps (hkind : p.kind ≠ .abstractDefault) :
    Accounts steps p (Part.valueSteps p.types) (Part.codeSteps p.types)
      fun q => q.Everywhere (Node.Sure p.types) ∧ q.Silent where
  deep := deep_steps
  lossless _ _ := rfl
  behind h := absurd h hkind
  value h := ⟨fun _ => rfl, fun q hq => .inr ⟨Part.hold_ofValue h.1 _ q hq, h.1.here.1 q hq⟩⟩
  maybe h := ⟨fun height => Part.valueSteps_eq_zero height h.2, h.1, trivial⟩
  admits _ _ := admits_steps _ _ _
  code h := .inr ⟨admitsCode_steps _ _, fun _ => by rw [own_steps, Nat.zero_add]; rfl,
    fun q hq => ⟨Part.hold_ofCode h.1 _ _ q hq, h.1.here.2 _ q hq⟩⟩

lemma accounts_updates (hkind : p.kind ≠ .abstractDefault) :
    Accounts steps p (fun _ => Node.updates) (fun _ _ => Node.updates) (Part.Once p.types) where
  deep := deep_steps
  lossless _ _ := rfl
  behind h := absurd h hkind
  value h := by
    cases h with
    | value hsum hparts => exact ⟨fun _ => hsum.symm, fun q hq => .inr (hparts q hq)⟩
  maybe h := by
    cases h with
    | maybe hnone hvalue => exact ⟨fun _ => hnone, hvalue⟩
  code h := by
    cases h with
    | code hsum hparts =>
      refine .inr ⟨admitsCode_steps _ _, fun _ => ?_, hparts⟩
      rw [own_steps, Nat.zero_add]
      exact hsum.symm
  admits _ _ := admits_steps _ _ _

end

section

variable {c : Context} {t t' : Trail} {node : Node} {ss : List Stmt}

lemma steps_of_parts (hrun : (Lower.statement node).runAt c t = (.ok ss, t'))
    (hreceiver : c.receiver.kind ≠ .abstractDefault)
    (hparts : ∀ q ∈ Part.ofCode c.inReturn c.toTypeContext node, q.Once c.toTypeContext) :
    Stmt.stepsAll ss = Part.updates (Part.ofCode c.inReturn c.toTypeContext node) := by
  have haccounts := accounts_updates (p := c.setting) hreceiver
  rw [Lower.statement_eq_step] at hrun
  have hcounts := haccounts.counts_parts (haccounts.counts_statementWithin _)
    (admitsCode_steps _ _) hparts c t ss t' rfl hrun
  rwa [all_steps, own_steps, Nat.zero_add] at hcounts

/-- For every statement that is lowered, but in a default method of an abstract class: there are as
many increments in its code as the rules meet updates in it, counting each as often as it is
lowered.  When no rule below the statement loses or repeats an update, there is one for each update
exactly when the rule of the statement itself does not. -/
theorem steps_of_statement (hrun : (Lower.statement node).runAt c t = (.ok ss, t'))
    (hreceiver : c.receiver.kind ≠ .abstractDefault)
    (hsure : node.Everywhere (Node.Sure c.toTypeContext)) :
    Stmt.stepsAll ss = Part.codeSteps c.toTypeContext node.height c.inReturn node
      ∧ ((∀ q ∈ Part.ofCode c.inReturn c.toTypeContext node, q.Once c.toTypeContext) →
        (Stmt.stepsAll ss = node.updates
          ↔ Part.updates (Part.ofCode c.inReturn c.toTypeContext node) = node.updates)) := by
  have haccounts := accounts_steps (p := c.setting) hreceiver
  have hcounts := haccounts.counts_statement (b := c.inReturn) ⟨hsure, trivial⟩
    c t ss t' rfl hrun
  rw [Scale.all_steps] at hcounts
  exact ⟨hcounts, fun hparts => by rw [steps_of_parts hrun hreceiver hparts]⟩

end

def steppedIndex : Node :=
  .plain 4 .update (some "index") ""
    [.leaf 5 .increment "++", .leaf 6 .identifier "i"]

/-- The statement that assigns one to `a[++i]`, with a given operator. -/
def indexedAssignment (operator : String) : Node :=
  .tree 0 .expressionStatement
    [.tree 1 .assignment
      [.plain 2 .arrayAccess (some "left") ""
        [.plain 3 .identifier (some "array") "a" [], steppedIndex],
       .plain 7 (.other operator) (some "operator") operator [],
       .plain 8 .decimalInteger (some "right") "1" []]]

def indexedCode : List Stmt :=
  [.step (.var "i") "++", .assign (.index (.var "a") (.var "i")) (.raw "1")]

lemma once_indexedAssignment :
    ∀ q ∈ Part.ofCode false default (indexedAssignment "="), q.Once default := by
  have hleaf : ∀ n, Part.ofValue default n = [] → n.updates = 0 → (Part.value n).Once default := by
    intro n hnone hupdates
    refine .value (by rw [hnone, hupdates]; rfl) ?_
    rw [hnone]
    exact forall_mem_nil _
  have hindex : (Part.value steppedIndex).Once default :=
    .value rfl (forall_mem_cons.2 ⟨hleaf _ rfl rfl, forall_mem_cons.2
      ⟨.step, forall_mem_singleton.2 (hleaf _ rfl rfl)⟩⟩)
  exact forall_mem_cons.2 ⟨hleaf _ rfl rfl, forall_mem_singleton.2
    (.value rfl (forall_mem_cons.2 ⟨hleaf _ rfl rfl, forall_mem_singleton.2 hindex⟩))⟩

/-- The code of `a[++i] = 1` steps once. -/
theorem steps_of_indexedAssignment :
    (Lower.statement (indexedAssignment "=")).runAt default {} = (.ok indexedCode, {})
      ∧ (default : Context).receiver.kind ≠ .abstractDefault
      ∧ (indexedAssignment "=").Everywhere (Node.Sure default)
      ∧ Stmt.stepsAll indexedCode = (indexedAssignment "=").updates := by
  have hrun : (Lower.statement (indexedAssignment "=")).runAt default {} = (.ok indexedCode, {}) :=
    rfl
  have hsure : (indexedAssignment "=").Everywhere (Node.Sure default) := by decide +kernel
  obtain ⟨-, hiff⟩ := steps_of_statement hrun (by decide) hsure
  exact ⟨hrun, by decide, hsure, (hiff once_indexedAssignment).2 rfl⟩

/-- The code of `a[++i] += 1` steps twice. -/
theorem compound_steps_twice :
    ∃ ss, ((Lower.statement (indexedAssignment "+=")).runAt default {}).1 = .ok ss
      ∧ (default : Context).receiver.kind ≠ .abstractDefault
      ∧ Stmt.stepsAll ss = 2 ∧ (indexedAssignment "+=").updates = 1 :=
  ⟨_, rfl, by decide, rfl, rfl⟩

end JavaToGo
