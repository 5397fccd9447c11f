import JavaToGo.Proofs.Lowering.StatementParts

/-!
# Accounts of whole trees

When a number is attached to each part of a tree, and that of a part is the sum
of those of its parts, then it is what lowering the part leaves.
-/

namespace JavaToGo

def Part.IsCode : Part → Prop
  | .code .. => True
  | _ => False

def Part.count (tick : Nat) (value : Node → Nat) (code : Bool → Node → Nat) : Part → Nat
  | .value node => value node
  | .maybe _ => 0
  | .code inReturn node => code inReturn node
  | .step => tick

lemma Part.sum_silent {S : Scale} (h : S.tick = 0) (parts : List Part) :
    sum (count S.tick (fun _ => 0) fun _ _ => 0) parts = 0 :=
  sum_eq_zero fun q _ => by
    cases q with
    | step => exact h
    | _ => rfl

/-- Numbers that are attached to the good parts of trees, and add up along the rules.  They may
depend on the height within which a part is lowered; an expression in a statement is lowered
within its own. -/
structure Accounts (S : Scale) (p : Setting) (values : Nat → Node → Nat)
    (codes : Nat → Bool → Node → Nat) (Good : Part → Prop) : Prop where
  deep : S.Deep
  lossless : S.lossy → ∀ log, S.logged log = 0
  behind : p.kind = .abstractDefault →
    S.tick = 0 ∧ (∀ height node, values height node = 0) ∧ ∀ height b node, codes height b node = 0
  value : ∀ {node}, Good (.value node) →
    (∀ height, values (height + 1) node
      = Part.sum (Part.count S.tick (values height) fun _ _ => 0) (Part.ofValue p.types node))
      ∧ ∀ q ∈ Part.ofValue p.types node, q.IsCode ∨ Good q
  maybe : ∀ {node}, Good (.maybe node) → (∀ height, values height node = 0) ∧ Good (.value node)
  admits : ∀ {node}, Good (.value node) → ∀ height,
    Lower.Admits S p (Lower.expressionWithin height) node
  code : ∀ {b node}, Good (.code b node) →
    (node.kind = .tryStatement ∨ node.kind = .tryWithResourcesStatement) ∧ S.lossy ∧ S.Shuts
        ∧ (∀ height, codes (height + 1) b node = 0)
      ∨ Lower.AdmitsCode S (p.within b) node
        ∧ (∀ height, codes (height + 1) b node = S.own p node
          + Part.sum (Part.count S.tick (fun n => values n.height n) (codes height))
            (Part.ofCode b p.types node))
        ∧ ∀ q ∈ Part.ofCode b p.types node, Good q

namespace Accounts

open Lower

variable {S : Scale} {p : Setting} {values : Nat → Node → Nat} {codes : Nat → Bool → Node → Nat}
  {Good : Part → Prop} (h : Accounts S p values codes Good)
include h

lemma counts_rule {α : Type} {go : Node → Lower Lowered} {run : Node → Lower (List Stmt)}
    {v : Node → Nat} {parts : List Part} {held : Nat} {x : Lower α} {total : α → Nat}
    (hx : Emits S go run (p.within b) parts held x total)
    (hnone : p.kind = .abstractDefault → (∀ n, v n = 0) ∧ ∀ b n, k b n = 0)
    (hparts : ∀ q ∈ parts, Emits.Counted S go run (p.within b) (Part.count S.tick v k) q) :
    Emits.CountsAt S (p.within b) (held + Part.sum (Part.count S.tick v k) parts) x total := by
  refine hx.counts (.inl h.deep.plain) h.lossless rfl (fun _ => rfl) (fun hkind q => ?_) hparts
  cases q with
  | value node => exact (hnone hkind).1 node
  | maybe => rfl
  | code b node => exact (hnone hkind).2 b node
  | step => exact (h.behind hkind).1

lemma counts_expressionWithin (height : Nat) : ∀ {node : Node}, Good (.value node) → ∀ b,
    Emits.CountsAt S (p.within b) (values height node) (expressionWithin height node)
      fun a => S.all a.before := by
  induction height with
  | zero =>
    intro node _ b c t a t' _ hrun
    cases hrun
  | succ height ih =>
    intro node hnode b
    have hrule : Emits S (expressionWithin height) (fun _ => throw (.fault .tooDeep))
        (p.within b) (Part.ofValue p.types node) 0 (expressionWithin (height + 1) node)
        fun a => 0 + S.all a.before :=
      emits_expressionStep ((h.admits hnode height).within b)
    have hcounts := h.counts_rule hrule
      (fun hkind => ⟨(h.behind hkind).2.1 height, fun _ _ => rfl⟩) fun q hq => ?_
    · simpa only [Nat.zero_add, ← (h.value hnode).1] using hcounts
    have hgood := (h.value hnode).2 q hq
    cases q with
    | value inner => exact fun b => ih (hgood.resolve_left id) b
    | maybe inner =>
      intro b
      obtain ⟨hnone, hinner⟩ := h.maybe (hgood.resolve_left id)
      rw [← hnone height]
      exact ih hinner b
    | code b inner =>
      intro c t a t' _ hrun
      cases hrun
    | step => trivial

variable {node : Node} {k : Bool → Node → Nat}

lemma counts_expression (hnode : Good (.value node)) (b : Bool) :
    Emits.CountsAt S (p.within b) (values node.height node) (expression node)
      fun a => S.all a.before :=
  h.counts_expressionWithin node.height hnode b

lemma counts_of_good {α : Type} {go : Node → Lower (List Stmt)} {parts : List Part} {held : Nat}
    {x : Lower α} {total : α → Nat} (hx : Emits S expression go (p.within b) parts held x total)
    (hnone : p.kind = .abstractDefault → ∀ b n, k b n = 0)
    (hgo : ∀ {b : Bool} {node : Node}, .code b node ∈ parts →
      Emits.CountsAt S (p.within b) (k b node) (go node) S.all)
    (hparts : ∀ q ∈ parts, q.IsCode ∨ Good q) :
    Emits.CountsAt S (p.within b)
      (held + Part.sum (Part.count S.tick (fun n => values n.height n) k) parts) x total := by
  refine h.counts_rule hx (fun hkind => ⟨fun n => (h.behind hkind).2.1 _ n, hnone hkind⟩)
    fun q hq => ?_
  have hgood := hparts q hq
  cases q with
  | value => exact fun b => h.counts_expression (hgood.resolve_left id) b
  | maybe inner =>
    intro b
    obtain ⟨hnone, hinner⟩ := h.maybe (hgood.resolve_left id)
    rw [← hnone inner.height]
    exact h.counts_expression hinner b
  | code => exact hgo hq
  | step => trivial

lemma counts_parts {height : Nat} (hbelow : ∀ {b : Bool} {node : Node}, Good (.code b node) →
      Emits.CountsAt S (p.within b) (codes height b node) (statementWithin height node) S.all)
    (hnode : AdmitsCode S (p.within b) node) (hparts : ∀ q ∈ Part.ofCode b p.types node, Good q) :
    Emits.CountsAt S (p.within b)
      (S.own p node + Part.sum (Part.count S.tick (fun n => values n.height n) (codes height))
        (Part.ofCode b p.types node)) (statementWithin (height + 1) node) S.all := by
  have hrule : Emits S expression (statementWithin height) (p.within b) (Part.ofCode b p.types node)
      (0 + S.own p node) (statementWithin (height + 1) node) fun ss => 0 + S.all ss :=
    emits_statementStep h.deep (gives_statementWithin_break height) hnode
  have hcounts := h.counts_of_good hrule (fun hkind => (h.behind hkind).2.2 height)
    (fun hq => hbelow (hparts _ hq)) fun q hq => .inr (hparts q hq)
  simpa only [Nat.zero_add] using hcounts

lemma counts_shut (hkind : node.kind = .tryStatement ∨ node.kind = .tryWithResourcesStatement)
    (hlossy : S.lossy) (hshuts : S.Shuts) :
    Emits.CountsAt S (p.within b) 0 (statementWithin (height + 1) node) S.all := by
  intro c t ss t' _ hrun
  have hrule : (statementWithin (height + 1) node) = tryWith (statementWithin height) node := by
    rcases hkind with hkind | hkind <;> rw [statementWithin, statementStep, hkind]
  rw [hrule] at hrun
  rw [gives_tryWith h.deep node hshuts c t ss t' hrun, h.lossless hlossy, h.lossless hlossy]

lemma counts_statementWithin (height : Nat) :
    ∀ {b : Bool} {node : Node}, Good (.code b node) →
      Emits.CountsAt S (p.within b) (codes height b node) (statementWithin height node) S.all := by
  induction height with
  | zero =>
    intro b node _ c t a t' _ hrun
    cases hrun
  | succ _ ih =>
    intro b node hnode
    rcases h.code hnode with ⟨hkind, hlossy, hshuts, hzero⟩ | ⟨hadmits, hsum, hparts⟩
    · rw [hzero]
      exact h.counts_shut hkind hlossy hshuts
    · rw [hsum]
      exact h.counts_parts ih hadmits hparts

lemma counts_statement (hnode : Good (.code b node)) :
    Emits.CountsAt S (p.within b) (codes node.height b node) (statement node) S.all :=
  h.counts_statementWithin node.height hnode

lemma counts_block (hparts : ∀ n ∈ node.operands, Good (.code b n)) :
    Emits.CountsAt S (p.within b)
      (Part.sum (Part.count S.tick (fun n => values n.height n) fun b n => codes n.height b n)
        (Part.block b node)) (block node) S.all := by
  have hrule : Emits S expression statement (p.within b) (Part.block b node) 0 (block node)
      fun ss => 0 + S.all ss := emits_blockWith node
  have hblock : ∀ q ∈ Part.block b node, Good q := List.forall_mem_map.2 hparts
  have hcounts := h.counts_of_good hrule (fun hkind b n => (h.behind hkind).2.2 n.height b n)
    (fun hq => h.counts_statement (hblock _ hq)) fun q hq => .inr (hblock q hq)
  simpa only [Nat.zero_add] using hcounts

end Accounts

end JavaToGo
